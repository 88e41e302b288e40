import SymbolBridge.Proofs.Script.Depth.Ends
import SymbolBridge.Proofs.Text.Truncate

/-!
# How deep parsers go

No parser comes back to itself but past a character, and there are four kinds of calls between, so four calls for each
character left are deep enough (`part_primary`, `statements_end`): with them every run ends, as the bounded parser does. And
each token and each part that is read leaves less than it found (`parsers_advance_and_end`).
-/

namespace SymbolBridge.Script.Depth

open Cursor (ofSource)
open SymbolBridge.Script.Parser (constant?)

/-! ## Expressions -/

section

variable {src : String} {c : Cursor}

theorem skip_of_nil (h : c.rest = []) : c.skip = c := Cursor.skip_of_blankPrefix (by rw [h]; rfl)

theorem number?_of_nil (h : c.rest = []) : c.number? = none := by
  simp [Cursor.number?, h, numeralPrefix, magnitudePrefix, hexPrefix, decimalPrefix]

theorem primary_of_nil (h : c.rest = []) : ∀ n, Parser.primary n c = .error ⟨.expectedExpression, c⟩
  | 0 => rfl
  | n + 1 => by simp only [Parser.primary, skip_of_nil h, number?_of_nil h, h]

theorem chain_of_nil {n m : Nat} (h : c.rest = []) :
    Parser.chain (Parser.primary n) m c = .error ⟨.expectedExpression, c⟩ := by
  rw [Parser.chain, skip_of_nil h, primary_of_nil h]
  rfl

theorem part_expr {n : Nat} (hp : Part src n 1 (primary src) (Parser.primary n)) :
    Part src n 2 (expr src) (Parser.expr n) where
  ends hc hb hdepth := chain_ends hp hc hb hb hdepth
  atEnd := chain_of_nil

/-- Past its first character a primary has the parts of a smaller bound. -/
theorem part_primary : ∀ n, Part src n 1 (primary src) (Parser.primary n)
  | 0 => by
    refine ⟨fun {t c} hc hn hdepth => ?_, fun h => primary_of_nil h 0⟩
    have hrest : c.rest = [] := List.length_eq_zero_iff.1 (Nat.le_zero.1 hn)
    obtain ⟨t, rfl⟩ : ∃ k, t = k + 1 := ⟨t - 1, by omega⟩
    rw [primary, skip_eq (by omega), pure_bind, skip_of_nil hrest, number?_of_nil hrest, hrest]
    exact .throw (.refl c)
  | n + 1 => by
    refine ⟨fun {t c} hc hn hdepth => ?_, fun h => primary_of_nil h (n + 1)⟩
    obtain ⟨t, rfl⟩ : ∃ k, t = k + 1 := ⟨t - 1, by omega⟩
    have hexpr : Part src n 2 (expr src) (Parser.expr n) := part_expr (part_primary n)
    have hskip : (ofSource src).Reaches c.skip := hc.trans c.reaches_skip
    have token : ∀ {k : Cursor}, c.skip.Advances k →
        c.Reaches k ∧ (ofSource src).Reaches k ∧ k.rest.length ≤ n ∧ 4 * k.rest.length + 4 ≤ t := by
      intro k hk
      have hck := c.reaches_skip.trans_advances hk
      have hlt := hck.length_lt
      exact ⟨hck.reaches, hc.trans hck.reaches, by omega, by omega⟩
    rw [primary, skip_eq (by omega), pure_bind, Parser.primary]
    dsimp only
    cases hnumber : c.skip.number? with
    | some a => exact .pure (c.reaches_skip.trans_advances (Cursor.advances_of_number? hnumber))
    | none =>
      cases hr : c.skip.rest with
      | nil => exact .throw c.reaches_skip
      | cons q cs =>
        by_cases hbrace : q = '{'
        · subst hbrace
          obtain ⟨hck, hk, hkn, hdepth'⟩ := token (Cursor.advances_advance hr)
          have hlist := list_ends '}' hexpr hk hkn hkn hdepth'
          exact (hlist.of_reaches hck fun _ => hck.trans_advances).bind fun _ hd => .pure hd
        by_cases hparen : q = '('
        · subst hparen
          obtain ⟨hck, hk, hkn, hdepth'⟩ := token (Cursor.advances_advance hr)
          refine ((hexpr.ends hk hkn (by omega)).of_reaches hck fun _ => hck.trans_advances).bind ?_
          rintro ⟨e, m⟩ (hm : c.Advances m)
          have hlt := hm.length_lt
          have hclose : c.Advances m.skip := hm.trans_reaches m.reaches_skip
          simp only [skip_eq (show m.rest.length < t + 1 by omega), pure_bind]
          cases hd : m.skip.past? [')'] with
          | some d => exact .pure (hclose.trans_reaches (Cursor.advances_of_past? hd).reaches)
          | none => exact .throw hclose.reaches
        simp only
        by_cases hquote : isQuote q
        · rw [if_pos hquote, if_pos hquote]
          have hstring := (ends_string c.skip).of_reaches c.reaches_skip fun _ => c.reaches_skip.trans_advances
          exact hstring.bind fun _ hd => .pure hd
        · rw [if_neg hquote, if_neg hquote]
          cases hname : c.skip.identifier? with
          | none => exact .throw c.reaches_skip
          | some a =>
            obtain ⟨name, k⟩ := a
            have hadvances : c.Advances k := c.reaches_skip.trans_advances (Cursor.advances_of_identifier? hname)
            obtain ⟨hck, hk, hkn, hdepth'⟩ := token (Cursor.advances_of_identifier? hname)
            dsimp only
            cases hconstant : constant? name with
            | some e => exact .pure hadvances
            | none =>
              have harguments := arguments_ends (t := t) hexpr hk hkn hkn (by omega)
              refine (harguments.of_reaches hck fun _ ha b hb => hck.trans_advances (ha b hb)).bind ?_
              rintro (_ | ⟨args, d⟩) hd
              · simp only [spanTo_eq hskip hk, pure_bind]
                exact .pure hadvances
              · have hcd : c.Advances d := hd _ rfl
                simp only [spanTo_eq hskip (hc.trans hcd.reaches), pure_bind]
                exact .pure hcd

/-! ## Statements -/

theorem statement_ends {n t : Nat} (hc : (ofSource src).Reaches c) (hn : c.rest.length ≤ n)
    (hdepth : 4 * c.rest.length + 1 ≤ t) :
    Ends c (c.Advances ·.2) (statement src t c) (Parser.statement n c) := by
  have hexpr : Part src n 2 (expr src) (Parser.expr n) := part_expr (part_primary n)
  rw [statement, Parser.statement]
  cases hname : c.identifier? with
  | none => exact .throw (.refl c)
  | some a =>
    obtain ⟨name, k⟩ := a
    have hck : c.Advances k := Cursor.advances_of_identifier? hname
    have hlt := hck.length_lt
    simp only [skip_eq (show k.rest.length < t by omega), pure_bind]
    cases hm : k.skip.past? ['='] with
    | some m =>
      have hcm : c.Advances m := (hck.trans_reaches k.reaches_skip).trans_reaches (Cursor.advances_of_past? hm).reaches
      have hlt' := hcm.length_lt
      have hvalue := hexpr.ends (t := t) (hc.trans hcm.reaches) (by omega) (by omega)
      refine (hvalue.of_reaches hcm.reaches fun _ => hcm.reaches.trans_advances).bind ?_
      rintro ⟨e, d⟩ (hd : c.Advances d)
      simp only [spanTo_eq hc (hc.trans hd.reaches), pure_bind]
      exact .pure hd
    | none =>
      have harguments :=
        arguments_ends (n := n) (t := t) hexpr (hc.trans hck.reaches) (by omega) (by omega) (by omega)
      refine (harguments.of_reaches hck.reaches fun _ ha b hb => hck.reaches.trans_advances (ha b hb)).bind ?_
      rintro (_ | ⟨args, d⟩) hd
      · exact .throw (.refl c)
      · have hcd : c.Advances d := hd _ rfl
        simp only [spanTo_eq hc (hc.trans hcd.reaches), pure_bind]
        exact .pure hcd

theorem statements_end : ∀ {n t : Nat} {c : Cursor}, (ofSource src).Reaches c → c.rest.length ≤ n →
    4 * c.rest.length + 2 ≤ t → Ends c (fun _ => True) (statements src t c) (Parser.statements n c)
  | _, 0, c, _, _, hdepth => by omega
  | 0, t + 1, c, hc, hn, hdepth => by
    have hrest : c.rest = [] := List.length_eq_zero_iff.1 (Nat.le_zero.1 hn)
    rw [statements, skip_eq (by omega), pure_bind, skip_of_nil hrest, hrest]
    exact .pure trivial
  | n + 1, t + 1, c, hc, hn, hdepth => by
    rw [statements, skip_eq (by omega), pure_bind, Parser.statements]
    dsimp only
    by_cases hrest : c.skip.rest.isEmpty
    · rw [if_pos hrest, if_pos hrest]
      exact .pure trivial
    · rw [if_neg hrest, if_neg hrest]
      have hle := c.reaches_skip.length_le
      have hfirst := statement_ends (n := n + 1) (t := t) (hc.trans c.reaches_skip) (by omega) (by omega)
      refine (hfirst.of_reaches c.reaches_skip fun _ => c.reaches_skip.trans_advances).bind ?_
      rintro ⟨s, d⟩ (hd : c.Advances d)
      have hlt := hd.length_lt
      have hothers := statements_end (n := n) (t := t) (hc.trans hd.reaches) (by omega) (by omega)
      exact (hothers.of_reaches hd.reaches fun _ h => h).bind fun _ _ => .pure trivial

theorem load_eq {t : Nat} (hdepth : 4 * src.length + 2 ≤ t) : load src t = some (Script.load src) := by
  have hends : Ends (ofSource src) (fun _ => True) (statements src t (ofSource src)) (parse src) :=
    statements_end (.refl _) (Nat.le_refl _) (by rwa [ofSource, String.length_toList])
  rw [load, hends.eq, Script.load]
  have hyields := hends.yields
  cases hparse : parse src with
  | ok ss => rfl
  | error fault =>
    rw [hparse] at hyields
    simp only [ended, ExceptT.run_mk, bind, Option.bind, offset?_eq hyields]
    rfl

end

/-- **Parsers go forward, and they end.** At every place of a source the offset is found by subtraction, and lies between two
characters. Skipping blanks there ends, and leaves none to skip. A token or a part of the grammar that is read leaves
strictly less than it found; only the operands after `..` may be none. Every loop and every recursion ends within four calls
for each character left and four more, with a fault at a place of the source if not with a value, and as the bounded parser
does under any bound that is at least the length of what is left. So a whole source is read, or refused. -/
theorem parsers_advance_and_end (src : String) :
    (∀ c : Cursor, (ofSource src).Reaches c →
      (offset? src c = some c.offset ∧ Text.isBoundary (Text.utf8Bytes src.toList) c.offset) ∧
      (∀ name d, c.identifier? = some (name, d) → c.Advances d) ∧
      (∀ x d, c.number? = some (x, d) → c.Advances d) ∧
      (∀ s d, Parser.string c = .ok (s, d) → c.Advances d) ∧
      ∀ n t, c.rest.length ≤ n → 4 * c.rest.length + 4 ≤ t →
        (skip t c = pure c.skip ∧ c.Reaches c.skip ∧ skip t c.skip = pure c.skip) ∧
        Ends c (c.Advances ·.2) (primary src t c) (Parser.primary n c) ∧
        Ends c (c.Reaches ·.2) (operands src t c) (Parser.operands (Parser.primary n) n c) ∧
        Ends c (c.Advances ·.2) (expr src t c) (Parser.expr n c) ∧
        (∀ close, Ends c (c.Advances ·.2) (items src close t c) (Parser.items (Parser.expr n) close n c)) ∧
        (∀ close, Ends c (c.Advances ·.2) (list src close t c) (Parser.list (Parser.expr n) close n c)) ∧
        Ends c (fun r => ∀ a ∈ r, c.Advances a.2) (arguments? src t c) (Parser.arguments? (Parser.expr n) n c) ∧
        Ends c (c.Advances ·.2) (statement src t c) (Parser.statement n c) ∧
        Ends c (fun _ => True) (statements src t c) (Parser.statements n c)) ∧
    ∀ t, 4 * src.length + 4 ≤ t → load src t = some (Script.load src) := by
  refine ⟨fun c hc => ⟨⟨offset?_eq hc, ?_⟩, fun _ _ => Cursor.advances_of_identifier?,
    fun _ _ => Cursor.advances_of_number?, fun _ _ => advances_of_string, fun n t hn ht => ?_⟩,
    fun t ht => load_eq (by omega)⟩
  · obtain ⟨before, hrest, hoffset⟩ := hc
    rw [Text.isBoundary_utf8Bytes_iff]
    exact ⟨before, ⟨c.rest, hrest.symm⟩, by rw [hoffset, ofSource, Nat.zero_add]⟩
  · have hle := c.reaches_skip.length_le
    have hprimary : Part src n 1 (primary src) (Parser.primary n) := part_primary n
    have hexpr : Part src n 2 (expr src) (Parser.expr n) := part_expr hprimary
    refine ⟨⟨skip_eq (by omega), c.reaches_skip, ?_⟩, hprimary.ends hc hn (by omega),
      operands_ends hprimary hc hn hn (by omega), hexpr.ends hc hn (by omega),
      fun close => items_ends close hexpr hc hn hn (by omega), fun close => list_ends close hexpr hc hn hn (by omega),
      arguments_ends hexpr hc hn hn (by omega), statement_ends hc hn (by omega), statements_end hc hn (by omega)⟩
    rw [skip_eq (by omega), Cursor.skip_skip]

end SymbolBridge.Script.Depth
