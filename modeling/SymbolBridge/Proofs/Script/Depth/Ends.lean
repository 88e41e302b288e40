import SymbolBridge.Proofs.Script.Depth.Parser

/-!
# Runs that end

`Ends c P x r` says that the run `x` has the outcome `r`, where a value has the property `P` and a fault lies at the cursor
`c` or after it. It is closed under running one parser after the other (`Ends.bind`). So lists, chains and arguments end
where their parts do, within four calls for each character left (`list_ends`, `chain_ends`, `arguments_ends`).
-/

namespace SymbolBridge.Script.Depth

open Text (byteLength)
open Cursor (ofSource)

variable {α β : Type}

/-- A run has an outcome: a value with a property, or a fault at the cursor or after it. -/
structure Ends (c : Cursor) (P : α → Prop) (x : Run α) (r : Except SyntaxFault α) : Prop where
  eq : x = ended r
  yields : c.Yields P r

section

variable {c d : Cursor} {P P' : α → Prop} {Q : β → Prop} {x : Run α} {r : Except SyntaxFault α}

theorem Ends.pure {a : α} (h : P a) : Ends c P (Pure.pure a) (.ok a) := ⟨rfl, h⟩

theorem Ends.throw {fault : SyntaxFault} (h : c.Reaches fault.place) :
    Ends c P (MonadExcept.throw fault) (.error fault) := ⟨rfl, h⟩

theorem Ends.bind {f : α → Run β} {g : α → Except SyntaxFault β} (hx : Ends c P x r)
    (hf : ∀ a, P a → Ends c Q (f a) (g a)) : Ends c Q (x >>= f) (r >>= g) := by
  obtain ⟨rfl, hr⟩ := hx
  cases r with
  | error fault => exact ⟨rfl, hr⟩
  | ok a => exact hf a hr

theorem Ends.map {f : α → β} (hx : Ends c P x r) (hf : ∀ a, P a → Q (f a)) :
    Ends c Q (x >>= fun a => Pure.pure (f a)) (r.map f) := by
  obtain ⟨rfl, hr⟩ := hx
  cases r with
  | error fault => exact ⟨rfl, hr⟩
  | ok a => exact ⟨rfl, hf a hr⟩

theorem Ends.of_reaches (hx : Ends d P x r) (h : c.Reaches d) (hP : ∀ a, P a → P' a) : Ends c P' x r :=
  ⟨hx.eq, hx.yields.of_reaches h hP⟩

end

/-! ## Blanks and places -/

/-- Every round passes a character, and one more finds no blank. -/
theorem skip_eq : ∀ {t : Nat} {c : Cursor}, c.rest.length < t → skip t c = pure c.skip
  | 0, c, h => absurd h (Nat.not_lt_zero _)
  | t + 1, c, h => by
    rw [skip]
    cases hl : separator? c.rest with
    | none => rw [Cursor.skip_of_blankPrefix (blankPrefix_of_separator?_eq_none hl)]
    | some l =>
      obtain ⟨rest, hne, hrest, hblank⟩ := exists_of_separator?_eq_some hl
      have hs : c.Spells l (c.advance l) := Cursor.spells_advance ⟨rest, hrest.symm⟩
      have hadvance : (c.advance l).rest = rest := by rw [Cursor.rest_advance, hrest, List.drop_left]
      have hlt := (hs.advances hne).length_lt
      -- The other blanks follow the first one.
      have hskip : (c.advance l).skip = c.skip := by
        have hboth := hs.trans (c.advance l).spells_skip
        rw [hadvance, ← hblank] at hboth
        exact hboth.eq_advance
      simp only [if_neg (Nat.ne_of_lt hlt)]
      rw [skip_eq (by omega), hskip]

section

variable {src : String} {c d : Cursor}

theorem offset?_eq (hc : (ofSource src).Reaches c) : offset? src c = some c.offset := by
  have hadd := hc.offset_add
  have hle : byteLength c.rest ≤ src.utf8ByteSize := by omega
  have hsub : src.utf8ByteSize - byteLength c.rest = c.offset := by omega
  rw [offset?, if_pos hle, hsub]

theorem spanTo_eq (hc : (ofSource src).Reaches c) (hd : (ofSource src).Reaches d) :
    spanTo src c d = pure (c.spanTo d) := by
  rw [spanTo, offset?_eq hc, offset?_eq hd]
  rfl

end

/-! ## Lists and chains, over parsers of their parts -/

theorem ends_string (c : Cursor) : Ends c (c.Advances ·.2) (ended (Parser.string c)) (Parser.string c) := by
  refine ⟨rfl, ?_⟩
  have hforward := Parser.forward_string c
  cases hs : Parser.string c with
  | error fault =>
    rw [hs] at hforward
    exact hforward
  | ok a => exact advances_of_string hs

/-- Two parsers of one part, where at most `b` characters are left: `x` ends as `p` does if it may go deeper than four
calls for each of them by `k`, and there is no part at the end of the source. -/
structure Part (src : String) (b k : Nat) (x : Nat → Cursor → Run (Expr × Cursor)) (p : Parser Expr) : Prop where
  ends : ∀ {t : Nat} {c : Cursor}, (ofSource src).Reaches c → c.rest.length ≤ b → 4 * c.rest.length + k ≤ t →
    Ends c (c.Advances ·.2) (x t c) (p c)
  atEnd : ∀ {c : Cursor}, c.rest = [] → p c = .error ⟨.expectedExpression, c⟩

section

variable {src : String} {b : Nat} {part : Parser Expr} {close : Char} {c d : Cursor}

theorem Part.from {k t : Nat} {x : Nat → Cursor → Run (Expr × Cursor)} (hp : Part src b k x part)
    (hc : (ofSource src).Reaches c) (h : c.Reaches d) (hd : d.rest.length ≤ b) (hdepth : 4 * d.rest.length + k ≤ t) :
    Ends c (d.Advances ·.2) (x t d) (part d) :=
  (hp.ends (hc.trans h) hd hdepth).of_reaches h fun _ ha => ha

theorem past?_eq_none_of_nil {x : Char} {l : List Char} (h : c.rest = []) : c.past? (x :: l) = none :=
  Cursor.past?_eq_none fun y hy => by rw [h] at hy; cases hy

theorem operands_ends (hp : Part src b 1 (primary src) part) : ∀ {n t : Nat} {c : Cursor},
    (ofSource src).Reaches c → c.rest.length ≤ b → c.rest.length ≤ n → 4 * c.rest.length + 1 ≤ t →
    Ends c (c.Reaches ·.2) (operands src t c) (Parser.operands part n c)
  | _, 0, c, _, _, _, hdepth => by omega
  | 0, t + 1, c, hc, _, hn, hdepth => by
    have hle := c.reaches_skip.length_le
    have hrest : c.skip.rest = [] := List.length_eq_zero_iff.1 (by omega)
    rw [operands, skip_eq (by omega), pure_bind, past?_eq_none_of_nil hrest]
    exact .pure (.refl c)
  | n + 1, t + 1, c, hc, hb, hn, hdepth => by
    rw [operands, skip_eq (by omega), pure_bind, Parser.operands]
    cases hk : c.skip.past? ['.', '.'] with
    | none => exact .pure (.refl c)
    | some k =>
      have hck : c.Advances k := c.reaches_skip.trans_advances (Cursor.advances_of_past? hk)
      have hlt := hck.length_lt
      refine (hp.from hc hck.reaches (by omega) (by omega)).bind ?_
      rintro ⟨e, m⟩ (hm : k.Advances m)
      have hcm : c.Advances m := hck.reaches.trans_advances hm
      have hlt' := hcm.length_lt
      have hrest := operands_ends hp (n := n) (t := t) (hc.trans hcm.reaches) (by omega) (by omega) (by omega)
      exact (hrest.of_reaches hcm.reaches fun _ => hcm.reaches.trans).bind fun _ hd => .pure hd

theorem chain_ends (hp : Part src b 1 (primary src) part) {n t : Nat} (hc : (ofSource src).Reaches c)
    (hb : c.rest.length ≤ b) (hn : c.rest.length ≤ n) (hdepth : 4 * c.rest.length + 2 ≤ t) :
    Ends c (c.Advances ·.2) (expr src t c) (Parser.chain part n c) := by
  obtain ⟨t, rfl⟩ : ∃ k, t = k + 1 := ⟨t - 1, by omega⟩
  have hle := c.reaches_skip.length_le
  rw [expr, skip_eq (by omega), pure_bind, Parser.chain]
  refine (hp.from hc c.reaches_skip (by omega) (by omega)).bind ?_
  rintro ⟨first, m⟩ (hm : c.skip.Advances m)
  have hcm : c.Advances m := c.reaches_skip.trans_advances hm
  have hlt := hcm.length_lt
  have hrest := operands_ends hp (n := n) (t := t) (hc.trans hcm.reaches) (by omega) (by omega) (by omega)
  refine (hrest.of_reaches hcm.reaches fun _ => hcm.trans_reaches).bind ?_
  rintro ⟨rest, d⟩ (hd : c.Advances d)
  simp only [spanTo_eq (hc.trans c.reaches_skip) (hc.trans hd.reaches), pure_bind]
  exact .pure hd

theorem items_ends (close : Char) (hp : Part src b 2 (expr src) part) : ∀ {n t : Nat} {c : Cursor},
    (ofSource src).Reaches c → c.rest.length ≤ b → c.rest.length ≤ n → 4 * c.rest.length + 3 ≤ t →
    Ends c (c.Advances ·.2) (items src close t c) (Parser.items part close n c)
  | _, 0, c, _, _, _, hdepth => by omega
  | 0, t + 1, c, hc, hb, hn, hdepth => by
    -- Nothing is left, so the first expression is missing.
    have hrest : c.rest = [] := List.length_eq_zero_iff.1 (Nat.le_zero.1 hn)
    have hpart := (hp.ends hc hb (t := t) (by omega)).eq
    rw [hp.atEnd hrest] at hpart
    rw [items, hpart]
    exact .throw (.refl c)
  | n + 1, t + 1, c, hc, hb, hn, hdepth => by
    rw [items, Parser.items]
    refine (hp.ends hc hb (by omega)).bind ?_
    rintro ⟨e, m⟩ (hm : c.Advances m)
    have hskip : c.Advances m.skip := hm.trans_reaches m.reaches_skip
    have hlt := hm.length_lt
    simp only [skip_eq (show m.rest.length < t + 1 by omega), pure_bind]
    cases hk : m.skip.past? [','] with
    | some k =>
      have hck : c.Advances k := hskip.trans_reaches (Cursor.advances_of_past? hk).reaches
      have hlt' := hck.length_lt
      have hrest := items_ends close hp (n := n) (t := t) (hc.trans hck.reaches) (by omega) (by omega) (by omega)
      exact (hrest.of_reaches hck.reaches fun _ => hck.reaches.trans_advances).bind fun _ hd => .pure hd
    | none =>
      cases hd : m.skip.past? [close] with
      | some d => exact .pure (hskip.trans_reaches (Cursor.advances_of_past? hd).reaches)
      | none => exact .throw hskip.reaches

theorem list_ends (close : Char) (hp : Part src b 2 (expr src) part) {n t : Nat} (hc : (ofSource src).Reaches c)
    (hb : c.rest.length ≤ b) (hn : c.rest.length ≤ n) (hdepth : 4 * c.rest.length + 4 ≤ t) :
    Ends c (c.Advances ·.2) (list src close t c) (Parser.list part close n c) := by
  obtain ⟨t, rfl⟩ : ∃ k, t = k + 1 := ⟨t - 1, by omega⟩
  rw [list, skip_eq (by omega), pure_bind, Parser.list]
  cases hd : c.skip.past? [close] with
  | some d => exact .pure (c.reaches_skip.trans_advances (Cursor.advances_of_past? hd))
  | none => exact items_ends close hp hc hb hn (by omega)

theorem arguments_ends (hp : Part src b 2 (expr src) part) {n t : Nat} (hc : (ofSource src).Reaches c)
    (hb : c.rest.length ≤ b) (hn : c.rest.length ≤ n) (hdepth : 4 * c.rest.length + 1 ≤ t) :
    Ends c (fun r => ∀ a ∈ r, c.Advances a.2) (arguments? src t c) (Parser.arguments? part n c) := by
  have one : ∀ {a b : List Expr × Cursor}, c.Advances a.2 → b ∈ some a → c.Advances b.2 := by
    intro a b ha hb
    rwa [← Option.some.inj hb]
  obtain ⟨t, rfl⟩ : ∃ k, t = k + 1 := ⟨t - 1, by omega⟩
  rw [arguments?, skip_eq (by omega), pure_bind, Parser.arguments?]
  dsimp only
  cases hr : c.skip.rest with
  | nil => exact .pure fun a ha => nomatch ha
  | cons q cs =>
    by_cases hparen : q = '('
    · subst hparen
      have hck : c.Advances (c.skip.advance ['(']) := c.reaches_skip.trans_advances (Cursor.advances_advance hr)
      have hlt := hck.length_lt
      have hlist := list_ends ')' hp (n := n) (t := t) (hc.trans hck.reaches) (by omega) (by omega) (by omega)
      exact (hlist.of_reaches hck.reaches fun _ => hck.reaches.trans_advances).map fun _ ha _ => one ha
    · simp only
      by_cases hquote : isQuote q
      · rw [if_pos hquote, if_pos hquote]
        have hstring := (ends_string c.skip).of_reaches c.reaches_skip fun _ => c.reaches_skip.trans_advances
        exact hstring.map fun _ ha _ => one ha
      · rw [if_neg hquote, if_neg hquote]
        exact .pure fun a ha => nomatch ha

end

end SymbolBridge.Script.Depth
