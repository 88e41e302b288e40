import SymbolBridge.Proofs.Script.Extension
import SymbolBridge.Proofs.Script.Regrouping
import SymbolBridge.Proofs.Script.Render

/-!
# Chains of primaries

A `Primary` is the text of a primary with what it is read as, and a `Link` is a further one after two dots with spaces
around them. Links one after the other are read as operands from left to right (`reads_links`), by induction on the
links: where the next link starts no arguments follow, and so each operand ends where its text does. A chain is read as
the tree over its primaries that nests to the right (`Chain.expr_eq_ok`), and grouping them in another way makes no
difference to what the script does (`regrouped_concatenations`).
-/

namespace SymbolBridge.Script

open Cursor
open Text (byteLength)

/-- The text of a primary, from its first character to its last. -/
structure Primary where
  text : List Char
  expr : Expr
  unpadded : blankPrefix text = []
  parsed : Parser.primary text.length ⟨text, 0⟩ = .ok (expr, ⟨[], byteLength text⟩)

/-- The expression of a primary whose text starts at an offset. -/
def Primary.exprAt (p : Primary) (offset : Nat) : Expr := p.expr.mapSpans (Span.shift offset)

/-- A further operand of a chain, after two dots. -/
structure Link where
  /-- How many spaces there are in front of the dots, besides the first one. -/
  before : Nat
  /-- How many spaces there are after the dots. -/
  after : Nat
  operand : Primary

namespace Link

/-- What stands in front of the operand. -/
def dots (l : Link) : List Char := List.replicate (l.before + 1) ' ' ++ '.' :: '.' :: List.replicate l.after ' '

def text (l : Link) : List Char := l.dots ++ l.operand.text

/-- The operands of links whose text starts at an offset. -/
def exprsAt : Nat → List Link → List Expr
  | _, [] => []
  | offset, l :: links =>
    l.operand.exprAt (offset + byteLength l.dots) :: exprsAt (offset + byteLength l.text) links

end Link

/-! ## Reading them -/

section

variable {c d : Cursor} {r : List Char} {s : Nat}

theorem Primary.reads_alone (p : Primary) : Reads (.primary p.expr) ⟨p.text, 0⟩ ⟨[], byteLength p.text⟩ :=
  reads_of_primary (Nat.le_refl p.text.length) p.parsed

theorem Primary.reads (p : Primary) (hr : ∀ x ∈ r.head?, isSeparator x)
    (hd : (Cursor.mk r (s + byteLength p.text)).NoArguments) :
    Reads (.primary (p.exprAt s)) ⟨p.text ++ r, s⟩ ⟨r, s + byteLength p.text⟩ := by
  have hc : (Cursor.mk p.text 0).within r s = ⟨p.text ++ r, s⟩ := by rw [Cursor.within, Nat.zero_add]
  have hd' : (Cursor.mk [] (byteLength p.text)).within r s = ⟨r, s + byteLength p.text⟩ := by
    rw [Cursor.within, Nat.add_comm, List.nil_append]
  have h := p.reads_alone.within (s := s) hr trivial (hd' ▸ hd)
  rwa [hc, hd'] at h

theorem Primary.skip_eq (p : Primary) (r : List Char) (s : Nat) :
    (Cursor.mk (p.text ++ r) s).skip = ⟨p.text ++ r, s⟩ := by
  have hunpadded : (Cursor.mk p.text 0).skip = ⟨p.text, 0⟩ := skip_of_blankPrefix p.unpadded
  have h := skip_primary_within (r := r) (s := s) p.reads_alone
  rwa [hunpadded, Cursor.within, Nat.zero_add] at h

theorem Reads.noArguments {es : List Expr} (h : Reads (.operands es) c d) (hd : d.NoArguments) : c.NoArguments := by
  cases h with
  | done _ => exact hd
  | operand hk _ _ => exact noArguments_of_operand hk

theorem blanks_spaces : ∀ n : Nat, Blanks (List.replicate n ' ')
  | 0 => .nil
  | n + 1 => .separator rfl (blanks_spaces n)

theorem head?_links (hr : ∀ x ∈ r.head?, isSeparator x) : ∀ links : List Link,
    ∀ x ∈ (links.flatMap Link.text ++ r).head?, isSeparator x
  | [] => hr
  | l :: links => by
    intro x hx
    obtain rfl := Option.some.inj hx
    rfl

/-- The dots of a link are past after the spaces in front of them, and the spaces after them are blanks. -/
theorem Link.past_dots (l : Link) (t : List Char) (s : Nat) :
    ∃ k, (Cursor.mk (l.dots ++ t) s).skip.past? ['.', '.'] = some k ∧
      k.skip = (Cursor.mk t (s + byteLength l.dots)).skip := by
  let front : Cursor :=
    ⟨'.' :: '.' :: (List.replicate l.after ' ' ++ t), s + byteLength (List.replicate (l.before + 1) ' ')⟩
  have hfront : (Cursor.mk (l.dots ++ t) s).Spells (List.replicate (l.before + 1) ' ') front :=
    ⟨by simp [dots, front], rfl⟩
  have hskip : (Cursor.mk (l.dots ++ t) s).skip = front :=
    (skip_of_blanks (blanks_spaces _) hfront).trans (skip_of_cons rfl (by decide) (by decide))
  refine ⟨⟨List.replicate l.after ' ' ++ t, front.offset + byteLength ['.', '.']⟩, ?_,
    skip_of_blanks (blanks_spaces l.after) ⟨rfl, ?_⟩⟩
  · rw [hskip]
    exact past?_eq_some_iff.2 ⟨rfl, rfl⟩
  · simp [dots, front]
    omega

/-- Links are read as their operands from left to right. -/
theorem reads_links (hr : ∀ x ∈ r.head?, isSeparator x) : ∀ {links : List Link} {s : Nat},
    (Cursor.mk r (s + byteLength (links.flatMap Link.text))).Ended →
      Reads (.operands (Link.exprsAt s links)) ⟨links.flatMap Link.text ++ r, s⟩
        ⟨r, s + byteLength (links.flatMap Link.text)⟩
  | [], s, hd => .done hd.noOperand
  | l :: links, s, hd => by
    have hrest : (l :: links).flatMap Link.text ++ r =
        l.dots ++ (l.operand.text ++ (links.flatMap Link.text ++ r)) := by
      rw [List.flatMap_cons, Link.text, List.append_assoc, List.append_assoc]
    have hmiddle : s + byteLength l.dots + byteLength l.operand.text = s + byteLength l.text := by
      rw [Link.text, Text.byteLength_append, Nat.add_assoc]
    have hend : s + byteLength ((l :: links).flatMap Link.text) =
        s + byteLength l.text + byteLength (links.flatMap Link.text) := by
      rw [List.flatMap_cons, Text.byteLength_append, Nat.add_assoc]
    rw [hend] at hd ⊢
    rw [hrest]
    have hlinks := reads_links hr hd
    have hoperand := l.operand.reads (head?_links hr links) (hmiddle ▸ hlinks.noArguments hd.noArguments)
    rw [hmiddle, ← l.operand.skip_eq] at hoperand
    obtain ⟨k, hk, hskip⟩ := l.past_dots (l.operand.text ++ (links.flatMap Link.text ++ r)) s
    rw [← hskip] at hoperand
    exact .operand hk hoperand.primary_of_skip hlinks

end

/-! ## Chains -/

/-- A primary and further ones. -/
structure Chain where
  first : Primary
  links : List Link

/-- A tree over expressions in their order that nests to the right; every concatenation has the same span. -/
inductive RightNested (span : Span) : List Expr → Expr → Prop where
  | last (e : Expr) : RightNested span [e] e
  | concat {es : List Expr} {tree : Expr} (e : Expr) : RightNested span es tree →
      RightNested span (e :: es) (.concat e tree span)

theorem rightNested_chain (span : Span) : ∀ (first : Expr) (rest : List Expr),
    RightNested span (first :: rest) (.chain span first rest)
  | first, [] => .last first
  | first, second :: rest => .concat first (rightNested_chain span second rest)

namespace Chain

def text (ch : Chain) : List Char := ch.first.text ++ ch.links.flatMap Link.text

/-- The primaries of a chain whose text starts at an offset. -/
def exprsAt (ch : Chain) (offset : Nat) : List Expr :=
  ch.first.exprAt offset :: Link.exprsAt (offset + byteLength ch.first.text) ch.links

/-- The bytes of a chain whose text starts at an offset. -/
def spanAt (ch : Chain) (offset : Nat) : Span := ⟨offset, offset + byteLength ch.text⟩

variable {r : List Char} {s : Nat}

theorem reads (ch : Chain) (hr : ∀ x ∈ r.head?, isSeparator x) (hd : (Cursor.mk r (s + byteLength ch.text)).Ended) :
    ∃ e, RightNested (ch.spanAt s) (ch.exprsAt s) e ∧
      Reads (.chain e) (Cursor.mk (ch.text ++ r) s).skip ⟨r, s + byteLength ch.text⟩ := by
  have hrest : ch.text ++ r = ch.first.text ++ (ch.links.flatMap Link.text ++ r) := List.append_assoc ..
  have hend : s + byteLength ch.text = s + byteLength ch.first.text + byteLength (ch.links.flatMap Link.text) := by
    rw [text, Text.byteLength_append, Nat.add_assoc]
  have hskip : (Cursor.mk (ch.text ++ r) s).skip = ⟨ch.text ++ r, s⟩ := by rw [hrest, ch.first.skip_eq]
  have hlinks : Reads _ _ ⟨r, s + byteLength ch.text⟩ := hend ▸ reads_links hr (hend ▸ hd)
  have hfirst := ch.first.reads (head?_links hr ch.links) (hlinks.noArguments hd.noArguments)
  refine ⟨_, rightNested_chain (ch.spanAt s) (ch.first.exprAt s) _, ?_⟩
  have h := Reads.chain (c := ⟨ch.text ++ r, s⟩) (by rw [hskip, hrest]; exact hfirst) hlinks
  rw [hskip] at h ⊢
  exact h

/-- A chain is read as the right-nested tree over its primaries, wherever nothing continues it. -/
theorem expr_eq_ok (ch : Chain) (hr : ∀ x ∈ r.head?, isSeparator x)
    (hd : (Cursor.mk r (s + byteLength ch.text)).Ended) {n : Nat} (hn : (ch.text ++ r).length ≤ n) :
    ∃ e, RightNested (ch.spanAt s) (ch.exprsAt s) e ∧
      Parser.expr n ⟨ch.text ++ r, s⟩ = .ok (e, ⟨r, s + byteLength ch.text⟩) := by
  obtain ⟨e, he, h⟩ := ch.reads hr hd
  exact ⟨e, he, h.chain_of_skip.parsed n hn⟩

theorem parse_assignment (ch : Chain) {name : String} (hname : IsIdentifier name) :
    ∃ e, RightNested (ch.spanAt (byteLength name.toList + 3)) (ch.exprsAt (byteLength name.toList + 3)) e ∧
      parse (name ++ " = " ++ String.ofList ch.text) =
        .ok [.assign name e ⟨0, byteLength name.toList + 3 + byteLength ch.text⟩] := by
  let k : Cursor := ⟨' ' :: '=' :: ' ' :: ch.text, byteLength name.toList⟩
  let m : Cursor := ⟨' ' :: ch.text, byteLength name.toList + 2⟩
  have hstop : (Cursor.mk [] (byteLength name.toList + 3 + byteLength ch.text)).skip.rest = [] := rfl
  obtain ⟨e, he, h⟩ := ch.reads (r := []) (by simp) (ended_of_nil hstop)
  have hspells : (ofSource (name ++ " = " ++ String.ofList ch.text)).Spells name.toList k := by
    refine ⟨?_, (Nat.zero_add _).symm⟩
    simp [ofSource, k]
  have hskip : (ofSource (name ++ " = " ++ String.ofList ch.text)).skip = ofSource _ :=
    skip_of_blankPrefix (by rw [hspells.rest]; exact blankPrefix_identifier hname _)
  have hequals : k.skip.past? ['='] = some m := by
    rw [skip_of_separator (x := ' ') rfl rfl, skip_of_cons rfl (by decide) (by decide)]
    exact past?_eq_some_iff.2 ⟨rfl, rfl⟩
  have hchain : Reads (.chain e) m ⟨[], byteLength name.toList + 3 + byteLength ch.text⟩ := by
    refine Reads.chain_of_skip ?_
    rw [skip_of_separator (c := m) (x := ' ') rfl rfl]
    rw [List.append_nil] at h
    exact h
  have hapart : Apart k.rest := by
    intro y hy
    obtain rfl := Option.some.inj hy
    decide
  refine ⟨e, he, parse_eq_ok_iff.2 (.cons ?_ (.nil hstop))⟩
  rw [hskip]
  exact .assign (identifier?_of_isIdentifier hname hspells hapart) hequals hchain

end Chain

/-! ## Regrouping -/

section

variable {σ : Type}

/-- **Concatenations.** Grouping does not matter: of two concatenations of the same operands both succeed, with the same
value and in the same world after them, or both fail. They succeed exactly if the operands do, evaluated once each from
left to right, with strings and numbers only; then the value is their texts in order. A chain of primaries, wherever
nothing continues it, is read as the tree over them that nests to the right. -/
theorem regrouped_concatenations (b : Bridge σ) (host : Host σ) (vs : Variables) :
    (∀ (e e' : Expr) (w : World σ), e.IsConcat → e'.IsConcat → e.operands = e'.operands →
      (∀ v w', eval b host vs e w = (.ok v, w') ↔ eval b host vs e' w = (.ok v, w')) ∧
      ((∃ err w', eval b host vs e w = (.error err, w')) ↔ ∃ err w', eval b host vs e' w = (.error err, w')) ∧
      (∀ v w', eval b host vs e w = (.ok v, w') ↔ ∃ values, evalAll b host vs e.operands w = (.ok values, w') ∧
        (∀ x ∈ values, x.HasText) ∧ v = .str (String.join (values.map Value.toText))) ∧
      ∀ v w', eval b host vs e w = (.ok v, w') → w'.calls = w.calls ++ e.operands.flatMap Expr.calls) ∧
    (∀ (ch : Chain) (r : List Char) (s n : Nat), (∀ x ∈ r.head?, isSeparator x) →
      (Cursor.mk r (s + byteLength ch.text)).Ended → (ch.text ++ r).length ≤ n →
      ∃ e, RightNested (ch.spanAt s) (ch.exprsAt s) e ∧
        Parser.expr n ⟨ch.text ++ r, s⟩ = .ok (e, ⟨r, s + byteLength ch.text⟩)) ∧
    ∀ (ch : Chain) (name : String), IsIdentifier name →
      ∃ e, RightNested (ch.spanAt (byteLength name.toList + 3)) (ch.exprsAt (byteLength name.toList + 3)) e ∧
        parse (name ++ " = " ++ String.ofList ch.text) =
          .ok [.assign name e ⟨0, byteLength name.toList + 3 + byteLength ch.text⟩] := by
  refine ⟨fun e e' w he he' hops => ?_, fun ch r s n hr hd hn => ch.expr_eq_ok hr hd hn,
    fun ch name hname => ch.parse_assignment hname⟩
  have hsame : ∀ v w', eval b host vs e w = (.ok v, w') ↔ eval b host vs e' w = (.ok v, w') := by
    intro v w'
    rw [eval_eq_ok_iff_of_isConcat he, eval_eq_ok_iff_of_isConcat he', hops]
  refine ⟨hsame, ?_, fun v w' => eval_eq_ok_iff_of_isConcat he, fun v w' h => ?_⟩
  · simp only [Op.exists_error_iff, ne_eq, hsame]
  · rw [← Expr.calls_eq_flatMap_operands]
    exact ((performs_eval vs e w).1 v w' h).calls_eq

end

end SymbolBridge.Script
