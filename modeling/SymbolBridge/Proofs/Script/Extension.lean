import SymbolBridge.Proofs.Script.Crossing

/-!
# Reading with more text after a part

`c.within r s` is the cursor `c` in a source with the text `r` after it and with `s` more bytes in front. A phrase of
the part is read there in the same way, with its spans moved by `s` (`Reads.within`), under two conditions. The text `r`
starts with a separator, and so it continues no token; and what comes after the phrase, now that `r` is there, does not
continue it either (`Phrase.Ends`). A statement does not, nor does the end of the source (`ReadsAll.ended`). So the
statements of the part are the first ones of the whole source, and the others are those that are read from where the part
ends (`ReadsAll.within`).
-/

namespace SymbolBridge.Script

/-! ## Tokens -/

/-- A prefix without separators goes on into no text that starts with one. -/
theorem Greedy.append_separated {f : List Char → List Char} (hf : Greedy f)
    (hs : ∀ cs, ∀ x ∈ f cs, isSeparator x = false) {r : List Char} (hr : ∀ x ∈ r.head?, isSeparator x)
    (t : List Char) : f (t ++ r) = f t := by
  obtain ⟨u, hu⟩ := hf.isPrefix (t ++ r)
  refine (hf.cut t r ?_).symm
  obtain ⟨m, ht, -⟩ | ⟨m, hm, hrm⟩ := List.append_eq_append_iff.1 hu
  · have hlen := congrArg List.length ht
    rw [List.length_append] at hlen
    omega
  · cases m with
    | nil => rw [hm, List.append_nil]
    | cons x m =>
      have hx := hs (t ++ r) x (by rw [hm]; exact List.mem_append_right t List.mem_cons_self)
      rw [hr x (by rw [hrm]; rfl)] at hx
      cases hx

namespace Cursor

/-- The same place in a source with `r` after it and with `s` more bytes in front. -/
def within (c : Cursor) (r : List Char) (s : Nat) : Cursor := ⟨c.rest ++ r, c.offset + s⟩

section

variable {r l : List Char} {s : Nat} {c d : Cursor}

@[simp] theorem rest_within : (c.within r s).rest = c.rest ++ r := rfl

@[simp] theorem offset_within : (c.within r s).offset = c.offset + s := rfl

theorem spanTo_within : (c.within r s).spanTo (d.within r s) = (c.spanTo d).shift s := rfl

theorem cut_within (c : Cursor) (r : List Char) (s : Nat) : Cut r s (c.within r s) c := ⟨rfl, rfl⟩

theorem Cut.eq_within (h : Cut r s d c) : d = c.within r s := by
  obtain ⟨rest, offset⟩ := d
  exact congrArg₂ Cursor.mk h.rest h.offset

theorem Spells.within (h : c.Spells l d) : (c.within r s).Spells l (d.within r s) := by
  refine ⟨?_, ?_⟩
  · rw [rest_within, h.rest, List.append_assoc, rest_within]
  · rw [offset_within, offset_within, h.offset]
    omega

theorem past?_within (h : c.past? l = some d) : (c.within r s).past? l = some (d.within r s) :=
  past?_eq_some_iff.2 (past?_eq_some_iff.1 h).within

theorem Quotes.within {text : String} (h : c.Quotes text d) : (c.within r s).Quotes text (d.within r s) := by
  obtain ⟨quote, l, hq, hl, hs⟩ := h
  exact ⟨quote, l, hq, hl, hs.within⟩

/-- Blanks that end in the part. -/
theorem skip_within (hne : c.skip.rest ≠ []) (hb : blankPrefix (c.skip.rest ++ r) = []) :
    (c.within r s).skip = c.skip.within r s := ((c.cut_within r s).skip_of_ne_nil hne hb).eq_within

theorem skip_within_solid (hl : Solid l) (h : c.skip.Spells l d) : (c.within r s).skip = c.skip.within r s := by
  refine skip_within ?_ ?_
  · rw [h.rest]
    exact List.append_ne_nil_of_left_ne_nil hl.1 _
  · rw [h.rest, List.append_assoc]
    exact hl.2 _

/-- A fixed token after blanks. -/
theorem skip_past?_within {x : Char} (h : c.skip.past? (x :: l) = some d) (hs : isSeparator x = false := by decide)
    (hx : x ≠ '-' := by decide) : (c.within r s).skip.past? (x :: l) = some (d.within r s) := by
  rw [skip_within_solid (solid_cons hs hx l) (past?_eq_some_iff.1 h)]
  exact past?_within h

theorem skip_bracket_within {close : Char} (h : c.skip.past? [close] = some d) (hc : close = ')' ∨ close = '}') :
    (c.within r s).skip.past? [close] = some (d.within r s) := by
  rcases hc with rfl | rfl
  · exact skip_past?_within h
  · exact skip_past?_within h

theorem skip_quotes_within {text : String} (h : c.skip.Quotes text d) :
    (c.within r s).skip.Quotes text (d.within r s) := by
  obtain ⟨q, l, hq, -, hs⟩ := id h
  rw [skip_within_solid (solid_quote hq l) hs]
  exact h.within

theorem skip_primary_within {e : Expr} (h : Reads (.primary e) c d) : (c.within r s).skip = c.skip.within r s := by
  obtain ⟨l, k, hl, hs, -⟩ := h.solid
  exact skip_within_solid hl hs

variable (hr : ∀ x ∈ r.head?, isSeparator x)
include hr

theorem identifier?_within {name : String} (h : c.identifier? = some (name, d)) :
    (c.within r s).identifier? = some (name, d.within r s) := by
  obtain ⟨hn, hp, hs⟩ := identifier?_eq_some_iff.1 h
  have hsep : ∀ cs, ∀ x ∈ identifierPrefix cs, isSeparator x = false :=
    fun _ x hx => (inert_of_identifierPrefix x hx).isSeparator
  refine identifier?_eq_some_iff.2 ⟨hn, ?_, hs.within⟩
  rw [rest_within, greedy_identifierPrefix.append_separated hsep hr, hp]

theorem number?_within {x : Number} (h : c.number? = some (x, d)) :
    (c.within r s).number? = some (x, d.within r s) := by
  obtain ⟨hn, hx, hs⟩ := number?_eq_some_iff.1 h
  have hp : numeralPrefix (c.within r s).rest = numeralPrefix c.rest :=
    greedy_numeralPrefix.append_separated (fun cs => (after_numeralPrefix cs).1) hr c.rest
  exact number?_eq_some_iff.2 ⟨hp ▸ hn, hp ▸ hx, hp ▸ hs.within⟩

end

/-! ## Where expressions end -/

/-- Nothing at the cursor continues an expression in front. -/
structure Ended (c : Cursor) : Prop where
  noArguments : c.NoArguments
  noOperand : c.skip.past? ['.', '.'] = none

section

variable {c d : Cursor}

theorem noArguments_of_cons {x : Char} {l : List Char} (h : c.skip.rest = x :: l)
    (hx : x ≠ '(' ∧ isQuote x = false) : c.NoArguments := by
  intro y hy
  rw [h] at hy
  obtain rfl := Option.some.inj hy
  exact hx

theorem ended_of_nil (h : c.skip.rest = []) : c.Ended := by
  have hhead : ∀ y, y ∉ c.skip.rest.head? := by simp [h]
  exact ⟨fun y hy => absurd hy (hhead y), past?_eq_none fun y hy => absurd hy (hhead y)⟩

theorem ended_of_cons {x : Char} {l : List Char} (h : c.skip.rest = x :: l)
    (hx : x ≠ '(' ∧ isQuote x = false := by decide) (hdot : x ≠ '.' := by decide) : c.Ended := by
  refine ⟨noArguments_of_cons h hx, past?_eq_none fun y hy => ?_⟩
  rw [h] at hy
  obtain rfl := Option.some.inj hy
  exact hdot

theorem ended_of_isNameStart {x : Char} {l : List Char} (h : c.skip.rest = x :: l) (hx : isNameStart x) : c.Ended :=
  ended_of_cons h ⟨ne_of_isNameStart hx (by decide), isQuote_of_isNameStart hx⟩ (ne_of_isNameStart hx (by decide))

theorem ended_of_bracket {close : Char} (h : c.skip.past? [close] = some d) (hc : close = ')' ∨ close = '}') :
    c.Ended := by
  rcases hc with rfl | rfl
  · exact ended_of_cons (rest_of_past? h)
  · exact ended_of_cons (rest_of_past? h)

/-- An operand continues a chain, but it is no argument. -/
theorem noArguments_of_operand (h : c.skip.past? ['.', '.'] = some d) : c.NoArguments :=
  noArguments_of_cons (past?_eq_some_iff.1 h).rest (by decide)

end

end Cursor

open Cursor

/-! ## Phrases -/

/-- What comes after a phrase does not continue it. -/
def Phrase.Ends (d : Cursor) : Phrase → Prop
  | .primary _ => d.NoArguments
  | .chain _ => d.Ended
  | .operands _ => d.Ended
  | _ => True

section

variable {r : List Char} {s : Nat} {c d : Cursor}

theorem Reads.noArguments_within {es : List Expr} (h : Reads (.operands es) c d) (hd : (d.within r s).NoArguments) :
    (c.within r s).NoArguments := by
  cases h with
  | done _ => exact hd
  | operand hk _ _ => exact noArguments_of_operand (skip_past?_within hk)

/-- A phrase of the part is read in the whole source too, with its spans moved. -/
theorem Reads.within {p : Phrase} (h : Reads p c d) (hr : ∀ x ∈ r.head?, isSeparator x) : p.Bracketed →
    p.Ends (d.within r s) → Reads (p.mapSpans (Span.shift s)) (c.within r s) (d.within r s) := by
  induction h with
  | number hx =>
    intro _ _
    refine .number ?_
    rw [skip_primary_within (.number hx)]
    exact number?_within hr hx
  | string hs => exact fun _ _ => .string (skip_quotes_within hs)
  | table hk _ ih =>
    intro _ _
    rw [Phrase.mapSpans, Expr.mapSpans, Expr.mapSpansAll_eq_map]
    exact .table (skip_past?_within hk) (ih (.inr rfl) trivial)
  | parens hk _ hd ih =>
    intro _ _
    have hd := skip_past?_within (r := r) (s := s) hd
    exact .parens (skip_past?_within hk) (ih trivial (ended_of_cons (rest_of_past? hd))) hd
  | constant hn hv =>
    intro _ _
    rw [Phrase.mapSpans, mapSpans_of_constant? hv]
    refine .constant ?_ hv
    rw [skip_primary_within (.constant hn hv)]
    exact identifier?_within hr hn
  | @call c k d name args hn hv ha ih =>
    intro _ _
    have hskip : (c.within r s).skip = c.skip.within r s := skip_primary_within (.call hn hv ha)
    rw [Phrase.mapSpans, Expr.mapSpans, Expr.mapSpansAll_eq_map, ← spanTo_within, ← hskip]
    refine .call ?_ hv (ih trivial trivial)
    rw [hskip]
    exact identifier?_within hr hn
  | @var c d name hn hv ha =>
    intro _ hd
    have hskip : (c.within r s).skip = c.skip.within r s := skip_primary_within (.var hn hv ha)
    rw [Phrase.mapSpans, Expr.mapSpans, ← spanTo_within, ← hskip]
    refine .var ?_ hv hd
    rw [hskip]
    exact identifier?_within hr hn
  | @chain c m d first rest hf hops ih₁ ih₂ =>
    intro _ hd
    have hskip : (c.within r s).skip = c.skip.within r s := by
      obtain ⟨l, k, hl, hs, -⟩ := hf.solid
      rw [c.skip_skip] at hs
      exact skip_within_solid hl hs
    rw [Phrase.mapSpans, Expr.mapSpans_chain, ← spanTo_within, ← hskip]
    refine .chain ?_ (ih₂ trivial hd)
    rw [hskip]
    exact ih₁ trivial (hops.noArguments_within hd.noArguments)
  | done _ => exact fun _ hd => .done hd.noOperand
  | operand hk _ hes ih₁ ih₂ =>
    intro _ hd
    exact .operand (skip_past?_within hk) (ih₁ trivial (hes.noArguments_within hd.noArguments)) (ih₂ trivial hd)
  | last _ hd ih =>
    intro hb _
    have hd := skip_bracket_within (r := r) (s := s) hd hb
    exact .last (ih trivial (ended_of_bracket hd hb)) hd
  | more _ hk _ ih₁ ih₂ =>
    intro hb _
    have hk := skip_past?_within (r := r) (s := s) hk
    exact .more (ih₁ trivial (ended_of_cons (rest_of_past? hk))) hk (ih₂ hb trivial)
  | empty hd => exact fun hb _ => .empty (skip_bracket_within hd hb)
  | items _ ih => exact fun hb _ => .items (ih hb trivial)
  | inParens hk _ ih => exact fun _ _ => .inParens (skip_past?_within hk) (ih (.inl rfl) trivial)
  | oneString hs => exact fun _ _ => .oneString (skip_quotes_within hs)

theorem ReadsStatement.within {st : Statement} (h : ReadsStatement st c d) (hr : ∀ x ∈ r.head?, isSeparator x)
    (hd : (d.within r s).Ended) : ReadsStatement (st.mapSpans (Span.shift s)) (c.within r s) (d.within r s) := by
  cases h with
  | assign hn hm he =>
    rw [Statement.mapSpans, ← spanTo_within]
    exact .assign (identifier?_within hr hn) (skip_past?_within hm) (he.within hr trivial hd)
  | call hn ha =>
    rw [Statement.mapSpans, ← spanTo_within]
    exact .call (identifier?_within hr hn) (ha.within hr trivial trivial)

/-! ## Statements -/

/-- A text is read as one statement only. -/
theorem ReadsStatement.unique {st st' : Statement} {d' : Cursor} (h : ReadsStatement st c d)
    (h' : ReadsStatement st' c d') : st = st' ∧ d = d' := by
  have heq := (h.parsed (Nat.le_refl _)).symm.trans (h'.parsed (Nat.le_refl _))
  exact Prod.mk.inj (Except.ok.inj heq)

/-- Statements, or the end of the source, continue no expression. -/
theorem ReadsAll.ended {ss : List Statement} (h : ReadsAll ss c) : c.Ended := by
  cases h with
  | nil he => exact ended_of_nil he
  | cons hs _ =>
    obtain ⟨x, cs, hrest, hx⟩ := hs.exists_isNameStart
    exact ended_of_isNameStart hrest hx

theorem Cursor.skip_within_statement {st : Statement} (h : ReadsStatement st c.skip d) :
    (c.within r s).skip = c.skip.within r s := by
  obtain ⟨l, k, hl, hs, -⟩ := h.solid
  exact skip_within_solid hl hs

/-- The statements of the part are the first ones of the whole source, whatever is read from where the part ends. -/
theorem ReadsAll.within {ss : List Statement} (h : ReadsAll ss c) (hr : ∀ x ∈ r.head?, isSeparator x) :
    ∃ d, c.Crosses d ∧ d.skip.rest = [] ∧ ((d.within r s).Ended → (c.within r s).Ended ∧
      ∀ tt, ReadsAll tt (c.within r s) ↔
        ∃ tt', tt = ss.map (Statement.mapSpans (Span.shift s)) ++ tt' ∧ ReadsAll tt' (d.within r s)) := by
  induction h with
  | @nil c he =>
    refine ⟨c, .refl c, he, fun hend => ⟨hend, fun tt => ⟨fun h => ⟨tt, rfl, h⟩, ?_⟩⟩⟩
    rintro ⟨tt', rfl, h⟩
    exact h
  | @cons c m st ss hst hss ih =>
    obtain ⟨d, hm, hd, ih⟩ := ih
    obtain ⟨x, cs, hrest, hx⟩ := hst.exists_isNameStart
    have hskip : (c.within r s).skip = c.skip.within r s := skip_within_statement hst
    refine ⟨d, ((crosses_skip hst.rest_ne_nil).trans hst.crosses).trans hm, hd, fun hend => ?_⟩
    obtain ⟨hmend, hall⟩ := ih hend
    have hst' := hst.within hr hmend
    rw [← hskip] at hst'
    have hrest' : (c.within r s).skip.rest = x :: (cs ++ r) := by
      rw [hskip, rest_within, hrest]
      rfl
    refine ⟨ended_of_isNameStart hrest' hx, fun tt => ⟨fun htt => ?_, ?_⟩⟩
    · cases htt with
      | nil he =>
        rw [hrest'] at he
        cases he
      | cons hs htt =>
        obtain ⟨rfl, rfl⟩ := hst'.unique hs
        obtain ⟨tt', rfl, htt'⟩ := (hall _).1 htt
        exact ⟨tt', rfl, htt'⟩
    · rintro ⟨tt', rfl, htt'⟩
      exact .cons hst' ((hall _).2 ⟨tt', rfl, htt'⟩)

/-- Only what comes after the blanks matters. -/
theorem ReadsAll.of_skip {ss : List Statement} (h : ReadsAll ss d) (he : c.skip = d.skip) : ReadsAll ss c := by
  cases h with
  | nil h => exact .nil (by rw [he, h])
  | cons hs hss => exact .cons (by rwa [he]) hss

theorem Cursor.Ended.of_skip (h : d.Ended) (he : c.skip = d.skip) : c.Ended :=
  ⟨fun x hx => h.noArguments x (by rwa [← he]), by rw [he, h.noOperand]⟩

theorem Cursor.skip_of_blanks {b : List Char} (hb : Blanks b) (h : c.Spells b d) : c.skip = d.skip := by
  have hp : blankPrefix c.rest = b ++ blankPrefix d.rest := by rw [h.rest, hb.blankPrefix_append]
  have hs := h.trans d.spells_skip
  rw [hs.eq_advance, ← hp]
  rfl

end

end SymbolBridge.Script
