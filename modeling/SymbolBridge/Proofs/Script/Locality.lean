import SymbolBridge.Proofs.Script.Complete

/-!
# Reading a part of a source alone

`c.Cut r s c'` says that `c'` is the cursor `c` in the source without the text `r` at its end and without `s` bytes in
front. A phrase that ends before `r` is read in the same way there, with its spans moved back by `s` (`Reads.cut`).

The reason is that no reading looks past its end but in two places, and there a cut only takes away what could be seen:
a name that is not called is not called in the part, and a chain that ends does so in the part. Tokens are found by the
cut because they are `Greedy`; and the blanks in front of a token end inside the part (`Blanks`).
-/

namespace SymbolBridge.Script

open SymbolBridge.Script.Parser (constant?)

/-- The span in a source with `n` bytes less in front. -/
def Span.back (n : Nat) (s : Span) : Span := ⟨s.start - n, s.stop - n⟩

namespace Cursor

/-- The same place in a source without `r` at its end and without `s` bytes in front. -/
structure Cut (r : List Char) (s : Nat) (c c' : Cursor) : Prop where
  rest : c.rest = c'.rest ++ r
  offset : c.offset = c'.offset + s

variable {r l : List Char} {s : Nat} {c c' d d' : Cursor}

theorem Cut.back_spanTo (hc : Cut r s c c') (hd : Cut r s d d') : (c.spanTo d).back s = c'.spanTo d' := by
  rw [spanTo, spanTo, Span.back, hc.offset, hd.offset, Nat.add_sub_cancel, Nat.add_sub_cancel]

/-- A text that ends before the cut. -/
theorem Cut.spells (hc : Cut r s c c') (h : c.Spells l d) (hr : r <:+ d.rest) :
    ∃ d', Cut r s d d' ∧ c'.Spells l d' := by
  obtain ⟨t, ht⟩ := hr
  have hrest : c'.rest = l ++ t := by
    have := h.rest
    rw [hc.rest, ← ht, ← List.append_assoc] at this
    exact List.append_cancel_right this
  refine ⟨⟨t, c'.offset + Text.byteLength l⟩, ⟨ht.symm, ?_⟩, ⟨hrest, rfl⟩⟩
  rw [h.offset, hc.offset]
  show c'.offset + s + _ = c'.offset + _ + s
  omega

/-- A text in the part is there in the whole source. -/
theorem Cut.advance (hc : Cut r s c c') (h : c'.Spells l d') : Cut r s (c.advance l) d' := by
  refine ⟨?_, ?_⟩
  · rw [rest_advance, hc.rest, h.rest, List.append_assoc, List.drop_left]
  · rw [offset_advance, hc.offset, h.offset]
    omega

/-- A token in front of the cut is found without what is behind it. -/
theorem Cut.greedy {f : List Char → List Char} (hf : Greedy f) (hc : Cut r s c c') (h : c.Spells (f c.rest) d)
    (hr : r <:+ d.rest) : f c'.rest = f c.rest := by
  obtain ⟨d', -, hs⟩ := hc.spells h hr
  have hlen := hs.length
  rw [hc.rest] at hlen ⊢
  exact hf.cut c'.rest r (by omega)

theorem Cut.past? (hc : Cut r s c c') (h : c.past? l = some d) (hr : r <:+ d.rest) :
    ∃ d', Cut r s d d' ∧ c'.past? l = some d' := by
  obtain ⟨d', hd, hs⟩ := hc.spells (past?_eq_some_iff.1 h) hr
  exact ⟨d', hd, past?_eq_some_iff.2 hs⟩

theorem Cut.identifier? {name : String} (hc : Cut r s c c') (h : c.identifier? = some (name, d)) (hr : r <:+ d.rest) :
    ∃ d', Cut r s d d' ∧ c'.identifier? = some (name, d') := by
  obtain ⟨hn, hp, hs⟩ := identifier?_eq_some_iff.1 h
  obtain ⟨d', hd, hs'⟩ := hc.spells hs hr
  exact ⟨d', hd, identifier?_eq_some_iff.2 ⟨hn, (hc.greedy greedy_identifierPrefix (hp ▸ hs) hr).trans hp, hs'⟩⟩

theorem Cut.number? {x : Number} (hc : Cut r s c c') (h : c.number? = some (x, d)) (hr : r <:+ d.rest) :
    ∃ d', Cut r s d d' ∧ c'.number? = some (x, d') := by
  obtain ⟨hn, hx, hs⟩ := number?_eq_some_iff.1 h
  obtain ⟨d', hd, hs'⟩ := hc.spells hs hr
  have hp := hc.greedy greedy_numeralPrefix hs hr
  exact ⟨d', hd, number?_eq_some_iff.2 ⟨hp ▸ hn, hp ▸ hx, hp ▸ hs'⟩⟩

theorem Cut.quotes {text : String} (hc : Cut r s c c') (h : c.Quotes text d) (hr : r <:+ d.rest) :
    ∃ d', Cut r s d d' ∧ c'.Quotes text d' := by
  obtain ⟨quote, l, hq, hl, hs⟩ := h
  obtain ⟨d', hd, hs'⟩ := hc.spells hs hr
  exact ⟨d', hd, quote, l, hq, hl, hs'⟩

/-! ## Blanks in front of a cut -/

/-- A text that is not blank at its start, whatever comes after it. -/
def Solid (l : List Char) : Prop := l ≠ [] ∧ ∀ t, blankPrefix (l ++ t) = []

theorem solid_cons {x : Char} (hs : isSeparator x = false) (hx : x ≠ '-') (l : List Char) : Solid (x :: l) :=
  ⟨List.cons_ne_nil x l, fun _ => blankPrefix_cons hs hx⟩

theorem exists_of_isPrefix {x : Char} {cs : List Char} (h : l <+: x :: cs) (hl : l ≠ []) : ∃ l', l = x :: l' := by
  obtain ⟨y, l', rfl⟩ := List.exists_cons_of_ne_nil hl
  exact ⟨l', by rw [((List.cons_prefix_cons).1 h).1]⟩

theorem solid_numeralPrefix {cs : List Char} (h : numeralPrefix cs ≠ []) : Solid (numeralPrefix cs) := by
  cases cs with
  | nil => exact absurd rfl h
  | cons x cs =>
    have digit : ∀ {y : Char} {cs : List Char}, magnitudePrefix (y :: cs) ≠ [] →
        y.isDigit ∧ ∃ l, magnitudePrefix (y :: cs) = y :: l := by
      intro y cs hm
      refine ⟨?_, exists_of_isPrefix (greedy_magnitudePrefix.isPrefix _) hm⟩
      cases hd : y.isDigit with
      | true => rfl
      | false => exact absurd (magnitudePrefix_eq_nil hd) hm
    by_cases hx : x = '-'
    · subst hx
      have hm : magnitudePrefix cs ≠ [] := fun hm => h (by simp only [numeralPrefix, hm])
      cases cs with
      | nil => exact absurd rfl hm
      | cons y cs =>
        obtain ⟨hy, l, hl⟩ := digit hm
        have hne : y ≠ '-' := fun he => absurd hy (by rw [he]; decide)
        rw [numeralPrefix_hyphen hm, hl]
        exact ⟨List.cons_ne_nil _ _, fun _ => blankPrefix_hyphen hne⟩
    · rw [numeralPrefix_of_ne hx] at h ⊢
      obtain ⟨hd, l, hl⟩ := digit h
      rw [hl]
      exact solid_cons (isSeparator_of_isDigit hd) hx l

theorem solid_quote {q : Char} (hq : isQuote q) (l : List Char) : Solid (q :: l) := by
  rcases isQuote_iff.1 hq with rfl | rfl
  · exact solid_cons (by decide) (by decide) l
  · exact solid_cons (by decide) (by decide) l

/-- The blanks in front of a token in front of the cut. -/
theorem Cut.skip (hc : Cut r s c c') (hl : Solid l) (h : c.skip.Spells l d) (hr : r <:+ d.rest) :
    Cut r s c.skip c'.skip := by
  obtain ⟨k', hk, hs⟩ := hc.spells (spells_skip c) (hr.trans h.reaches.isSuffix)
  obtain ⟨x, l, rfl⟩ := List.exists_cons_of_ne_nil hl.1
  obtain ⟨d', -, hs'⟩ := hk.spells h hr
  have hb : Blanks (blankPrefix c.rest) := blanks_of_append (c.spells_skip.rest.trans (by rw [h.rest]; rfl))
  have hp : blankPrefix c'.rest = blankPrefix c.rest := by
    rw [hs.rest, hb.blankPrefix_append, hs'.rest, hl.2, List.append_nil]
  have hk' : c'.skip = k' := hs.eq_advance ▸ congrArg c'.advance hp
  rwa [hk']

/-- A fixed token after blanks. -/
theorem Cut.skip_past? {x : Char} (hc : Cut r s c c') (h : c.skip.past? (x :: l) = some d) (hr : r <:+ d.rest)
    (hs : isSeparator x = false := by decide) (hx : x ≠ '-' := by decide) :
    ∃ d', Cut r s d d' ∧ c'.skip.past? (x :: l) = some d' :=
  (hc.skip (solid_cons hs hx l) (past?_eq_some_iff.1 h) hr).past? h hr

/-- The blanks of the part are those of the whole source, if they end in the part. -/
theorem Cut.skip_of_ne_nil (hc : Cut r s c c') (hne : c'.skip.rest ≠ []) (hb : blankPrefix (c'.skip.rest ++ r) = []) :
    Cut r s c.skip c'.skip := by
  have hs := c'.spells_skip
  have hp : blankPrefix c.rest = blankPrefix c'.rest := by
    have hcr : c.rest = blankPrefix c'.rest ++ (c'.skip.rest ++ r) := by
      rw [hc.rest, ← List.append_assoc, ← hs.rest]
    rw [hcr, (blanks_of_skip hne).blankPrefix_append, hb, List.append_nil]
  have hk : c.skip = c.advance (blankPrefix c'.rest) := congrArg c.advance hp
  rw [hk]
  exact hc.advance hs

/-- What is seen after the blanks in front of the cut is there in the whole source. -/
theorem Cut.skip_of_cons (hc : Cut r s c c') {x : Char} (h : c'.skip.rest = x :: l) (hx : x ≠ '-') :
    Cut r s c.skip c'.skip := by
  have hrest : c'.rest = blankPrefix c'.rest ++ x :: l := c'.spells_skip.rest.trans (by rw [h])
  refine hc.skip_of_ne_nil (by rw [h]; exact List.cons_ne_nil x l) ?_
  rw [h]
  exact blankPrefix_cons (isSeparator_of_blankPrefixFrom hrest) hx

/-- Where no token follows in the whole source, none follows in the part. -/
theorem Cut.past?_eq_none {x : Char} {token : List Char} (hc : Cut r s c c') (hx : x ≠ '-')
    (h : c.skip.past? (x :: token) = none) : c'.skip.past? (x :: token) = none := by
  refine Option.eq_none_iff_forall_ne_some.2 fun d' hd' => ?_
  have hs := past?_eq_some_iff.1 hd'
  have hp : (x :: token) <+: c.skip.rest := by
    rw [(hc.skip_of_cons hs.rest hx).rest, hs.rest, List.append_assoc]
    exact List.prefix_append _ _
  rw [past?_eq_some_iff.2 (spells_advance hp)] at h
  cases h

theorem Cut.noArguments (hc : Cut r s c c') (h : c.NoArguments) : c'.NoArguments := by
  intro x hx
  obtain ⟨l, hl⟩ : ∃ l, c'.skip.rest = x :: l := by
    cases hr : c'.skip.rest with
    | nil =>
      rw [hr] at hx
      cases hx
    | cons y l =>
      rw [hr] at hx
      exact ⟨l, by rw [Option.some.inj hx]⟩
  by_cases hne : x = '-'
  · subst hne
    decide
  · refine h x ?_
    rw [(hc.skip_of_cons hl hne).rest, hl]
    rfl

end Cursor

/-! ## Phrases in front of a cut -/

open Cursor

section

variable {r : List Char} {s : Nat} {c d c' : Cursor}

theorem Cursor.solid_identifier? {name : String} (h : c.identifier? = some (name, d)) :
    Solid name.toList ∧ c.Spells name.toList d := by
  obtain ⟨x, cs, hr, hx⟩ := exists_of_identifier? h
  obtain ⟨-, hp, hs⟩ := identifier?_eq_some_iff.1 h
  refine ⟨?_, hs⟩
  rw [← hp, hr, identifierPrefix_cons hx]
  exact solid_cons (isSeparator_of_isNameStart hx) (ne_of_isNameStart hx (by decide)) _

/-- A primary starts with a token after its blanks. -/
theorem Reads.solid {e : Expr} (h : Reads (.primary e) c d) :
    ∃ l k, Solid l ∧ c.skip.Spells l k ∧ k.Reaches d := by
  cases h with
  | number hx =>
    obtain ⟨hn, -, hs⟩ := number?_eq_some_iff.1 hx
    exact ⟨_, _, solid_numeralPrefix hn, hs, .refl _⟩
  | string hs =>
    obtain ⟨q, l, hq, -, hs⟩ := hs
    exact ⟨_, _, solid_quote hq l, hs, .refl _⟩
  | table hk hl => exact ⟨_, _, solid_cons (by decide) (by decide) _, past?_eq_some_iff.1 hk, hl.reaches⟩
  | @parens _ k m _ _ hk he hd =>
    exact ⟨_, _, solid_cons (by decide) (by decide) _, past?_eq_some_iff.1 hk,
      (he.reaches.trans m.reaches_skip).trans (past?_eq_some_iff.1 hd).reaches⟩
  | constant hn _ => exact ⟨_, _, (solid_identifier? hn).1, (solid_identifier? hn).2, .refl _⟩
  | call hn _ ha => exact ⟨_, _, (solid_identifier? hn).1, (solid_identifier? hn).2, ha.reaches⟩
  | var hn _ _ => exact ⟨_, _, (solid_identifier? hn).1, (solid_identifier? hn).2, .refl _⟩

/-- So does a statement. -/
theorem ReadsStatement.solid {st : Statement} (h : ReadsStatement st c d) :
    ∃ l k, Solid l ∧ c.Spells l k ∧ k.Reaches d := by
  cases h with
  | assign hn hm he =>
    exact ⟨_, _, (solid_identifier? hn).1, (solid_identifier? hn).2, (reaches_of_past? hm).trans he.reaches⟩
  | call hn ha => exact ⟨_, _, (solid_identifier? hn).1, (solid_identifier? hn).2, ha.reaches⟩

theorem Cursor.Cut.skip_primary {e : Expr} (hc : Cut r s c c') (h : Reads (.primary e) c d) (hr : r <:+ d.rest) :
    Cut r s c.skip c'.skip := by
  obtain ⟨l, k, hl, hs, hk⟩ := h.solid
  exact hc.skip hl hs (hr.trans hk.isSuffix)

theorem Cursor.Cut.skip_statement {st : Statement} (hc : Cut r s c c') (h : ReadsStatement st c.skip d)
    (hr : r <:+ d.rest) : Cut r s c.skip c'.skip := by
  obtain ⟨l, k, hl, hs, hk⟩ := h.solid
  exact hc.skip hl hs (hr.trans hk.isSuffix)

def Phrase.mapSpans (f : Span → Span) : Phrase → Phrase
  | .primary e => .primary (e.mapSpans f)
  | .chain e => .chain (e.mapSpans f)
  | .operands es => .operands (es.map (Expr.mapSpans f))
  | .items close es => .items close (es.map (Expr.mapSpans f))
  | .list close es => .list close (es.map (Expr.mapSpans f))
  | .arguments es => .arguments (es.map (Expr.mapSpans f))

theorem mapSpans_of_constant? {name : String} {e : Expr} (h : constant? name = some e) (f : Span → Span) :
    e.mapSpans f = e := by
  unfold constant? at h
  split at h <;> cases h <;> rfl

/-- The lists of a phrase end in a closing bracket. -/
def Phrase.Bracketed : Phrase → Prop
  | .items close _ => close = ')' ∨ close = '}'
  | .list close _ => close = ')' ∨ close = '}'
  | _ => True

theorem Cursor.Cut.skip_bracket {close : Char} (hc : Cut r s c c') (h : c.skip.past? [close] = some d)
    (hr : r <:+ d.rest) (hb : close = ')' ∨ close = '}') : ∃ d', Cut r s d d' ∧ c'.skip.past? [close] = some d' := by
  rcases hb with rfl | rfl
  · exact hc.skip_past? h hr
  · exact hc.skip_past? h hr

/-- A phrase in front of the cut is read in the part too, with its spans moved back. -/
theorem Reads.cut {p : Phrase} (h : Reads p c d) : p.Bracketed → ∀ {c' : Cursor}, Cut r s c c' → r <:+ d.rest →
    ∃ d', Cut r s d d' ∧ Reads (p.mapSpans (Span.back s)) c' d' := by
  induction h with
  | number hx =>
    intro _ c' hc hr
    obtain ⟨d', hd, hx'⟩ := (hc.skip_primary (.number hx) hr).number? hx hr
    exact ⟨d', hd, .number hx'⟩
  | string hs =>
    intro _ c' hc hr
    obtain ⟨d', hd, hs'⟩ := (hc.skip_primary (.string hs) hr).quotes hs hr
    exact ⟨d', hd, .string hs'⟩
  | @table c k d es hk hl ih =>
    intro _ c' hc hr
    obtain ⟨k', hk', hp⟩ := hc.skip_past? hk (hr.trans hl.reaches.isSuffix)
    obtain ⟨d', hd, hl'⟩ := ih (.inr rfl) hk' hr
    refine ⟨d', hd, ?_⟩
    rw [Phrase.mapSpans, Expr.mapSpans, Expr.mapSpansAll_eq_map]
    exact .table hp hl'
  | @parens c k m d e hk he hd ih =>
    intro _ c' hc hr
    have hrm : r <:+ m.rest := hr.trans (reaches_of_past? hd).isSuffix
    obtain ⟨k', hk', hp⟩ := hc.skip_past? hk (hrm.trans he.reaches.isSuffix)
    obtain ⟨m', hm, he'⟩ := ih trivial hk' hrm
    obtain ⟨d', hd', hp'⟩ := hm.skip_past? hd hr
    exact ⟨d', hd', .parens hp he' hp'⟩
  | constant hn hv =>
    intro _ c' hc hr
    obtain ⟨d', hd, hn'⟩ := (hc.skip_primary (.constant hn hv) hr).identifier? hn hr
    rw [Phrase.mapSpans, mapSpans_of_constant? hv]
    exact ⟨d', hd, .constant hn' hv⟩
  | @call c k d name args hn hv ha ih =>
    intro _ c' hc hr
    have hskip := hc.skip_primary (.call hn hv ha) hr
    obtain ⟨k', hk, hn'⟩ := hskip.identifier? hn (hr.trans ha.reaches.isSuffix)
    obtain ⟨d', hd, ha'⟩ := ih trivial hk hr
    refine ⟨d', hd, ?_⟩
    rw [Phrase.mapSpans, Expr.mapSpans, Expr.mapSpansAll_eq_map, hskip.back_spanTo hd]
    exact .call hn' hv ha'
  | var hn hv ha =>
    intro _ c' hc hr
    have hskip := hc.skip_primary (.var hn hv ha) hr
    obtain ⟨d', hd, hn'⟩ := hskip.identifier? hn hr
    refine ⟨d', hd, ?_⟩
    rw [Phrase.mapSpans, Expr.mapSpans, hskip.back_spanTo hd]
    exact .var hn' hv (hd.noArguments ha)
  | @chain c m d first rest hf hops ih₁ ih₂ =>
    intro _ c' hc hr
    have hrm : r <:+ m.rest := hr.trans hops.reaches.isSuffix
    have hskip : Cut r s c.skip c'.skip := by
      obtain ⟨l, k, hl, hs, hk⟩ := hf.solid
      rw [c.skip_skip] at hs
      exact hc.skip hl hs (hrm.trans hk.isSuffix)
    obtain ⟨m', hm, hf'⟩ := ih₁ trivial hskip hrm
    obtain ⟨d', hd, hops'⟩ := ih₂ trivial hm hr
    refine ⟨d', hd, ?_⟩
    rw [Phrase.mapSpans, Expr.mapSpans_chain, hskip.back_spanTo hd]
    exact .chain hf' hops'
  | done hk => exact fun _ _ hc _ => ⟨_, hc, .done (hc.past?_eq_none (by decide) hk)⟩
  | @operand c k m d e es hk he hes ih₁ ih₂ =>
    intro _ c' hc hr
    have hrm : r <:+ m.rest := hr.trans hes.reaches.isSuffix
    obtain ⟨k', hk', hp⟩ := hc.skip_past? hk (hrm.trans he.reaches.isSuffix)
    obtain ⟨m', hm, he'⟩ := ih₁ trivial hk' hrm
    obtain ⟨d', hd, hes'⟩ := ih₂ trivial hm hr
    exact ⟨d', hd, .operand hp he' hes'⟩
  | @last c m d close e he hd ih =>
    intro hb c' hc hr
    have hrm : r <:+ m.rest := hr.trans (reaches_of_past? hd).isSuffix
    obtain ⟨m', hm, he'⟩ := ih trivial hc hrm
    obtain ⟨d', hd', hp⟩ := hm.skip_bracket hd hr hb
    exact ⟨d', hd', .last he' hp⟩
  | @more c m k d close e es he hk hes ih₁ ih₂ =>
    intro hb c' hc hr
    have hrk : r <:+ k.rest := hr.trans hes.reaches.isSuffix
    have hrm : r <:+ m.rest := hrk.trans (reaches_of_past? hk).isSuffix
    obtain ⟨m', hm, he'⟩ := ih₁ trivial hc hrm
    obtain ⟨k', hk', hp⟩ := hm.skip_past? hk hrk
    obtain ⟨d', hd, hes'⟩ := ih₂ hb hk' hr
    exact ⟨d', hd, .more he' hp hes'⟩
  | empty hd =>
    intro hb c' hc hr
    obtain ⟨d', hd', hp⟩ := hc.skip_bracket hd hr hb
    exact ⟨d', hd', .empty hp⟩
  | items _ ih => exact fun hb _ hc hr => (ih hb hc hr).imp fun _ h => ⟨h.1, .items h.2⟩
  | @inParens c k d es hk hl ih =>
    intro _ c' hc hr
    obtain ⟨k', hk', hp⟩ := hc.skip_past? hk (hr.trans hl.reaches.isSuffix)
    obtain ⟨d', hd, hl'⟩ := ih (.inl rfl) hk' hr
    exact ⟨d', hd, .inParens hp hl'⟩
  | @oneString c d text hs =>
    intro _ c' hc hr
    have hskip : Cut r s c.skip c'.skip := by
      obtain ⟨q, l, hq, -, hl⟩ := hs
      exact hc.skip (solid_quote hq l) hl hr
    obtain ⟨d', hd, hs'⟩ := hskip.quotes hs hr
    exact ⟨d', hd, .oneString hs'⟩

theorem ReadsStatement.cut {st : Statement} (h : ReadsStatement st c d) (hc : Cut r s c c') (hr : r <:+ d.rest) :
    ∃ d', Cut r s d d' ∧ ReadsStatement (st.mapSpans (Span.back s)) c' d' := by
  cases h with
  | @assign _ k m _ name e hn hm he =>
    have hrm : r <:+ m.rest := hr.trans he.reaches.isSuffix
    have hrk : r <:+ k.rest := hrm.trans (reaches_of_past? hm).isSuffix
    obtain ⟨k', hk, hn'⟩ := hc.identifier? hn hrk
    obtain ⟨m', hm', hp⟩ := hk.skip_past? hm hrm
    obtain ⟨d', hd, he'⟩ := he.cut trivial hm' hr
    refine ⟨d', hd, ?_⟩
    rw [Statement.mapSpans, hc.back_spanTo hd]
    exact .assign hn' hp he'
  | @call _ k _ name args hn ha =>
    obtain ⟨k', hk, hn'⟩ := hc.identifier? hn (hr.trans ha.reaches.isSuffix)
    obtain ⟨d', hd, ha'⟩ := ha.cut trivial hk hr
    refine ⟨d', hd, ?_⟩
    rw [Statement.mapSpans, hc.back_spanTo hd]
    exact .call hn' ha'

end

section

variable {c d : Cursor} {st : Statement}

theorem ReadsStatement.exists_isNameStart (h : ReadsStatement st c d) : ∃ x cs, c.rest = x :: cs ∧ isNameStart x := by
  cases h with
  | assign hn _ _ => exact exists_of_identifier? hn
  | call hn _ => exact exists_of_identifier? hn

theorem ReadsStatement.rest_ne_nil (h : ReadsStatement st c d) : c.rest ≠ [] := by
  obtain ⟨x, cs, hr, -⟩ := h.exists_isNameStart
  rw [hr]
  exact List.cons_ne_nil x cs

/-- The text of a statement is a source of this one statement. -/
theorem ReadsStatement.parse_alone (h : ReadsStatement st c d) {l : List Char} (hl : c.Spells l d) :
    parse (String.ofList l) = .ok [st.mapSpans (Span.back c.offset)] := by
  have hc : Cut d.rest c.offset c (ofSource (String.ofList l)) :=
    ⟨by rw [hl.rest, ofSource, String.toList_ofList], (Nat.zero_add _).symm⟩
  obtain ⟨d', hd, h'⟩ := h.cut hc List.suffix_rfl
  have hempty : d'.rest = [] := List.append_left_eq_self.1 hd.rest.symm
  have hskip : (ofSource (String.ofList l)).skip = ofSource (String.ofList l) := by
    obtain ⟨x, cs, hr, hx⟩ := h'.exists_isNameStart
    refine skip_of_blankPrefix ?_
    rw [hr]
    exact blankPrefix_cons (isSeparator_of_isNameStart hx) (ne_of_isNameStart hx (by decide))
  rw [← hskip] at h'
  refine parse_eq_ok_iff.2 (.cons h' (.nil ?_))
  rw [Cursor.skip, hempty]
  exact hempty

end

end SymbolBridge.Script
