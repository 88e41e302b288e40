import SymbolBridge.Proofs.Script.Zone

/-!
# Places between tokens

Everything that a parser moves over leads from code to code (`Reads.crosses`, `ReadsStatement.crosses`), so the zone of
a place between two statements is the zone that the blanks there lead to. A separator after blanks ends them, if it is a
line feed or if they do not end in a comment (`blanks_append_separator`); and in front of a separator in them that no
comment holds, blanks end as well (`Blanks.of_append`).
-/

namespace SymbolBridge.Script

/-! ## What parsers move over -/

namespace Cursor

/-- The text between two cursors leads from code to code. -/
def Crosses (c d : Cursor) : Prop := ∃ l, c.Spells l d ∧ Zone.code.after l = .code

section

variable {c d e : Cursor}

theorem Crosses.refl (c : Cursor) : c.Crosses c := ⟨[], spells_nil c, rfl⟩

theorem Crosses.trans (h : c.Crosses d) (h' : d.Crosses e) : c.Crosses e := by
  obtain ⟨l, hl, hz⟩ := h
  obtain ⟨m, hm, hz'⟩ := h'
  exact ⟨l ++ m, hl.trans hm, by rw [Zone.after_append, hz, hz']⟩

/-- Blanks with something after them. -/
theorem crosses_skip (h : c.skip.rest ≠ []) : c.Crosses c.skip :=
  ⟨_, c.spells_skip, Zone.after_blanks (blanks_of_skip h)⟩

theorem crosses_past? {x : Char} {token : List Char} (h : c.skip.past? (x :: token) = some d)
    (ht : Zone.code.after (x :: token) = .code := by decide) : c.Crosses d := by
  have hs := past?_eq_some_iff.1 h
  exact (crosses_skip (by rw [hs.rest]; exact List.cons_ne_nil _ _)).trans ⟨_, hs, ht⟩

theorem crosses_bracket {close : Char} (h : c.skip.past? [close] = some d) (hc : close = ')' ∨ close = '}') :
    c.Crosses d := by
  rcases hc with rfl | rfl
  · exact crosses_past? h
  · exact crosses_past? h

theorem crosses_identifier? {name : String} (h : c.identifier? = some (name, d)) : c.Crosses d := by
  obtain ⟨-, hp, hs⟩ := identifier?_eq_some_iff.1 h
  rw [← hp] at hs
  exact ⟨_, hs, Zone.after_inert inert_of_identifierPrefix⟩

theorem crosses_skip_identifier? {name : String} (h : c.skip.identifier? = some (name, d)) : c.Crosses d := by
  obtain ⟨x, cs, hr, -⟩ := exists_of_identifier? h
  exact (crosses_skip (by rw [hr]; exact List.cons_ne_nil _ _)).trans (crosses_identifier? h)

theorem crosses_number? {x : Number} (h : c.skip.number? = some (x, d)) : c.Crosses d := by
  obtain ⟨hn, -, hs⟩ := number?_eq_some_iff.1 h
  refine (crosses_skip fun he => hn ?_).trans ⟨_, hs, (after_numeralPrefix _).2⟩
  rw [he]
  rfl

theorem crosses_quotes {text : String} (h : c.skip.Quotes text d) : c.Crosses d := by
  obtain ⟨quote, l, hq, hl, hs⟩ := h
  refine (crosses_skip (by rw [hs.rest]; exact List.cons_ne_nil _ _)).trans ⟨_, hs, ?_⟩
  have hne : quote ≠ '-' := by
    rintro rfl
    exact absurd hq (by decide)
  rw [Zone.after_cons, Zone.next, if_neg hne, if_pos hq, Zone.after_quoted hl]

end

end Cursor

open Cursor

section

variable {c d : Cursor}

/-- No phrase ends inside a comment or a string literal. -/
theorem Reads.crosses {p : Phrase} (h : Reads p c d) : p.Bracketed → c.Crosses d := by
  induction h with
  | number hx => exact fun _ => crosses_number? hx
  | string hs => exact fun _ => crosses_quotes hs
  | table hk _ ih => exact fun _ => (crosses_past? hk).trans (ih (.inr rfl))
  | parens hk _ hd ih => exact fun _ => ((crosses_past? hk).trans (ih trivial)).trans (crosses_past? hd)
  | constant hn _ => exact fun _ => crosses_skip_identifier? hn
  | call hn _ _ ih => exact fun _ => (crosses_skip_identifier? hn).trans (ih trivial)
  | var hn _ _ => exact fun _ => crosses_skip_identifier? hn
  | @chain c m d first rest hf hops ih₁ ih₂ =>
    have hpos := hf.length_pos
    rw [c.skip_skip, List.length_pos_iff] at hpos
    exact fun _ => ((crosses_skip hpos).trans (ih₁ trivial)).trans (ih₂ trivial)
  | done _ => exact fun _ => .refl _
  | operand hk _ _ ih₁ ih₂ => exact fun _ => ((crosses_past? hk).trans (ih₁ trivial)).trans (ih₂ trivial)
  | last _ hd ih => exact fun hb => (ih trivial).trans (crosses_bracket hd hb)
  | more _ hk _ ih₁ ih₂ => exact fun hb => ((ih₁ trivial).trans (crosses_past? hk)).trans (ih₂ hb)
  | empty hd => exact fun hb => crosses_bracket hd hb
  | items _ ih => exact ih
  | inParens hk _ ih => exact fun _ => (crosses_past? hk).trans (ih (.inl rfl))
  | oneString hs => exact fun _ => crosses_quotes hs

theorem ReadsStatement.crosses {st : Statement} (h : ReadsStatement st c d) : c.Crosses d := by
  cases h with
  | assign hn hm he => exact ((crosses_identifier? hn).trans (crosses_past? hm)).trans (he.crosses trivial)
  | call hn ha => exact (crosses_identifier? hn).trans (ha.crosses trivial)

end

/-! ## Separators after blanks -/

section

variable {x : Char} {l : List Char}

/-- A comment goes on as one, if a line feed follows or if it has ended before. -/
theorem startsComment_append {cs : List Char} (h : startsComment cs)
    (hx : x = '\n' ∨ (Zone.code.after cs).isOutside) : startsComment (cs ++ x :: l) := by
  unfold startsComment at h
  split at h
  · rename_i rest
    cases hd : rest.dropWhile (!isLineEnd ·) with
    | nil =>
      -- the comment has not ended, and so the character after it is the line feed
      have hline : ∀ y ∈ rest, isLineEnd y = false := by simpa using hd
      rw [Zone.after_open hline] at hx
      obtain rfl := hx.resolve_right Bool.false_ne_true
      exact (startsComment_iff rfl hline).2 fun he => absurd he (by decide)
    | cons e t =>
      have hda : (rest ++ x :: l).dropWhile (!isLineEnd ·) = e :: (t ++ x :: l) := by
        rw [List.dropWhile_append, hd]
        rfl
      rw [hd] at h
      simp only [List.cons_append, startsComment, hda]
      split at h
      · rename_i heq
        obtain ⟨rfl, rfl⟩ := List.cons.inj heq
        rfl
      · cases h
      · rename_i hne hne'
        split
        · rfl
        · rename_i heq
          exact absurd (congrArg (· :: t) (List.cons.inj heq).1) (hne' t)
        · rfl
  · cases h

theorem blankPrefixFrom_append_separator {comment : Bool} {cs : List Char} (h : blankPrefixFrom comment cs = cs)
    (hs : isSeparator x) (hx : x = '\n' ∨ ((if comment then Zone.comment else .code).after cs).isOutside) :
    blankPrefixFrom comment (cs ++ x :: l) = cs ++ x :: blankPrefix l := by
  -- the zone goes along with the flag of the recursion, which says whether the place lies in a comment
  fun_induction blankPrefixFrom comment cs with
  | case1 comment =>
    cases comment with
    | false => simp [blankPrefixFrom, hs, blankPrefix]
    | true =>
      obtain rfl := hx.resolve_right Bool.false_ne_true
      rfl
  | case2 c cs ih =>
    have hx : x = '\n' ∨ ((if !isLineEnd c then Zone.comment else .code).after cs).isOutside := by
      cases he : isLineEnd c <;> simpa [Zone.next, he] using hx
    have ih := ih (List.cons.inj h).2 hx
    simp [blankPrefixFrom, ih]
  | case3 comment c cs hcomment hc ih =>
    obtain rfl := Bool.eq_false_iff.2 hcomment
    have hx : x = '\n' ∨ (Zone.code.after cs).isOutside := by
      simpa [Zone.next_of_isSeparator hc] using hx
    have ih := ih (List.cons.inj h).2 hx
    simp [blankPrefixFrom, hc, ih]
  | case4 comment c cs hcomment hc hstart ih =>
    obtain rfl := Bool.eq_false_iff.2 hcomment
    have hstart' := startsComment_append (l := l) hstart hx
    obtain ⟨cs', rfl, rfl⟩ := exists_of_startsComment hstart
    have ih := ih (List.cons.inj h).2 hx
    simp only [List.cons_append] at ih hstart' ⊢
    rw [blankPrefixFrom, if_neg Bool.false_ne_true, if_neg hc, if_pos hstart', ih]
  | case5 => cases h

/-- Blanks to the end of a text end with a separator after them. -/
theorem blanks_append_separator {b : List Char} (h : blankPrefix b = b) (hs : isSeparator x)
    (hx : x = '\n' ∨ (Zone.code.after b).isOutside) : Blanks (b ++ [x]) := by
  -- a letter after the separator shows that the blanks end there
  have ha : blankPrefix (b ++ [x, 'a']) = b ++ [x] := blankPrefixFrom_append_separator h hs hx
  rw [← ha]
  exact blanks_of_append (by rw [ha, List.append_assoc]; rfl)

/-- Blanks end in front of a separator in them that no comment holds. A line feed may belong to the end of a comment. -/
theorem Blanks.of_append {t b : List Char} (h : Blanks (t ++ x :: b)) (hs : isSeparator x) (hx : x ≠ '\n')
    (hz : (Zone.code.after t).isOutside) : Blanks t := by
  have hhyphen : x ≠ '-' := by
    rintro rfl
    exact absurd hs (by decide)
  generalize hm : t ++ x :: b = m at h
  induction h generalizing t with
  | nil => exact absurd hm (by simp)
  | separator hy _ ih =>
    cases t with
    | nil => exact .nil
    | cons y t =>
      obtain ⟨rfl, rfl⟩ := List.cons.inj hm
      rw [Zone.after_cons, Zone.next_of_isSeparator hy] at hz
      exact .separator hy (ih hz rfl)
  | @comment e line b' he hline hr _ ih =>
    match t, hm with
    | [], hm => exact absurd (List.cons.inj hm).1 hhyphen
    | [_], hm => exact absurd (List.cons.inj (List.cons.inj hm).2).1 hhyphen
    | y :: y' :: t, hm =>
      obtain ⟨hy, hm⟩ := List.cons.inj hm
      obtain ⟨hy', hm⟩ := List.cons.inj hm
      rw [hy, hy'] at hz ⊢
      obtain ⟨u, hline', -⟩ | ⟨u, rfl, hu⟩ := List.append_eq_append_iff.1 hm
      · rw [Zone.after_open fun y hy => hline y (by rw [hline']; exact List.mem_append_left u hy)] at hz
        cases hz
      · cases u with
        | nil =>
          rw [List.append_nil, Zone.after_open hline] at hz
          cases hz
        | cons e' u =>
          obtain ⟨rfl, rfl⟩ := List.cons.inj hu
          rw [Zone.after_line he hline] at hz
          refine .comment he hline (fun hcr => ?_) (ih hz rfl)
          obtain ⟨v, hv⟩ := hr hcr
          cases u with
          | nil => exact absurd (List.cons.inj hv).1 hx
          | cons z u => exact ⟨u, by rw [(List.cons.inj hv).1]⟩

end

end SymbolBridge.Script
