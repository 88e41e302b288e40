import SymbolBridge.Script.Token

/-!
# Blanks

The blanks that a text starts with end where something else comes, or with the text. In the first case they are
`Blanks`: separators and comments with their line ends, which are the same whatever comes after them
(`Blanks.blankPrefix_append`). Only a comment that runs to the end of its text is none.
-/

namespace SymbolBridge.Script

/-! ## The blanks in front of a text -/

theorem blankPrefixFrom_isPrefix (comment : Bool) (cs : List Char) : blankPrefixFrom comment cs <+: cs := by
  fun_induction blankPrefixFrom comment cs with
  | case1 => exact List.nil_prefix
  | case2 c cs ih => exact (List.prefix_cons_inj c).2 ih
  | case3 comment c cs _ _ ih => exact (List.prefix_cons_inj c).2 ih
  | case4 comment c cs _ _ _ ih => exact (List.prefix_cons_inj c).2 ih
  | case5 => exact List.nil_prefix

theorem blankPrefix_isPrefix (cs : List Char) : blankPrefix cs <+: cs := blankPrefixFrom_isPrefix false cs

/-- After the blanks there are no more blanks. -/
theorem blankPrefix_drop (comment : Bool) (cs : List Char) :
    blankPrefix (cs.drop (blankPrefixFrom comment cs).length) = [] := by
  fun_induction blankPrefixFrom comment cs with
  | case1 => rfl
  | case2 c cs ih => exact ih
  | case3 comment c cs _ _ ih => exact ih
  | case4 comment c cs _ _ _ ih => exact ih
  | case5 comment c cs hc hs hn => simp [blankPrefix, blankPrefixFrom, hs, hn]

theorem blankPrefix_cons {x : Char} {cs : List Char} (hs : isSeparator x = false) (hx : x ≠ '-') :
    blankPrefix (x :: cs) = [] := by
  have hc : startsComment (x :: cs) = false := by
    unfold startsComment
    split
    · rename_i he
      exact absurd (List.cons.inj he).1 hx
    · rfl
  simp [blankPrefix, blankPrefixFrom, hs, hc]

theorem blankPrefix_hyphen {x : Char} {cs : List Char} (hx : x ≠ '-') : blankPrefix ('-' :: x :: cs) = [] := by
  have hc : startsComment ('-' :: x :: cs) = false := by
    unfold startsComment
    split
    · rename_i he
      exact absurd (List.cons.inj (List.cons.inj he).2).1 hx
    · rfl
  simp [blankPrefix, blankPrefixFrom, hc, isSeparator]

/-! ## Comments -/

theorem exists_of_startsComment {c : Char} {cs : List Char} (h : startsComment (c :: cs)) :
    ∃ cs', c = '-' ∧ cs = '-' :: cs' := by
  unfold startsComment at h
  split at h
  · rename_i heq
    obtain ⟨rfl, rfl⟩ := List.cons.inj heq
    exact ⟨_, rfl, rfl⟩
  · cases h

section

variable {e : Char} {line rest : List Char}

/-- A comment runs to the end of its line. -/
theorem blankPrefixFrom_line (he : isLineEnd e) : ∀ {line : List Char}, (∀ y ∈ line, isLineEnd y = false) →
    blankPrefixFrom true (line ++ e :: rest) = line ++ e :: blankPrefixFrom false rest
  | [], _ => by simp [blankPrefixFrom, he]
  | y :: line, h => by
    have hy := h y List.mem_cons_self
    have ih := blankPrefixFrom_line he fun z hz => h z (List.mem_cons_of_mem y hz)
    simp [blankPrefixFrom, hy, ih]

/-- Two hyphens start a comment unless their line ends in a carriage return without a line feed. -/
theorem startsComment_iff (he : isLineEnd e) (h : ∀ y ∈ line, isLineEnd y = false) :
    startsComment ('-' :: '-' :: (line ++ e :: rest)) ↔ (e = '\r' → ∃ t, rest = '\n' :: t) := by
  have hd : (line ++ e :: rest).dropWhile (!isLineEnd ·) = e :: rest := by
    rw [List.dropWhile_append_of_pos fun y hy => by rw [h y hy]; rfl, List.dropWhile_cons_of_neg]
    simp [he]
  simp only [startsComment, hd]
  split
  · rename_i t heq
    obtain ⟨rfl, rfl⟩ := List.cons.inj heq
    simp
  · rename_i t hne heq
    obtain ⟨rfl, rfl⟩ := List.cons.inj heq
    simp only [Bool.false_eq_true, forall_const, false_iff]
    rintro ⟨t', rfl⟩
    exact hne t' rfl
  · rename_i hne hne'
    simp only [true_iff]
    rintro rfl
    exact absurd rfl (hne' rest)

theorem blankPrefix_comment (he : isLineEnd e) (h : ∀ y ∈ line, isLineEnd y = false)
    (hr : e = '\r' → ∃ t, rest = '\n' :: t) :
    blankPrefix ('-' :: '-' :: (line ++ e :: rest)) = '-' :: '-' :: (line ++ e :: blankPrefix rest) := by
  have hs := (startsComment_iff he h).2 hr
  have hsep : isSeparator '-' = false := by decide
  have hend : isLineEnd '-' = false := by decide
  simp only [blankPrefix, blankPrefixFrom, hsep, hs, hend, Bool.false_eq_true, if_false, if_true, Bool.not_false,
    blankPrefixFrom_line he h]

end

/-! ## Blanks that end -/

/-- Separators, and comments with the ends of their lines. -/
inductive Blanks : List Char → Prop where
  | nil : Blanks []
  | separator {x : Char} {b : List Char} : isSeparator x → Blanks b → Blanks (x :: b)
  | comment {e : Char} {line b : List Char} : isLineEnd e → (∀ y ∈ line, isLineEnd y = false) →
      (e = '\r' → ∃ t, b = '\n' :: t) → Blanks b → Blanks ('-' :: '-' :: (line ++ e :: b))

/-- Blanks that end are the same whatever comes after them. -/
theorem Blanks.blankPrefix_append {b : List Char} (h : Blanks b) (l : List Char) :
    blankPrefix (b ++ l) = b ++ blankPrefix l := by
  induction h with
  | nil => rfl
  | separator hs _ ih =>
    rw [blankPrefix] at ih ⊢
    simp [blankPrefixFrom, hs, ih]
  | @comment e line b he hline hr _ ih =>
    have hr' : e = '\r' → ∃ t, b ++ l = '\n' :: t := fun h => by
      obtain ⟨t, ht⟩ := hr h
      exact ⟨t ++ l, by rw [ht]; rfl⟩
    have hc := blankPrefix_comment he hline hr'
    rw [ih] at hc
    simpa using hc

theorem Blanks.blankPrefix_eq {b : List Char} (h : Blanks b) : blankPrefix b = b := by
  have h := h.blankPrefix_append []
  rwa [List.append_nil, show blankPrefix [] = [] from rfl, List.append_nil] at h

/-- Where blanks end before the text does, no blank follows. -/
theorem isSeparator_of_blankPrefixFrom {comment : Bool} {cs l : List Char} {x : Char}
    (h : cs = blankPrefixFrom comment cs ++ x :: l) : isSeparator x = false := by
  have hd := blankPrefix_drop comment cs
  rw [← congrArg (List.drop (blankPrefixFrom comment cs).length) h.symm, List.drop_left] at hd
  cases hs : isSeparator x with
  | false => rfl
  | true => simp [blankPrefix, blankPrefixFrom, hs] at hd

/-- What the blanks are that end, seen from the inside of a comment or from outside. -/
def BlanksFrom (comment : Bool) (b : List Char) : Prop :=
  if comment then ∃ e line b', b = line ++ e :: b' ∧ isLineEnd e ∧ (∀ y ∈ line, isLineEnd y = false) ∧ Blanks b'
  else Blanks b

theorem blanksFrom_of_append {comment : Bool} {cs : List Char} {x : Char} {l : List Char}
    (h : cs = blankPrefixFrom comment cs ++ x :: l) : BlanksFrom comment (blankPrefixFrom comment cs) := by
  fun_induction blankPrefixFrom comment cs with
  | case1 => cases h
  | case2 c cs ih =>
    have ih := ih (List.cons.inj h).2
    cases hc : isLineEnd c with
    | true =>
      rw [hc] at ih
      exact ⟨c, [], _, rfl, hc, List.forall_mem_nil _, ih⟩
    | false =>
      rw [hc] at ih
      obtain ⟨e, line, b, hb, he, hline, hbs⟩ := ih
      exact ⟨e, c :: line, b, congrArg (c :: ·) hb, he, List.forall_mem_cons.2 ⟨hc, hline⟩, hbs⟩
  | case3 comment c cs hcomment hs ih =>
    obtain rfl := Bool.eq_false_iff.2 hcomment
    exact .separator hs (ih (List.cons.inj h).2)
  | case4 comment c cs hcomment _ hstart ih =>
    obtain rfl := Bool.eq_false_iff.2 hcomment
    have h := (List.cons.inj h).2
    obtain ⟨e, line, b, hb, he, hline, hbs⟩ := ih h
    have hsep := isSeparator_of_blankPrefixFrom h
    rw [hb] at h ⊢
    -- the second hyphen is the first character of the line
    obtain ⟨cs', rfl, rfl⟩ := exists_of_startsComment hstart
    cases line with
    | nil =>
      obtain rfl : '-' = e := (List.cons.inj h).1
      exact absurd he (by decide)
    | cons y line =>
      obtain ⟨rfl, rfl⟩ := List.cons.inj h
      obtain ⟨hy, hline⟩ := List.forall_mem_cons.1 hline
      have hcs : (line.append (e :: b)).append (x :: l) = line ++ e :: (b ++ x :: l) :=
        List.append_assoc line (e :: b) (x :: l)
      rw [hcs, startsComment_iff he hline] at hstart
      refine .comment he hline (fun hr => ?_) hbs
      obtain ⟨t, ht⟩ := hstart hr
      cases b with
      | nil =>
        obtain rfl := (List.cons.inj ht).1
        exact absurd hsep (by decide)
      | cons z b =>
        obtain rfl := (List.cons.inj ht).1
        exact ⟨b, rfl⟩
  | case5 comment c cs hcomment _ _ =>
    obtain rfl := Bool.eq_false_iff.2 hcomment
    exact .nil

theorem blanks_of_append {cs : List Char} {x : Char} {l : List Char} (h : cs = blankPrefix cs ++ x :: l) :
    Blanks (blankPrefix cs) := blanksFrom_of_append h

end SymbolBridge.Script
