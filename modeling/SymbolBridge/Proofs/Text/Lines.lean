import Mathlib.Data.List.TakeWhile
import SymbolBridge.Text.Blank
import SymbolBridge.Text.Lines

/-!
# Texts as lines, lines as words

Every text is some lines, each with the line feed that ends it, and a rest without a line feed (`Text.exists_unlines`), and
a split at the line feeds is read off from these (`Text.splitOn_unlines_append`). A text may be `MadeOf` lines with
carriage returns, too; what is gathered from its lines does not show in which way (`Text.MadeOf.filterMap_lines`).

The words of a line are what is left of a split at its blanks when the empty pieces go (`Text.words_eq_pieces`).
-/

namespace SymbolBridge.Text

/-- Each line with a line feed at its end. -/
def unlines (ls : List (List Char)) : List Char := ls.flatMap (· ++ ['\n'])

@[simp] theorem unlines_nil : unlines [] = [] := rfl

@[simp] theorem unlines_cons (l : List Char) (ls : List (List Char)) : unlines (l :: ls) = l ++ '\n' :: unlines ls := by
  simp [unlines]

section

variable {cs l tail : List Char} {ls : List (List Char)}

theorem exists_unlines (cs : List Char) :
    ∃ ls tail, cs = unlines ls ++ tail ∧ (∀ l ∈ ls, '\n' ∉ l) ∧ '\n' ∉ tail := by
  induction cs with
  | nil => exact ⟨[], [], rfl, by simp, by simp⟩
  | cons c cs ih =>
    obtain ⟨ls, tail, rfl, hls, htail⟩ := ih
    by_cases hc : c = '\n'
    · subst hc
      exact ⟨[] :: ls, tail, by simp, by simpa using hls, htail⟩
    · cases ls with
      | nil => exact ⟨[], c :: tail, rfl, by simp, by simp [htail, Ne.symm hc]⟩
      | cons l ls =>
        rw [List.forall_mem_cons] at hls
        refine ⟨(c :: l) :: ls, tail, by simp, ?_, htail⟩
        rw [List.forall_mem_cons]
        exact ⟨by simp [hls.1, Ne.symm hc], hls.2⟩

theorem count_unlines (h : ∀ l ∈ ls, '\n' ∉ l) : (unlines ls).count '\n' = ls.length := by
  induction ls with
  | nil => rfl
  | cons l ls ih =>
    rw [List.forall_mem_cons] at h
    rw [unlines_cons, List.count_append, List.count_eq_zero.2 h.1, List.count_cons_self, ih h.2, List.length_cons]
    omega

theorem splitOn_unlines_append (h : ∀ l ∈ ls, '\n' ∉ l) (cs : List Char) :
    (unlines ls ++ cs).splitOn '\n' = ls ++ cs.splitOn '\n' := by
  induction ls with
  | nil => rfl
  | cons l ls ih =>
    rw [List.forall_mem_cons] at h
    rw [unlines_cons, List.append_assoc, List.cons_append, List.splitOn_append_cons_self_of_not_mem h.1, ih h.2,
      List.cons_append]

/-- The first line of a text goes on from what stands in front of it. -/
theorem exists_splitOn_append (h : '\n' ∉ tail) (cs : List Char) :
    ∃ rest ls, (tail ++ cs).splitOn '\n' = (tail ++ rest) :: ls := by
  induction tail with
  | nil => exact List.exists_cons_of_ne_nil (List.splitOn_ne_nil '\n' cs)
  | cons c tail ih =>
    rw [List.mem_cons, not_or] at h
    obtain ⟨rest, ls, hsplit⟩ := ih h.2
    have hc : (c == '\n') = false := by simpa using Ne.symm h.1
    refine ⟨rest, ls, ?_⟩
    rw [List.cons_append, List.splitOn_cons_eq_if_modifyHead, hsplit, hc]
    rfl

theorem linesFrom_append (h : '\n' ∉ tail) (line cs : List Char) :
    linesFrom line (tail ++ cs) = linesFrom (tail.reverse ++ line) cs := by
  induction tail generalizing line with
  | nil => rfl
  | cons c tail ih =>
    rw [List.mem_cons, not_or] at h
    simp [linesFrom, Ne.symm h.1, ih h.2]

theorem lines_append_cons (h : '\n' ∉ l) (cs : List Char) : lines (l ++ '\n' :: cs) = l :: lines cs := by
  rw [lines, linesFrom_append h]
  simp [linesFrom, lines]

theorem lines_of_notMem (h : '\n' ∉ l) : lines l = if l = [] then [] else [l] := by
  have happend := linesFrom_append h [] []
  rw [List.append_nil, List.append_nil] at happend
  rw [lines, happend]
  simp [linesFrom]

/-- A text made of lines. A line feed ends a line, perhaps with a carriage return in front of it; the last line may go
without. -/
inductive MadeOf : List (List Char) → List Char → Prop
  | nil : MadeOf [] []
  | last {l : List Char} : '\n' ∉ l → MadeOf [l] l
  | lineFeed {l cs : List Char} {ls : List (List Char)} : '\n' ∉ l → MadeOf ls cs → MadeOf (l :: ls) (l ++ '\n' :: cs)
  | carriageReturn {l cs : List Char} {ls : List (List Char)} : '\n' ∉ l → MadeOf ls cs →
      MadeOf (l :: ls) (l ++ '\r' :: '\n' :: cs)

/-- What is gathered from the lines of a text, if carriage returns and empty lines do not count. -/
theorem MadeOf.filterMap_lines {β : Type} {f : List Char → Option β} (hempty : f [] = none)
    (hreturn : ∀ l, f (l ++ ['\r']) = f l) (h : MadeOf ls cs) : (lines cs).filterMap f = ls.filterMap f := by
  induction h with
  | nil => rfl
  | @last l hl =>
    rw [lines_of_notMem hl]
    by_cases hl : l = []
    · simp [hl, hempty]
    · simp [hl]
  | @lineFeed l cs ls hl _ ih => rw [lines_append_cons hl, List.filterMap_cons, List.filterMap_cons, ih]
  | @carriageReturn l cs ls hl _ ih =>
    have hl' : '\n' ∉ l ++ ['\r'] := by simp [hl]
    have hcs : l ++ '\r' :: '\n' :: cs = (l ++ ['\r']) ++ '\n' :: cs := by simp
    rw [hcs, lines_append_cons hl', List.filterMap_cons, List.filterMap_cons, hreturn, ih]

end

/-! ## Words -/

/-- What stands between the characters of a class, without what is empty. -/
def pieces (sep : Char → Bool) (cs : List Char) : List (List Char) := (cs.splitOnP sep).filter (· ≠ [])

section

variable {sep : Char → Bool} {c : Char} {w cs rest : List Char}

theorem pieces_cons_of_sep (hc : sep c = true) (cs : List Char) : pieces sep (c :: cs) = pieces sep cs := by
  simp [pieces, List.splitOnP_cons_eq_if_modifyHead, hc]

/-- What is in front of a separator is a piece, and the pieces after it follow. -/
theorem pieces_append_cons (hne : w ≠ []) (hw : ∀ x ∈ w, sep x = false) (hc : sep c = true) (cs : List Char) :
    pieces sep (w ++ c :: cs) = w :: pieces sep cs := by
  rw [pieces, List.splitOnP_append_cons_of_forall_mem hw c hc, List.filter_cons_of_pos (by simpa using hne), pieces]

theorem pieces_of_forall_mem (hne : w ≠ []) (hw : ∀ x ∈ w, sep x = false) : pieces sep w = [w] := by
  simp [pieces, List.splitOnP_eq_singleton hw, hne]

/-- A separator at the end ends no piece. -/
theorem pieces_concat (hc : sep c = true) (cs : List Char) : pieces sep (cs ++ [c]) = pieces sep cs := by
  rw [pieces, List.splitOnP_append_cons cs [] hc, List.splitOnP_nil, List.filter_append]
  simp [pieces]

theorem pieces_dropWhile (sep : Char → Bool) (cs : List Char) : pieces sep (cs.dropWhile sep) = pieces sep cs := by
  induction cs with
  | nil => rfl
  | cons c cs ih =>
    by_cases hc : sep c
    · rw [List.dropWhile_cons_of_pos hc, ih, pieces_cons_of_sep hc]
    · rw [List.dropWhile_cons_of_neg hc]

/-- A piece goes up to the next separator. -/
theorem pieces_cons (hc : sep c = false) (cs : List Char) :
    pieces sep (c :: cs) = (c :: cs.takeWhile (!sep ·)) :: pieces sep (cs.dropWhile (!sep ·)) := by
  have hw : ∀ x ∈ c :: cs.takeWhile (!sep ·), sep x = false := by
    rw [List.forall_mem_cons]
    exact ⟨hc, fun x hx => by simpa using List.mem_takeWhile_imp hx⟩
  have hcs : c :: cs = (c :: cs.takeWhile (!sep ·)) ++ cs.dropWhile (!sep ·) := by simp
  cases hrest : cs.dropWhile (!sep ·) with
  | nil =>
    rw [hrest, List.append_nil] at hcs
    rw [hcs, pieces_of_forall_mem (List.cons_ne_nil _ _) (hcs ▸ hw)]
    simp [pieces]
  | cons s rest =>
    have hs : sep s = true := by
      have h := List.head?_dropWhile_not (!sep ·) cs
      rw [hrest] at h
      simpa using h
    rw [hrest] at hcs
    rw [hcs, pieces_append_cons (List.cons_ne_nil _ _) hw hs, pieces_cons_of_sep hs]

theorem fieldsAux_eq_pieces (sep : Char → Bool) {fuel : Nat} (h : cs.length ≤ fuel) :
    fieldsAux sep fuel cs = pieces sep cs := by
  induction fuel generalizing cs with
  | zero =>
    obtain rfl := List.length_eq_zero_iff.1 (Nat.le_zero.1 h)
    simp [fieldsAux, pieces]
  | succ fuel ih =>
    have hdrop : (cs.dropWhile sep).length ≤ cs.length := (List.dropWhile_suffix sep).length_le
    rw [fieldsAux, ← pieces_dropWhile sep cs]
    split
    · rename_i hnil
      rw [hnil]
      simp [pieces]
    · rename_i c rest hcons
      have hc : sep c = false := by
        have h := List.head?_dropWhile_not sep cs
        rw [hcons] at h
        exact h
      have hrest : (rest.dropWhile (!sep ·)).length ≤ fuel := by
        have hle := (List.dropWhile_suffix (l := rest) (!sep ·)).length_le
        rw [hcons, List.length_cons] at hdrop
        omega
      rw [hcons, pieces_cons hc, ih hrest]

theorem words_eq_pieces (cs : List Char) : words cs = pieces isBlank cs := fieldsAux_eq_pieces isBlank (Nat.le_refl _)

theorem splitAtFirst_append (h : c ∉ w) (rest : List Char) : splitAtFirst c (w ++ c :: rest) = some (w, rest) := by
  have hw : ∀ x ∈ w, decide (x ≠ c) = true := by
    intro x hx
    simpa using fun heq : x = c => h (heq ▸ hx)
  rw [splitAtFirst, List.dropWhile_append_of_pos hw, List.takeWhile_append_of_pos hw]
  simp

theorem splitAtFirst_of_notMem (h : c ∉ w) : splitAtFirst c w = none := by
  have hw : ∀ x ∈ w, decide (x ≠ c) = true := by
    intro x hx
    simpa using fun heq : x = c => h (heq ▸ hx)
  have hdrop : w.dropWhile (· ≠ c) = [] := List.dropWhile_eq_nil_iff.2 hw
  rw [splitAtFirst, hdrop]

end

end SymbolBridge.Text
