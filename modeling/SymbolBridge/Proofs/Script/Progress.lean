import SymbolBridge.Proofs.Script.Forward
import SymbolBridge.Proofs.Text.Cut

/-!
# Tokens leave less than they found

`c.Advances d` says that the cursor `d` lies after `c` with a character or more between them. So it is with every token
that is read (`Cursor.advances_of_past?`, `Cursor.advances_of_identifier?`, `Cursor.advances_of_number?`,
`advances_of_string`). The blanks may be none, but a blank that is there is passed as well
(`Cursor.skip_advance_separator?`).

The offset of a cursor is the number of bytes that the source has more than what is left at the cursor
(`Cursor.Reaches.offset_add`).
-/

namespace SymbolBridge.Script

open Text (byteLength)

namespace Cursor

/-- The second cursor lies after the first. -/
structure Advances (c d : Cursor) : Prop where
  reaches : c.Reaches d
  length_lt : d.rest.length < c.rest.length

section

variable {c d e : Cursor} {x : Char} {l cs : List Char}

theorem Advances.trans_reaches (h : c.Advances d) (h' : d.Reaches e) : c.Advances e :=
  ⟨h.reaches.trans h', Nat.lt_of_le_of_lt h'.length_le h.length_lt⟩

theorem Reaches.trans_advances (h : c.Reaches d) (h' : d.Advances e) : c.Advances e :=
  ⟨h.trans h'.reaches, Nat.lt_of_lt_of_le h'.length_lt h.length_le⟩

theorem Spells.advances (h : c.Spells l d) (hl : l ≠ []) : c.Advances d := by
  refine ⟨h.reaches, ?_⟩
  have hpos := List.length_pos_iff.2 hl
  rw [h.length]
  omega

theorem advances_advance (h : c.rest = x :: cs) : c.Advances (c.advance [x]) :=
  (spells_advance ⟨cs, h.symm⟩).advances (List.cons_ne_nil x [])

/-! ## Tokens -/

theorem advances_of_past? (h : c.past? (x :: l) = some d) : c.Advances d :=
  (past?_eq_some_iff.1 h).advances (List.cons_ne_nil x l)

theorem advances_of_identifier? {name : String} (h : c.identifier? = some (name, d)) : c.Advances d := by
  obtain ⟨hne, -, hs⟩ := identifier?_eq_some_iff.1 h
  exact hs.advances hne

theorem advances_of_number? {n : Number} (h : c.number? = some (n, d)) : c.Advances d := by
  obtain ⟨hne, -, hs⟩ := number?_eq_some_iff.1 h
  exact hs.advances hne

/-! ## Offsets -/

/-- The bytes passed and the bytes left are those of the source. -/
theorem Reaches.offset_add {src : String} (h : (ofSource src).Reaches c) :
    c.offset + byteLength c.rest = src.utf8ByteSize := by
  obtain ⟨l, hrest, hoffset⟩ := h
  rw [Text.utf8ByteSize_eq_byteLength, show src.toList = l ++ c.rest from hrest, Text.byteLength_append, hoffset]
  simp only [ofSource]
  omega

end

end Cursor

theorem advances_of_string {c d : Cursor} {s : String} (h : Parser.string c = .ok (s, d)) : c.Advances d := by
  unfold Parser.string at h
  split at h
  · cases h
  · rename_i quote cs hr
    split at h
    · rename_i body k hbody
      cases h
      obtain ⟨l, -, hs⟩ := quoted_of_stringBody hbody
      have hquote : c.Spells [quote] ⟨cs, c.offset + quote.utf8Size⟩ := ⟨hr, rfl⟩
      exact (hquote.advances (List.cons_ne_nil quote [])).trans_reaches hs.reaches
    · cases h
    · cases h

/-! ## Blanks one by one -/

/-- White space between tokens. -/
def isSpacing (c : Char) : Bool := c = ' ' || c = '\t' || c = '\r' || c = '\n'

/-- The first blank of a text: spaces and line ends, a comment without the end of its line, or a semicolon. -/
def separator? (cs : List Char) : Option (List Char) :=
  if cs.takeWhile isSpacing ≠ [] then some (cs.takeWhile isSpacing)
  else if startsComment cs then some (cs.takeWhile (!isLineEnd ·))
  else if cs.head? = some ';' then some [';']
  else none

section

variable {cs l : List Char} {x : Char}

theorem isSeparator_iff_isSpacing : isSeparator x ↔ isSpacing x ∨ x = ';' := by simp [isSeparator, isSpacing]

theorem isSeparator_of_isLineEnd (h : isLineEnd x) : isSeparator x := by
  simp only [isLineEnd, Bool.or_eq_true, decide_eq_true_eq] at h
  rcases h with rfl | rfl <;> decide

theorem blankPrefix_cons_of_separator (h : isSeparator x) : blankPrefix (x :: cs) = x :: blankPrefix cs := by
  simp [blankPrefix, blankPrefixFrom, h]

theorem blankPrefix_takeWhile_isSpacing (cs : List Char) :
    blankPrefix cs = cs.takeWhile isSpacing ++ blankPrefix (cs.dropWhile isSpacing) := by
  induction cs with
  | nil => rfl
  | cons x cs ih =>
    by_cases hx : isSpacing x
    · rw [blankPrefix_cons_of_separator (isSeparator_iff_isSpacing.2 (.inl hx)), ih, List.takeWhile_cons_of_pos hx,
        List.dropWhile_cons_of_pos hx, List.cons_append]
    · rw [List.takeWhile_cons_of_neg hx, List.dropWhile_cons_of_neg hx, List.nil_append]

/-- The end of its line is a blank after the comment as well as the end of the comment. -/
theorem blankPrefixFrom_true (cs : List Char) :
    blankPrefixFrom true cs = cs.takeWhile (!isLineEnd ·) ++ blankPrefix (cs.dropWhile (!isLineEnd ·)) := by
  induction cs with
  | nil => rfl
  | cons x cs ih =>
    cases hx : isLineEnd x with
    | true =>
      rw [List.takeWhile_cons_of_neg (by simp [hx]), List.dropWhile_cons_of_neg (by simp [hx]), List.nil_append,
        blankPrefix_cons_of_separator (isSeparator_of_isLineEnd hx)]
      simp [blankPrefixFrom, blankPrefix, hx]
    | false =>
      rw [List.takeWhile_cons_of_pos (by simp [hx]), List.dropWhile_cons_of_pos (by simp [hx]), List.cons_append, ← ih]
      simp [blankPrefixFrom, hx]

theorem blankPrefix_of_startsComment (h : startsComment cs) :
    blankPrefix cs = cs.takeWhile (!isLineEnd ·) ++ blankPrefix (cs.dropWhile (!isLineEnd ·)) := by
  cases cs with
  | nil => cases h
  | cons x cs =>
    obtain ⟨-, rfl, -⟩ := exists_of_startsComment h
    have hend : isLineEnd '-' = false := by decide
    rw [List.takeWhile_cons_of_pos (by simp [hend]), List.dropWhile_cons_of_pos (by simp [hend]), List.cons_append,
      ← blankPrefixFrom_true]
    simp [blankPrefix, blankPrefixFrom, h, isSeparator]

theorem blankPrefix_of_separator?_eq_none (h : separator? cs = none) : blankPrefix cs = [] := by
  cases cs with
  | nil => rfl
  | cons x cs =>
    have hspacing : ¬ isSpacing x := by
      intro hx
      simp [separator?, hx] at h
    have hcomment : ¬ startsComment (x :: cs) := by
      intro hx
      simp [separator?, hspacing, hx] at h
    have hsemicolon : x ≠ ';' := by
      rintro rfl
      simp [separator?, hspacing, hcomment] at h
    have hseparator : ¬ isSeparator x := by
      rw [isSeparator_iff_isSpacing]
      exact not_or.2 ⟨hspacing, hsemicolon⟩
    simp [blankPrefix, blankPrefixFrom, hseparator, hcomment]

/-- A blank has a character, and what follows it goes on with the other blanks. -/
theorem exists_of_separator?_eq_some (h : separator? cs = some l) :
    ∃ rest, l ≠ [] ∧ cs = l ++ rest ∧ blankPrefix cs = l ++ blankPrefix rest := by
  unfold separator? at h
  split at h
  · rename_i hspacing
    cases h
    exact ⟨_, hspacing, List.takeWhile_append_dropWhile.symm, blankPrefix_takeWhile_isSpacing cs⟩
  · split at h
    · rename_i hcomment
      cases h
      refine ⟨_, ?_, List.takeWhile_append_dropWhile.symm, blankPrefix_of_startsComment hcomment⟩
      cases cs with
      | nil => cases hcomment
      | cons x cs =>
        obtain ⟨-, rfl, -⟩ := exists_of_startsComment hcomment
        simp [isLineEnd]
    · split at h
      · rename_i hsemicolon
        cases h
        obtain ⟨rest, rfl⟩ := List.head?_eq_some_iff.1 hsemicolon
        exact ⟨rest, List.cons_ne_nil _ _, rfl, blankPrefix_cons_of_separator (by decide)⟩
      · cases h

end

end SymbolBridge.Script
