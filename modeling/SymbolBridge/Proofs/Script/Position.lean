import SymbolBridge.Proofs.Text.Cut
import SymbolBridge.Proofs.Text.Lines
import SymbolBridge.Script.Position

/-!
# Positions and offsets

A place between two characters of a source has a position (`Position.at?_byteLength`), which says on which line it is and
how many characters of the line are in front of it. The text before a place is its full lines and the beginning of one
more (`Position.after_unlines_append`), so the offset is found again from the position, and a later place has a later
position (`Position.before_of_append`). `Position.at?_leads_back` puts this together for all places of a source.
-/

namespace SymbolBridge.Script

open Text (byteLength unlines utf8ByteSize_eq_byteLength)

namespace Position

/-- On an earlier line, or further left on the same one. -/
def Before (p q : Position) : Prop := p.line < q.line ∨ p.line = q.line ∧ p.column < q.column

section

variable {src : String} {before after mid tail : List Char} {ls : List (List Char)}

/-- A valid offset lies between two parts of the source, after the bytes of the first. -/
theorem exists_of_isValid {o : Nat} (h : String.Pos.Raw.IsValid src ⟨o⟩) : ∃ before after : String,
    src = before ++ after ∧ before.utf8ByteSize = o ∧ src.toList = before.toList ++ after.toList ∧
    o = byteLength before.toList := by
  obtain ⟨before, after, hsrc, hoffset⟩ := String.Pos.Raw.isValid_iff_exists_append.1 h
  have hsize : o = before.utf8ByteSize := congrArg String.Pos.Raw.byteIdx hoffset
  exact ⟨before, after, hsrc, hsize.symm, by rw [hsrc, String.toList_append],
    hsize.trans (utf8ByteSize_eq_byteLength before)⟩

theorem at?_byteLength (h : src.toList = before ++ after) : at? src (byteLength before) = some (.after before) := by
  have hle : byteLength before ≤ src.utf8ByteSize := by
    rw [utf8ByteSize_eq_byteLength, h, Text.byteLength_append]
    exact Nat.le_add_right _ _
  simp only [at?, h, Text.takeBytes_byteLength, Nat.min_eq_left hle, if_true]

/-- Every offset past the end is the end. -/
theorem at?_of_le {o : Nat} (h : src.utf8ByteSize ≤ o) : at? src o = at? src src.utf8ByteSize := by
  rw [utf8ByteSize_eq_byteLength] at h
  have hall : Text.takeBytes o src.toList = src.toList := Text.takeBytes_eq_self_iff.2 h
  have hend : Text.takeBytes (byteLength src.toList) src.toList = src.toList :=
    Text.takeBytes_eq_self_iff.2 (Nat.le_refl _)
  simp only [at?, utf8ByteSize_eq_byteLength, hall, hend, Nat.min_eq_right h, Nat.min_self]

/-! ## Lines in front of a place -/

theorem takeWhile_reverse_unlines (ls : List (List Char)) :
    (unlines ls).reverse.takeWhile (· ≠ '\n') = [] := by
  rcases List.eq_nil_or_concat ls with rfl | ⟨ls, l, rfl⟩
  · rfl
  · simp [unlines]

/-- After full lines and the beginning of one more, the position counts the lines and the characters of the beginning. -/
theorem after_unlines_append (hls : ∀ l ∈ ls, '\n' ∉ l) (htail : '\n' ∉ tail) :
    Position.after (unlines ls ++ tail) = ⟨ls.length + 1, tail.length + 1⟩ := by
  have hcount : (unlines ls ++ tail).count '\n' = ls.length := by
    rw [List.count_append, Text.count_unlines hls, List.count_eq_zero.2 htail, Nat.add_zero]
  have htake : (unlines ls ++ tail).reverse.takeWhile (· ≠ '\n') = tail.reverse := by
    have hmem : ∀ c ∈ tail.reverse, decide (c ≠ '\n') = true := by
      intro c hc
      simpa using fun heq : c = '\n' => htail (heq ▸ List.mem_reverse.1 hc)
    rw [List.reverse_append, List.takeWhile_append_of_pos hmem, takeWhile_reverse_unlines, List.append_nil]
  rw [Position.after, hcount, htake, List.length_reverse]

/-- Text moves a position forward. -/
theorem before_of_append (h : mid ≠ []) : (Position.after before).Before (.after (before ++ mid)) := by
  obtain ⟨ls, tail, rfl, hls, htail⟩ := Text.exists_unlines before
  obtain ⟨ms, rest, rfl, hms, hrest⟩ := Text.exists_unlines mid
  rw [after_unlines_append hls htail]
  cases ms with
  | nil =>
    -- No line ends in the text: the column moves on by its length.
    have hlong : '\n' ∉ tail ++ rest := by simp [htail, hrest]
    rw [Text.unlines_nil, List.nil_append, List.append_assoc, after_unlines_append hls hlong]
    have hpos : 0 < rest.length := List.length_pos_iff.2 (by simpa using h)
    refine .inr ⟨rfl, ?_⟩
    simp only [List.length_append]
    omega
  | cons m ms =>
    rw [List.forall_mem_cons] at hms
    have hmore : unlines ls ++ tail ++ (unlines (m :: ms) ++ rest) = unlines (ls ++ (tail ++ m) :: ms) ++ rest := by
      simp [unlines]
    have hlines : ∀ l ∈ ls ++ (tail ++ m) :: ms, '\n' ∉ l := by
      rw [List.forall_mem_append, List.forall_mem_cons]
      exact ⟨hls, by simp [htail, hms.1], hms.2⟩
    rw [hmore, after_unlines_append hlines hrest]
    refine .inl ?_
    simp only [List.length_append, List.length_cons]
    omega

/-- A position names an offset of a source: the bytes of the lines above it with their line feeds, and of the characters to
its left on its own line. -/
def Names (p : Position) (src : String) (o : Nat) : Prop :=
  1 ≤ p.line ∧ 1 ≤ p.column ∧
    ∃ line, (src.toList.splitOn '\n')[p.line - 1]? = some line ∧ p.column - 1 ≤ line.length ∧
    o = byteLength (unlines ((src.toList.splitOn '\n').take (p.line - 1))) + byteLength (line.take (p.column - 1))

theorem names_after (h : src.toList = before ++ after) : (Position.after before).Names src (byteLength before) := by
  obtain ⟨ls, tail, rfl, hls, htail⟩ := Text.exists_unlines before
  obtain ⟨rest, more, hsplit⟩ := Text.exists_splitOn_append htail after
  -- The full lines in front of the place are lines of the source, and the next one begins with what is left of it.
  have hlines : src.toList.splitOn '\n' = ls ++ (tail ++ rest) :: more := by
    rw [h, List.append_assoc, Text.splitOn_unlines_append hls, hsplit]
  rw [after_unlines_append hls htail]
  refine ⟨by simp, by simp, tail ++ rest, ?_, by simp, ?_⟩
  · rw [hlines]
    simp
  · rw [hlines]
    simp

theorem Names.unique {p : Position} {o o' : Nat} (h : p.Names src o) (h' : p.Names src o') : o = o' := by
  obtain ⟨-, -, line, hline, -, rfl⟩ := h
  obtain ⟨-, -, line', hline', -, rfl⟩ := h'
  obtain rfl : line = line' := Option.some.inj (hline.symm.trans hline')
  rfl

end

/-- **A position leads back to its offset.** Every place between two characters has a position: its line counts the line
feeds in front of the place, and the lines above and the characters to the left make up the offset. So two places have
different positions, the later one of them a later position; and every offset past the end has the position of the end. -/
theorem at?_leads_back (src : String) :
    (∀ o, String.Pos.Raw.IsValid src ⟨o⟩ → ∃ before after p, src = before ++ after ∧ before.utf8ByteSize = o ∧
      at? src o = some p ∧ p.line - 1 = before.toList.count '\n' ∧ p.Names src o) ∧
    (∀ o o', String.Pos.Raw.IsValid src ⟨o⟩ → String.Pos.Raw.IsValid src ⟨o'⟩ →
      (at? src o = at? src o' → o = o') ∧
      (o < o' → ∃ p q, at? src o = some p ∧ at? src o' = some q ∧ p.Before q)) ∧
    ∀ o, src.utf8ByteSize ≤ o → at? src o = at? src src.utf8ByteSize := by
  refine ⟨fun o ho => ?_, fun o o' ho ho' => ?_, fun o h => at?_of_le h⟩
  · obtain ⟨before, after, hsrc, hsize, hlist, rfl⟩ := exists_of_isValid ho
    exact ⟨before, after, _, hsrc, hsize, at?_byteLength hlist, rfl, names_after hlist⟩
  · obtain ⟨before, after, -, -, hlist, rfl⟩ := exists_of_isValid ho
    obtain ⟨before', after', -, -, hlist', rfl⟩ := exists_of_isValid ho'
    rw [at?_byteLength hlist, at?_byteLength hlist']
    refine ⟨fun heq => ?_, fun hlt => ⟨_, _, rfl, rfl, ?_⟩⟩
    · have hnames := names_after hlist'
      rw [← Option.some.inj heq] at hnames
      exact (names_after hlist).unique hnames
    · obtain ⟨mid, hmid, hmore⟩ := Text.exists_between (hlist.symm.trans hlist') hlt
      rw [hmore]
      exact before_of_append hmid

end Position

end SymbolBridge.Script
