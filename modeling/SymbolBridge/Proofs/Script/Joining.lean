import SymbolBridge.Proofs.Script.Extension

/-!
# Sources one after the other

A source that parses may go on after a separator. If the separator is a line feed, or if no comment holds it, then the
statements of the whole source are those of the first one and after them those that are read from behind the separator
(`parse_append_iff`). So two sources are joined by a separator (`parse_append_separator`), by a line feed whatever the
first one ends in (`parse_append_newline`). A line that starts with two hyphens may stand between them exactly if no
carriage return comes before its last character: the parser takes such a line for no comment
(`parse_append_comment_iff`).
-/

namespace SymbolBridge.Script

open Cursor
open Text (byteLength utf8ByteSize_eq_byteLength)

/-! ## A separator between sources -/

section

variable {c : Cursor} {ss tt : List Statement}

theorem Cursor.skip_within_nil (s : Nat) : (c.within [] s).skip = c.skip.within [] s := by
  have hrest : (c.within [] s).rest = c.rest := List.append_nil c.rest
  have hs := c.spells_skip.within (r := []) (s := s)
  rw [hs.eq_advance, ← hrest]
  rfl

/-- The statements of a source, with `s` more bytes in front of it. -/
theorem ReadsAll.shift (h : ReadsAll ss c) (s : Nat) :
    ReadsAll (ss.map (Statement.mapSpans (Span.shift s))) ⟨c.rest, c.offset + s⟩ := by
  obtain ⟨d, -, hd, hall⟩ := h.within (r := []) (s := s) (by simp)
  have hnil : ReadsAll [] (d.within [] s) := .nil (by rw [skip_within_nil, rest_within, hd, List.append_nil])
  have h := ((hall hnil.ended).2 _).2 ⟨[], (List.append_nil _).symm, hnil⟩
  rwa [Cursor.within, List.append_nil] at h

/-- The place behind the text `front`, with the text `rest` left. -/
def Cursor.behind (front rest : List Char) : Cursor := ⟨rest, byteLength front⟩

variable {src s₁ s₂ : String} {ss₁ ss₂ : List Statement} {x : Char} {l : List Char}

/-- A source that parses goes on after a separator: its statements come first. -/
theorem parse_append_iff (h₁ : parse s₁ = .ok ss₁) (hx : isSeparator x)
    (hz : x = '\n' ∨ (Zone.code.after s₁.toList).isOutside) (hend : (behind (s₁.toList ++ [x]) l).Ended)
    (hsrc : src.toList = s₁.toList ++ x :: l) :
    parse src = .ok tt ↔ ∃ tt', tt = ss₁ ++ tt' ∧ ReadsAll tt' (behind (s₁.toList ++ [x]) l) := by
  have hr : ∀ y ∈ (x :: l).head?, isSeparator y := fun y hy => Option.some.inj hy ▸ hx
  obtain ⟨d, ⟨m, hm, hmz⟩, hd, hwhole⟩ := (parse_eq_ok_iff.1 h₁).within (s := 0) hr
  have hs₁ : s₁.toList = m ++ d.rest := hm.rest
  have hskip : (d.within (x :: l) 0).skip = (behind (s₁.toList ++ [x]) l).skip := by
    rw [hs₁, Zone.after_append, hmz] at hz
    refine skip_of_blanks (blanks_append_separator (blankPrefix_of_skip hd) hx hz) ⟨?_, ?_⟩
    · rw [rest_within, List.append_assoc]
      rfl
    · rw [offset_within, hm.offset, hs₁]
      simp only [behind, ofSource, Text.byteLength_append]
      omega
  obtain ⟨-, hall⟩ := hwhole (hend.of_skip hskip)
  have hshift : ss₁.map (Statement.mapSpans (Span.shift 0)) = ss₁ :=
    (List.map_congr_left fun s _ => s.mapSpans_id).trans (List.map_id ss₁)
  rw [hshift] at hall
  rw [parse_eq_ok_iff, ofSource, hsrc]
  refine (hall tt).trans ⟨?_, ?_⟩
  · rintro ⟨tt', htt, h⟩
    exact ⟨tt', htt, h.of_skip hskip.symm⟩
  · rintro ⟨tt', htt, h⟩
    exact ⟨tt', htt, h.of_skip hskip⟩

theorem ReadsAll.behind (h₂ : parse s₂ = .ok ss₂) (front : List Char) :
    ReadsAll (ss₂.map (Statement.mapSpans (Span.shift (byteLength front)))) (Cursor.behind front s₂.toList) := by
  have h := (parse_eq_ok_iff.1 h₂).shift (byteLength front)
  rwa [ofSource, Nat.zero_add] at h

theorem parse_append_separator (h₁ : parse s₁ = .ok ss₁) (h₂ : parse s₂ = .ok ss₂) (hx : isSeparator x)
    (hz : x = '\n' ∨ (Zone.code.after s₁.toList).isOutside) (hsrc : src.toList = s₁.toList ++ x :: s₂.toList) :
    parse src = .ok (ss₁ ++ ss₂.map (Statement.mapSpans (Span.shift (byteLength (s₁.toList ++ [x]))))) := by
  have h := ReadsAll.behind h₂ (s₁.toList ++ [x])
  exact (parse_append_iff h₁ hx hz h.ended hsrc).2 ⟨_, rfl, h⟩

/-- **Two sources that parse, with a line feed between them**, parse into the statements of the first one and those of
the second one, all of whose spans are moved behind the line feed. -/
theorem parse_append_newline (h₁ : parse s₁ = .ok ss₁) (h₂ : parse s₂ = .ok ss₂) :
    parse (s₁ ++ "\n" ++ s₂) = .ok (ss₁ ++ ss₂.map (Statement.mapSpans (Span.shift (s₁.utf8ByteSize + 1)))) := by
  have hsrc : (s₁ ++ "\n" ++ s₂).toList = s₁.toList ++ '\n' :: s₂.toList := by simp
  have h := parse_append_separator h₁ h₂ rfl (.inl rfl) hsrc
  rwa [Text.byteLength_append, ← utf8ByteSize_eq_byteLength] at h

end

/-- The first source ends in a variable and in a comment with a quote. -/
theorem joined_after_open_comment :
    (parse "x = y -- '" = .ok [.assign "x" (.var "y" ⟨4, 5⟩) ⟨0, 5⟩] ∧
        parse " z = -1" = .ok [.assign "z" (.number (.int (-1))) ⟨1, 7⟩]) ∧
      parse ("x = y -- '" ++ "\n" ++ " z = -1") =
        .ok ([.assign "x" (.var "y" ⟨4, 5⟩) ⟨0, 5⟩] ++
          [Statement.assign "z" (.number (.int (-1))) ⟨1, 7⟩].map
            (Statement.mapSpans (Span.shift ("x = y -- '".utf8ByteSize + 1)))) :=
  ⟨⟨rfl, rfl⟩, parse_append_newline rfl rfl⟩

/-! ## A comment line between sources -/

section

variable {line t : List Char}

/-- No statement starts with a hyphen. -/
theorem not_readsAll_of_hyphen {c : Cursor} {ss : List Statement} (hc : c.skip.rest = '-' :: t) : ¬ReadsAll ss c := by
  intro h
  cases h with
  | nil he =>
    rw [hc] at he
    cases he
  | cons hs _ =>
    obtain ⟨x, cs, hx, hstart⟩ := hs.exists_isNameStart
    rw [hc] at hx
    obtain ⟨rfl, -⟩ := List.cons.inj hx
    exact absurd hstart (by decide)

theorem isLineEnd_eq_false (hn : '\n' ∉ line) (hr : '\r' ∉ line) : ∀ y ∈ line, isLineEnd y = false := by
  intro y hy
  have hlf : y ≠ '\n' := fun he => hn (he ▸ hy)
  have hcr : y ≠ '\r' := fun he => hr (he ▸ hy)
  simp [isLineEnd, hlf, hcr]

/-- A comment that a line feed ends, with no carriage return but right in front of it. -/
theorem blanks_comment_line (hn : '\n' ∉ line) (hr : '\r' ∉ line.dropLast) :
    Blanks ('-' :: '-' :: (line ++ ['\n'])) := by
  by_cases hmem : '\r' ∈ line
  · -- the carriage return is the last character, and it ends the line together with the line feed
    have hne : line ≠ [] := List.ne_nil_of_mem hmem
    have hsplit := List.dropLast_concat_getLast hne
    have hlast : line.getLast hne = '\r' := by
      rw [← hsplit, List.mem_append, List.mem_singleton] at hmem
      exact (hmem.resolve_left hr).symm
    have hline := isLineEnd_eq_false (fun h => hn (List.dropLast_subset line h)) hr
    rw [← hsplit, hlast, List.append_assoc]
    exact .comment rfl hline (fun _ => ⟨[], rfl⟩) (.separator rfl .nil)
  · exact .comment rfl (isLineEnd_eq_false hn hmem) (fun h => absurd h (by decide)) .nil

/-- A line with a carriage return further in front is no comment. -/
theorem blankPrefix_refused_line (hn : '\n' ∉ line) (hr : '\r' ∈ line.dropLast) :
    blankPrefix ('-' :: '-' :: (line ++ t)) = [] := by
  obtain ⟨u, y, v, rfl, hu⟩ : ∃ u y v, line = u ++ '\r' :: y :: v ∧ '\r' ∉ u := by
    obtain ⟨u, v, hdrop, hu⟩ := List.eq_append_cons_of_mem hr
    have hsplit := List.dropLast_concat_getLast (List.ne_nil_of_mem (List.dropLast_subset line hr))
    rw [hdrop, List.append_assoc] at hsplit
    cases v with
    | nil => exact ⟨u, _, [], hsplit.symm, hu⟩
    | cons y v => exact ⟨u, y, _, hsplit.symm, hu⟩
  simp only [List.mem_append, List.mem_cons, not_or] at hn
  obtain ⟨hnu, -, hny, -⟩ := hn
  have hstart : startsComment ('-' :: '-' :: (u ++ '\r' :: y :: v ++ t)) = false := by
    refine Bool.eq_false_iff.2 fun h => ?_
    rw [List.append_assoc, List.cons_append, startsComment_iff rfl (isLineEnd_eq_false hnu hu)] at h
    obtain ⟨_, ht⟩ := h rfl
    exact hny (List.cons.inj ht).1.symm
  have hsep : isSeparator '-' = false := by decide
  simp only [blankPrefix, blankPrefixFrom, hsep, hstart, Bool.false_eq_true, if_false]

end

/-- **A line that starts with two hyphens, between two sources that parse**, is a comment exactly if no carriage return
comes before its last character. -/
theorem parse_append_comment_iff {s₁ s₂ c : String} {ss₁ ss₂ : List Statement} (h₁ : parse s₁ = .ok ss₁)
    (h₂ : parse s₂ = .ok ss₂) (hc : '\n' ∉ c.toList) :
    parse (s₁ ++ "\n--" ++ c ++ "\n" ++ s₂) =
        .ok (ss₁ ++ ss₂.map (Statement.mapSpans (Span.shift (s₁ ++ "\n--" ++ c ++ "\n").utf8ByteSize))) ↔
      '\r' ∉ c.toList.dropLast := by
  have hsrc : (s₁ ++ "\n--" ++ c ++ "\n" ++ s₂).toList =
      s₁.toList ++ '\n' :: '-' :: '-' :: (c.toList ++ '\n' :: s₂.toList) := by simp
  constructor
  · intro h hr
    -- the parser stays behind the line feed after the first source
    have hrest : (behind (s₁.toList ++ ['\n']) ('-' :: '-' :: (c.toList ++ '\n' :: s₂.toList))).skip.rest =
        '-' :: '-' :: (c.toList ++ '\n' :: s₂.toList) :=
      congrArg Cursor.rest (skip_of_blankPrefix (blankPrefix_refused_line hc hr))
    obtain ⟨tt', -, htt'⟩ := (parse_append_iff h₁ rfl (.inl rfl) (ended_of_cons hrest) hsrc).1 h
    exact not_readsAll_of_hyphen hrest htt'
  · intro hr
    have hspells : (behind (s₁.toList ++ ['\n']) ('-' :: '-' :: (c.toList ++ '\n' :: s₂.toList))).Spells
        ('-' :: '-' :: (c.toList ++ ['\n'])) (behind (s₁ ++ "\n--" ++ c ++ "\n").toList s₂.toList) := by
      refine ⟨by simp [behind], ?_⟩
      simp [behind]
      omega
    have h := ReadsAll.behind h₂ (s₁ ++ "\n--" ++ c ++ "\n").toList
    have h := h.of_skip (skip_of_blanks (blanks_comment_line hc hr) hspells)
    rw [utf8ByteSize_eq_byteLength]
    exact (parse_append_iff h₁ rfl (.inl rfl) h.ended hsrc).2 ⟨_, rfl, h⟩

/-- A comment line with a semicolon, an open call and an open string, and with a carriage return at its end. -/
theorem comment_line_skipped :
    (parse "x = 1" = .ok [.assign "x" (.number (.int 1)) ⟨0, 5⟩] ∧
        parse "y = 2" = .ok [.assign "y" (.number (.int 2)) ⟨0, 5⟩] ∧ '\n' ∉ "; f('\r".toList) ∧
      parse ("x = 1" ++ "\n--" ++ "; f('\r" ++ "\n" ++ "y = 2") =
        .ok ([.assign "x" (.number (.int 1)) ⟨0, 5⟩] ++
          [Statement.assign "y" (.number (.int 2)) ⟨0, 5⟩].map
            (Statement.mapSpans (Span.shift ("x = 1" ++ "\n--" ++ "; f('\r" ++ "\n").utf8ByteSize))) :=
  ⟨⟨rfl, rfl, by decide⟩, (parse_append_comment_iff rfl rfl (by decide)).2 (by decide)⟩

/-- With a carriage return inside it, the line is refused, and the source with it. -/
theorem comment_line_refused :
    (parse "x = 1" = .ok [.assign "x" (.number (.int 1)) ⟨0, 5⟩] ∧
        parse "y = 2" = .ok [.assign "y" (.number (.int 2)) ⟨0, 5⟩] ∧ '\n' ∉ "a\rb".toList) ∧
      parse ("x = 1" ++ "\n--" ++ "a\rb" ++ "\n" ++ "y = 2") =
        .error ⟨.expectedStatement, ⟨"--a\rb\ny = 2".toList, 6⟩⟩ := ⟨⟨rfl, rfl, by decide⟩, rfl⟩

end SymbolBridge.Script
