import SymbolBridge.Proofs.Script.Joining

/-!
# Where a semicolon separates statements

A semicolon is skipped wherever blanks are, and so inside of statements too. In a source that parses, a semicolon that
no string literal and no comment holds stands in the span of no statement exactly if the texts on its two sides are
sources that parse (`semicolon_separates_iff`). From left to right, the source is cut at the semicolon: the statements in
front of it are read there alone, and so are those behind it (`ReadsAll.split`). From right to left, the sides are joined
again. A semicolon between a callee and its arguments is one that does not separate (`semicolon_in_call`).
-/

namespace SymbolBridge.Script

open Cursor
open Text (byteLength utf8ByteSize_eq_byteLength)

/-- The byte at the offset `n` lies in the span. -/
def Span.Contains (s : Span) (n : Nat) : Prop := s.start ≤ n ∧ n < s.stop

instance (s : Span) (n : Nat) : Decidable (s.Contains n) := inferInstanceAs (Decidable (_ ∧ _))

section

variable {r : List Char} {n : Nat} {c c' d : Cursor} {st : Statement} {ss : List Statement}

/-- Statements to the end of a source, in the source without `n` bytes in front. -/
theorem ReadsAll.back (h : ReadsAll ss c) : ∀ {c' : Cursor}, Cut [] n c c' →
    ReadsAll (ss.map (Statement.mapSpans (Span.back n))) c' := by
  induction h with
  | @nil c he =>
    intro c' hc
    have hrest : c.rest = c'.rest := hc.rest.trans (List.append_nil _)
    refine .nil ?_
    rw [Cursor.skip, rest_advance, ← hrest]
    exact he
  | cons hst _ ih =>
    intro c' hc
    obtain ⟨d', hd, hst'⟩ := hst.cut (hc.skip_statement hst List.nil_suffix) List.nil_suffix
    exact .cons hst' (ih hd)

/-! ## Cutting a source at a separator -/

variable {x : Char} {after : List Char}

/-- A separator in the blanks in front of the first statement. -/
theorem ReadsAll.split_blanks (h : ReadsAll ss c) (hc : Cut (x :: after) n c c') (hx : isSeparator x)
    (hb : Blanks c'.rest) : ReadsAll [] c' ∧ ∃ d, d.rest = after ∧ ReadsAll ss d := by
  have hbx : Blanks (c'.rest ++ [x]) := by
    refine blanks_append_separator hb.blankPrefix_eq hx (.inr ?_)
    rw [Zone.after_blanks hb]
    rfl
  refine ⟨.nil ?_, ⟨after, c.offset + byteLength (c'.rest ++ [x])⟩, rfl, h.of_skip ?_⟩
  · rw [Cursor.skip, rest_advance, hb.blankPrefix_eq, List.drop_length]
  · refine (skip_of_blanks hbx ⟨?_, rfl⟩).symm
    rw [hc.rest, List.append_assoc]
    rfl

theorem Cursor.Cut.exists_eq_append {l : List Char} (hc : Cut (x :: after) n c c') (h : c.Spells l d)
    (hlt : c.offset + byteLength c'.rest < d.offset) : ∃ b, l = c'.rest ++ x :: b := by
  rw [h.offset] at hlt
  obtain ⟨m, hm, -⟩ | ⟨m, hm, htail⟩ := List.append_eq_append_iff.1 (h.rest.symm.trans hc.rest)
  · rw [hm, Text.byteLength_append] at hlt
    omega
  · cases m with
    | nil =>
      rw [hm, List.append_nil] at hlt
      omega
    | cons y m =>
      obtain rfl := (List.cons.inj htail).1
      exact ⟨m, hm⟩

theorem Cursor.Cut.isSuffix {l : List Char} (hc : Cut r n c c') (h : c.Spells l d)
    (hle : d.offset ≤ c.offset + byteLength c'.rest) : r <:+ d.rest := by
  rw [h.offset] at hle
  obtain ⟨m, -, hm⟩ | ⟨m, hm, htail⟩ := List.append_eq_append_iff.1 (h.rest.symm.trans hc.rest)
  · exact ⟨m, hm.symm⟩
  · cases m with
    | nil => exact ⟨[], htail⟩
    | cons y m =>
      have hpos := byteLength_pos (List.cons_ne_nil y m)
      rw [hm, Text.byteLength_append] at hle
      omega

/-- A source is cut at a separator that stands in no statement, no string literal and no comment. What is in front of
it is read alone, and so is what is behind it. -/
theorem ReadsAll.split (h : ReadsAll ss c) (hx : isSeparator x) (hlf : x ≠ '\n') : ∀ {c' : Cursor},
    Cut (x :: after) n c c' → (Zone.code.after c'.rest).isOutside →
    (∀ s ∈ ss, ¬s.span.Contains (c.offset + byteLength c'.rest)) →
    (∃ ss₁, ReadsAll ss₁ c') ∧ ∃ ss₂ d, d.rest = after ∧ ReadsAll ss₂ d := by
  induction h with
  | @nil c he =>
    intro c' hc hz _
    have hb := blanks_append_separator (x := '\n') (blankPrefix_of_skip he) rfl (.inl rfl)
    rw [hc.rest, List.append_assoc] at hb
    obtain ⟨h₁, d, hd, h₂⟩ := (ReadsAll.nil he).split_blanks hc hx (hb.of_append hx hlf hz)
    exact ⟨⟨_, h₁⟩, _, d, hd, h₂⟩
  | @cons c m st ss hst hss ih =>
    intro c' hc hz hs
    obtain ⟨hst', hs⟩ := List.forall_mem_cons.1 hs
    by_cases hlt : c.offset + byteLength c'.rest < c.skip.offset
    · -- the separator is one of the blanks in front of the statement
      obtain ⟨b, hb⟩ := hc.exists_eq_append c.spells_skip hlt
      have hblanks := blanks_of_skip hst.rest_ne_nil
      rw [hb] at hblanks
      obtain ⟨h₁, d, hd, h₂⟩ := (ReadsAll.cons hst hss).split_blanks hc hx (hblanks.of_append hx hlf hz)
      exact ⟨⟨_, h₁⟩, _, d, hd, h₂⟩
    · -- the separator is behind the statement, which is read in front of it
      have hle : m.offset ≤ c.offset + byteLength c'.rest := by
        rw [hst.span_eq] at hst'
        exact Nat.le_of_not_lt fun hm => hst' ⟨Nat.le_of_not_lt hlt, hm⟩
      obtain ⟨l, hl⟩ := c.reaches_skip.trans hst.reaches
      have hr := hc.isSuffix hl hle
      obtain ⟨m', hm, hread⟩ := hst.cut (hc.skip_statement hst hr) hr
      obtain ⟨l', hl', hcode⟩ := (crosses_skip hread.rest_ne_nil).trans hread.crosses
      have hoffset : c.offset + byteLength c'.rest = m.offset + byteLength m'.rest := by
        rw [hc.offset, hm.offset, hl'.rest, hl'.offset, Text.byteLength_append]
        omega
      rw [hl'.rest, Zone.after_append, hcode] at hz
      rw [hoffset] at hs
      obtain ⟨⟨ss₁, h₁⟩, h₂⟩ := ih hm hz hs
      exact ⟨⟨_, .cons hread h₁⟩, h₂⟩

end

section

variable {src before after : String} {ss : List Statement}

theorem stop_le_of_parse (h : parse src = .ok ss) : ∀ s ∈ ss, s.span.stop ≤ src.utf8ByteSize := by
  intro s hs
  obtain ⟨k, d, hk, hd⟩ := (parse_eq_ok_iff.1 h).exists_reads s hs
  obtain ⟨l, hl⟩ := hk.trans hd.reaches
  have hsrc : src.toList = l ++ d.rest := hl.rest
  have hoffset : d.offset = 0 + byteLength l := hl.offset
  rw [hd.span_eq, utf8ByteSize_eq_byteLength, hsrc, Text.byteLength_append]
  show d.offset ≤ _
  omega

/-- **Where a semicolon separates.** In a source that parses, a semicolon outside of string literals and comments stands
in the span of no statement exactly if the text in front of it and the text behind it both parse. -/
theorem semicolon_separates_iff (h : parse (before ++ ";" ++ after) = .ok ss)
    (hz : (Zone.code.after before.toList).isOutside) :
    (∀ s ∈ ss, ¬s.span.Contains before.utf8ByteSize) ↔
      (∃ ss₁, parse before = .ok ss₁) ∧ ∃ ss₂, parse after = .ok ss₂ := by
  have hsrc : (before ++ ";" ++ after).toList = before.toList ++ ';' :: after.toList := by simp
  constructor
  · intro hs
    have hc : Cut (';' :: after.toList) 0 (ofSource (before ++ ";" ++ after)) (ofSource before) := ⟨hsrc, rfl⟩
    have hoffset : before.utf8ByteSize = 0 + byteLength (ofSource before).rest := by
      rw [Nat.zero_add]
      exact utf8ByteSize_eq_byteLength before
    rw [hoffset] at hs
    obtain ⟨⟨ss₁, h₁⟩, ss₂, d, hd, h₂⟩ := (parse_eq_ok_iff.1 h).split rfl (by decide) hc hz hs
    have hcut : Cut [] d.offset d (ofSource after) :=
      ⟨by rw [hd, List.append_nil]; rfl, (Nat.zero_add _).symm⟩
    exact ⟨⟨ss₁, parse_eq_ok_iff.2 h₁⟩, _, parse_eq_ok_iff.2 (h₂.back hcut)⟩
  · rintro ⟨⟨ss₁, h₁⟩, ss₂, h₂⟩ s hs ⟨hstart, hstop⟩
    have hjoin := parse_append_separator h₁ h₂ rfl (.inr hz) hsrc
    rw [Except.ok.inj (h.symm.trans hjoin), List.mem_append, List.mem_map] at hs
    rcases hs with hs | ⟨s₂, -, rfl⟩
    · have hle := stop_le_of_parse h₁ s hs
      omega
    · rw [Statement.span_mapSpans, Span.shift, Text.byteLength_append, ← utf8ByteSize_eq_byteLength] at hstart
      have hone : byteLength [';'] = 1 := rfl
      simp only [hone] at hstart
      omega

end

/-- A semicolon between two calls. -/
theorem semicolon_between_calls :
    (parse ("f(1)" ++ ";" ++ "g(2)") =
          .ok [.call "f" [.number (.int 1)] ⟨0, 4⟩, .call "g" [.number (.int 2)] ⟨5, 9⟩] ∧
        (Zone.code.after "f(1)".toList).isOutside) ∧
      (∃ ss₁, parse "f(1)" = .ok ss₁) ∧ ∃ ss₂, parse "g(2)" = .ok ss₂ := by
  have h : parse ("f(1)" ++ ";" ++ "g(2)") =
      .ok [.call "f" [.number (.int 1)] ⟨0, 4⟩, .call "g" [.number (.int 2)] ⟨5, 9⟩] := rfl
  have hz : (Zone.code.after "f(1)".toList).isOutside := rfl
  exact ⟨⟨h, hz⟩, (semicolon_separates_iff h hz).1 (by decide)⟩

/-- A semicolon between a callee and its arguments, in the span of the call. -/
theorem semicolon_in_call :
    parse ("f" ++ ";" ++ "(1)") = .ok [.call "f" [.number (.int 1)] ⟨0, 5⟩] ∧
      (Zone.code.after "f".toList).isOutside ∧
      (Statement.call "f" [.number (.int 1)] ⟨0, 5⟩).span.Contains "f".utf8ByteSize :=
  ⟨rfl, rfl, by decide⟩

end SymbolBridge.Script
