import SymbolBridge.Proofs.Toml.Scalar

/-!
# Lines that assign a value to a bare key

`Assignment k v` are the texts of a line that gives the key `k` the value `v`. Blanks may stand between the parts. Such a
line is read as what it says, up to its end or that of the text (`lines?_assignment`). Whatever follows a bare key and
its equals sign, if any lines are read then the first one assigns to the key (`lines?_bareKey`).
-/

namespace SymbolBridge.Toml

/-! ## Keys -/

/-- A key that needs no quotes. -/
structure Bare (k : String) : Prop where
  ne_nil : k.toList ≠ []
  isBare : ∀ x ∈ k.toList, isBare x

section

variable {k : String} {b cs : List Char} {x y : Char} {n : Nat}

theorem Bare.exists_cons (hk : Bare k) : ∃ x xs, k.toList = x :: xs ∧ Toml.isBare x := by
  obtain ⟨x, xs, hx⟩ := List.exists_cons_of_ne_nil hk.ne_nil
  exact ⟨x, xs, hx, hk.isBare x (by simp [hx])⟩

theorem ne_of_isBare (hx : isBare x) (hy : isBare y = false) : x ≠ y := by
  rintro rfl
  rw [hy] at hx
  cases hx

theorem isSpace_of_isBare (hx : isBare x) : isSpace x = false := by
  simp [isSpace, ne_of_isBare hx (y := ' ') rfl, ne_of_isBare hx (y := '\t') rfl]

theorem Bare.append_ne (hk : Bare k) (hy : Toml.isBare y = false) {r : List Char} : k.toList ++ cs ≠ y :: r := by
  obtain ⟨x, xs, hd, hx⟩ := hk.exists_cons
  rw [hd]
  exact fun hr => ne_of_isBare hx hy (List.cons.inj hr).1

theorem Bare.skipSpace_append (hk : Bare k) : skipSpace (k.toList ++ cs) = k.toList ++ cs := by
  obtain ⟨x, xs, hd, hx⟩ := hk.exists_cons
  rw [hd]
  exact skipSpace_of_head (isSpace_of_isBare hx)

theorem isBare_of_head (hb : Blanks b) : ∀ x ∈ (b ++ '=' :: cs).head?, isBare x = false := by
  intro x hx
  cases b with
  | nil =>
    obtain rfl : '=' = x := by simpa using hx
    rfl
  | cons y b =>
    obtain rfl : y = x := by simpa using hx
    by_contra hbare
    have hspace := hb y List.mem_cons_self
    rw [isSpace_of_isBare (by simpa using hbare)] at hspace
    cases hspace

theorem simpleKey?_bare (hk : Bare k) (hb : Blanks b) :
    simpleKey? (k.toList ++ (b ++ '=' :: cs)) = some (k, b ++ '=' :: cs) := by
  have htake : (k.toList ++ (b ++ '=' :: cs)).takeWhile isBare = k.toList := by
    rw [List.takeWhile_append_of_pos hk.isBare, Script.takeWhile_eq_nil (isBare_of_head hb), List.append_nil]
  have hdrop : (k.toList ++ (b ++ '=' :: cs)).dropWhile isBare = b ++ '=' :: cs := by
    have h := List.takeWhile_append_dropWhile (p := isBare) (l := k.toList ++ (b ++ '=' :: cs))
    rw [htake] at h
    exact List.append_cancel_left h
  unfold simpleKey?
  split
  · exact absurd ‹_› (hk.append_ne rfl)
  · exact absurd ‹_› (hk.append_ne rfl)
  · simp [htake, hdrop, hk.ne_nil]

theorem keyPath?_bare (hk : Bare k) (hb : Blanks b) :
    keyPath? (n + 1) (k.toList ++ (b ++ '=' :: cs)) = some ([k], '=' :: cs) := by
  have hskip : skipSpace (b ++ '=' :: cs) = '=' :: cs := by rw [skipSpace_append hb, skipSpace_of_head rfl]
  rw [keyPath?, hk.skipSpace_append, simpleKey?_bare hk hb]
  simp [hskip]

end

/-! ## Lines -/

/-- A line that assigns the value `v` to the bare key `k`, without its end. -/
inductive Assignment (k : String) (v : Value) : List Char → Prop
  | mk {indent before after trail w : List Char} : Blanks indent → Blanks before → Blanks after → Blanks trail →
      v.Spelled w → Assignment k v (indent ++ (k.toList ++ (before ++ '=' :: (after ++ (w ++ trail)))))

section

variable {k : String} {v : Value} {indent b line cs rest t : List Char} {n : Nat}

/-- The first character of a key starts no comment and ends no line. -/
theorem Bare.endOfLine?_eq_none (hk : Bare k) : endOfLine? (k.toList ++ cs) = none := by
  have hcomment : skipComment (k.toList ++ cs) = k.toList ++ cs := by
    unfold skipComment
    rw [hk.skipSpace_append]
    split
    · exact absurd ‹_› (hk.append_ne rfl)
    · rfl
  unfold endOfLine?
  rw [hcomment]
  split
  · exact absurd (List.append_eq_nil_iff.1 ‹_›).1 hk.ne_nil
  · unfold newline?
    split
    · exact absurd ‹_› (hk.append_ne rfl)
    · exact absurd ‹_› (hk.append_ne rfl)
    · rfl

/-- At a bare key a line neither is blank nor opens a table. -/
theorem lines?_at_bareKey (hindent : Blanks indent) (hk : Bare k) : lines? (n + 1) (indent ++ (k.toList ++ cs)) =
    (line? (k.toList ++ cs)).bind fun (line, rest) => (lines? n rest).map (line :: ·) := by
  rw [lines?, skipSpace_append hindent, hk.skipSpace_append]
  split
  · exact absurd (List.append_eq_nil_iff.1 ‹_›).1 hk.ne_nil
  · simp only [hk.endOfLine?_eq_none, Option.map_eq_bind]
    rfl

/-- At a bare key and its equals sign a line is a value and nothing more. -/
theorem line?_at_bareKey (hk : Bare k) (hb : Blanks b) : line? (k.toList ++ (b ++ '=' :: cs)) =
    (value? cs.length (skipSpace cs)).bind fun (v, rest) => (endOfLine? rest).map fun rest => (.assign [k] v, rest) := by
  have hlength : ∃ m, (k.toList ++ (b ++ '=' :: cs)).length = m + 1 :=
    ⟨(k.toList ++ (b ++ cs)).length, by simp; omega⟩
  obtain ⟨m, hm⟩ := hlength
  unfold line?
  split
  · exact absurd ‹_› (hk.append_ne rfl)
  · exact absurd ‹_› (hk.append_ne rfl)
  · simp only [hm, keyPath?_bare hk hb, Option.map_eq_bind]
    rfl

theorem line?_assignment {before after trail w : List Char} (hk : Bare k) (hbefore : Blanks before)
    (hafter : Blanks after) (htrail : Blanks trail) (hw : v.Spelled w) (hfits : v.Fits) (hend : LineEnd cs rest) :
    line? (k.toList ++ (before ++ '=' :: (after ++ (w ++ (trail ++ cs))))) = some (.assign [k] v, rest) := by
  have hlength : ∃ m, (after ++ (w ++ (trail ++ cs))).length = m + 1 := by
    obtain ⟨x, xs, rfl⟩ := List.exists_cons_of_ne_nil hw.ne_nil
    exact ⟨(after ++ (xs ++ (trail ++ cs))).length, by simp; omega⟩
  obtain ⟨m, hm⟩ := hlength
  simp only [line?_at_bareKey hk hbefore, hm, skipSpace_append hafter, hw.skipSpace_append,
    value?_of_spelled hw hfits (stop_of_lineEnd htrail hend), Option.bind_some, endOfLine?_of_lineEnd htrail hend,
    Option.map_some]

theorem lines?_assignment (hk : Bare k) (hline : Assignment k v line) (hfits : v.Fits) (hend : LineEnd cs rest) :
    lines? (n + 1) (line ++ cs) = (lines? n rest).map (.assign [k] v :: ·) := by
  obtain @⟨indent, before, after, trail, w, hindent, hbefore, hafter, htrail, hw⟩ := hline
  have hread := line?_assignment hk hbefore hafter htrail hw hfits hend
  simp only [List.append_assoc, List.cons_append]
  rw [lines?_at_bareKey hindent hk, hread, Option.bind_some]

theorem lines?_bareKey (hindent : Blanks indent) (hk : Bare k) (hb : Blanks b) {ls : List Line}
    (h : lines? (n + 1) (indent ++ (k.toList ++ (b ++ '=' :: t))) = some ls) :
    ∃ v more, ls = .assign [k] v :: more := by
  rw [lines?_at_bareKey hindent hk, line?_at_bareKey hk hb] at h
  simp only [Option.bind_eq_some_iff, Option.map_eq_some_iff] at h
  obtain ⟨-, ⟨⟨v, -⟩, -, -, -, rfl⟩, more, -, rfl⟩ := h
  exact ⟨v, more, rfl⟩

/-- A line that starts with a bare key starts with a blank or a character of the key. -/
theorem bareKey_append_ne {y : Char} (hindent : Blanks indent) (hk : Bare k) (hspace : isSpace y = false)
    (hbare : isBare y = false) : indent ++ (k.toList ++ cs) ≠ y :: rest := by
  intro h
  cases indent with
  | nil => exact hk.append_ne hbare h
  | cons x indent =>
    have hx := hindent x List.mem_cons_self
    rw [(List.cons.inj h).1, hspace] at hx
    cases hx

theorem Assignment.append_ne {y : Char} (hline : Assignment k v line) (hk : Bare k) (hspace : isSpace y = false)
    (hbare : isBare y = false) : line ++ cs ≠ y :: rest := by
  obtain ⟨hindent, -, -, -, -⟩ := hline
  rw [List.append_assoc, List.append_assoc]
  exact bareKey_append_ne hindent hk hspace hbare

theorem Assignment.length_pos (hline : Assignment k v line) : 0 < line.length := by
  cases hline
  simp only [List.length_append, List.length_cons]
  omega

theorem LineEnd.length_le (h : LineEnd cs rest) : rest.length ≤ cs.length := by
  cases h <;> simp
  omega

/-- A text without a byte order mark is read from its first character on. -/
theorem read?_ofList (h : ∀ r, cs ≠ '\ufeff' :: r) :
    read? (String.ofList cs) = (lines? cs.length cs).bind (Entries.addLines [] []) := by
  unfold read?
  rw [String.toList_ofList]
  split
  · exact absurd rfl (h _)
  · rfl

end

end SymbolBridge.Toml
