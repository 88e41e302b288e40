/-!
# Measuring and cutting text in bytes

Bounds on names, prompts and lines count bytes of UTF-8, and a cut never splits a character. `takeBytes max` keeps
the characters of a text from the left for as long as they fit in `max` bytes; `splitBytes? n` cuts at exactly `n` bytes
or not at all (`splitBytes?_eq_some_iff`).
-/

namespace SymbolBridge.Text

/-- The bytes that the characters take in UTF-8. -/
def byteLength : List Char → Nat
  | [] => 0
  | c :: cs => c.utf8Size + byteLength cs

@[simp] theorem byteLength_nil : byteLength [] = 0 := rfl

@[simp] theorem byteLength_cons (c : Char) (cs : List Char) : byteLength (c :: cs) = c.utf8Size + byteLength cs := rfl

@[simp] theorem byteLength_append (xs ys : List Char) : byteLength (xs ++ ys) = byteLength xs + byteLength ys := by
  induction xs with
  | nil => simp
  | cons c cs ih => simp [ih, Nat.add_assoc]

/-- The characters from the left that fit in `max` bytes. -/
def takeBytes : Nat → List Char → List Char
  | _, [] => []
  | max, c :: cs => if c.utf8Size ≤ max then c :: takeBytes (max - c.utf8Size) cs else []

theorem takeBytes_prefix (max : Nat) (cs : List Char) : takeBytes max cs <+: cs := by
  induction cs generalizing max with
  | nil => exact List.nil_prefix
  | cons c cs ih =>
    by_cases h : c.utf8Size ≤ max
    · simpa [takeBytes, h] using ih _
    · simp [takeBytes, h]

theorem byteLength_takeBytes_le (max : Nat) (cs : List Char) : byteLength (takeBytes max cs) ≤ max := by
  induction cs generalizing max with
  | nil => simp [takeBytes]
  | cons c cs ih =>
    by_cases h : c.utf8Size ≤ max
    · have := ih (max - c.utf8Size)
      simp [takeBytes, h]
      omega
    · simp [takeBytes, h]

/-- A prefix of a text is what fits in its own bytes. -/
theorem takeBytes_byteLength (xs ys : List Char) : takeBytes (byteLength xs) (xs ++ ys) = xs := by
  induction xs with
  | nil =>
    cases ys with
    | nil => rfl
    | cons y ys =>
      have hy := y.utf8Size_pos
      simp only [List.nil_append, byteLength_nil, takeBytes, if_neg (Nat.not_le.2 hy)]
  | cons c xs ih =>
    have hc : c.utf8Size ≤ c.utf8Size + byteLength xs := Nat.le_add_right _ _
    simp only [List.cons_append, takeBytes, byteLength_cons, if_pos hc, Nat.add_sub_cancel_left, ih]

/-- The characters of the first `n` bytes and those after them, unless the cut lies inside a character or past the end. -/
def splitBytes? : Nat → List Char → Option (List Char × List Char)
  | 0, cs => some ([], cs)
  | _ + 1, [] => none
  | n + 1, c :: cs =>
    if c.utf8Size ≤ n + 1 then (splitBytes? (n + 1 - c.utf8Size) cs).map fun (xs, ys) => (c :: xs, ys) else none

theorem splitBytes?_byteLength (xs ys : List Char) : splitBytes? (byteLength xs) (xs ++ ys) = some (xs, ys) := by
  induction xs with
  | nil => cases ys <;> rfl
  | cons c xs ih =>
    have hc := c.utf8Size_pos
    obtain ⟨k, hk⟩ : ∃ k, c.utf8Size + byteLength xs = k + 1 := ⟨c.utf8Size + byteLength xs - 1, by omega⟩
    have hle : c.utf8Size ≤ k + 1 := by omega
    have hsub : k + 1 - c.utf8Size = byteLength xs := by omega
    simp [hk, splitBytes?, hle, hsub, ih]

theorem splitBytes?_eq_some_iff {n : Nat} {cs xs ys : List Char} :
    splitBytes? n cs = some (xs, ys) ↔ xs ++ ys = cs ∧ byteLength xs = n := by
  constructor
  · intro h
    fun_induction splitBytes? n cs generalizing xs with
    | case1 cs => simp_all
    | case2 => simp at h
    | case3 n c cs hle ih =>
      obtain ⟨⟨a, b⟩, hab, he⟩ := Option.map_eq_some_iff.1 h
      obtain ⟨rfl, rfl⟩ := Prod.mk.inj he
      obtain ⟨rfl, hn⟩ := ih hab
      exact ⟨rfl, by simp only [byteLength_cons]; omega⟩
    | case4 => simp at h
  · rintro ⟨rfl, rfl⟩
    exact splitBytes?_byteLength xs ys

/-- The longest prefix of `s` that fits in `max` bytes. -/
def truncate (max : Nat) (s : String) : String := String.ofList (takeBytes max s.toList)

/-- The characters before the first NUL: what native code sees of a text. -/
def beforeNul (s : List Char) : List Char := s.takeWhile (· ≠ '\x00')

/-- The bytes of a text in UTF-8. -/
def utf8Bytes (cs : List Char) : List UInt8 := cs.flatMap String.utf8EncodeChar

theorem length_utf8Bytes (cs : List Char) : (utf8Bytes cs).length = byteLength cs := by
  induction cs with
  | nil => rfl
  | cons c cs ih => simp_all [utf8Bytes, byteLength]

end SymbolBridge.Text
