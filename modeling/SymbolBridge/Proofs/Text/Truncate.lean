import Mathlib.Order.Bounds.Basic
import SymbolBridge.Proofs.Text.Cut

/-!
# Truncation among bytes

A bound on a text counts bytes, and the byte at the bound may lie inside a character. `Text.backOff?` steps back from the
bound, byte by byte, to a place between two characters. These places are the ends of the prefixes of the text
(`Text.isBoundary_utf8Bytes_iff`), so it stops at the end of the longest prefix that fits
(`Text.isGreatest_boundary_takeBytes`): cut there, the bytes are those of the truncated text
(`Text.cutBytes?_utf8Bytes`).

A character has at most four bytes, so at most three bytes of the bound stay unused (`Text.le_byteLength_takeBytes`). One
bound after another is the smaller one of them (`Text.LongestWithin.trans`).
-/

namespace SymbolBridge.Text

/-! ## Places among bytes -/

/-- Whether a place among the bytes of a text is an end of it or the first byte of a character. -/
def isBoundary (bytes : List UInt8) (i : Nat) : Bool :=
  i = 0 || match bytes[i]? with
    | some b => b.IsUTF8FirstByte
    | none => i = bytes.length

/-- The boundary that is found by steps back of one byte each; nothing if a step would lead before the start. -/
def backOff? (bytes : List UInt8) : Nat → Option Nat
  | 0 => if isBoundary bytes 0 then some 0 else none
  | i + 1 => if isBoundary bytes (i + 1) then some (i + 1) else backOff? bytes i

/-- The bytes that are kept under a bound, where the bytes alone tell how far to back off. -/
def cutBytes? (max : Nat) (bytes : List UInt8) : Option (List UInt8) :=
  if bytes.length ≤ max then some bytes else (backOff? bytes max).map bytes.take

section

variable {c : Char} {cs : List Char} {bytes : List UInt8} {i j : Nat}

theorem utf8Bytes_append (xs ys : List Char) : utf8Bytes (xs ++ ys) = utf8Bytes xs ++ utf8Bytes ys :=
  List.flatMap_append

theorem utf8Bytes_cons (c : Char) (cs : List Char) : utf8Bytes (c :: cs) = String.utf8EncodeChar c ++ utf8Bytes cs :=
  List.flatMap_cons

/-- There is no boundary inside a character. -/
theorem isBoundary_inside (hpos : 0 < i) (hlt : i < c.utf8Size) : isBoundary (utf8Bytes (c :: cs)) i = false := by
  have hi : i < (String.utf8EncodeChar c).length := by rwa [String.length_utf8EncodeChar]
  have hbyte : ¬ (String.utf8EncodeChar c)[i].IsUTF8FirstByte := by
    rw [UInt8.isUTF8FirstByte_getElem_utf8EncodeChar]
    omega
  rw [isBoundary, utf8Bytes_cons, List.getElem?_append_left hi, List.getElem?_eq_getElem hi]
  simp only [hbyte, decide_false, Bool.or_false, decide_eq_false_iff_not]
  omega

/-- The end of the first character is a boundary, as the start of the rest is. -/
theorem isBoundary_utf8Size (c : Char) (cs : List Char) : isBoundary (utf8Bytes (c :: cs)) c.utf8Size := by
  rw [isBoundary, utf8Bytes_cons]
  have hle : (String.utf8EncodeChar c).length ≤ c.utf8Size := Nat.le_of_eq (String.length_utf8EncodeChar c)
  rw [List.getElem?_append_right hle, String.length_utf8EncodeChar, Nat.sub_self]
  cases cs with
  | nil => simp [utf8Bytes, String.length_utf8EncodeChar]
  | cons d cs =>
    have hd : 0 < (String.utf8EncodeChar d).length := by
      rw [String.length_utf8EncodeChar]
      exact d.utf8Size_pos
    rw [utf8Bytes_cons, List.getElem?_append_left hd, List.getElem?_eq_getElem hd]
    simp [UInt8.isUTF8FirstByte_getElem_utf8EncodeChar]

/-- Past its first character a text has the boundaries of the rest. -/
theorem isBoundary_add (c : Char) (cs : List Char) (i : Nat) :
    isBoundary (utf8Bytes (c :: cs)) (c.utf8Size + i) = isBoundary (utf8Bytes cs) i := by
  cases i with
  | zero => rw [Nat.add_zero, isBoundary_utf8Size]; rfl
  | succ i =>
    have hle : (String.utf8EncodeChar c).length ≤ c.utf8Size + (i + 1) := by
      rw [String.length_utf8EncodeChar]
      omega
    have hbyte : (utf8Bytes (c :: cs))[c.utf8Size + (i + 1)]? = (utf8Bytes cs)[i + 1]? := by
      rw [utf8Bytes_cons, List.getElem?_append_right hle, String.length_utf8EncodeChar, Nat.add_sub_cancel_left]
    have hlength : (utf8Bytes (c :: cs)).length = c.utf8Size + (utf8Bytes cs).length := by
      rw [utf8Bytes_cons, List.length_append, String.length_utf8EncodeChar]
    rw [isBoundary, isBoundary, hbyte, hlength]
    simp

/-- The boundaries of a text are the ends of its prefixes. -/
theorem isBoundary_utf8Bytes_iff : isBoundary (utf8Bytes cs) i ↔ ∃ p, p <+: cs ∧ byteLength p = i := by
  induction cs generalizing i with
  | nil => simp [isBoundary, utf8Bytes, eq_comm]
  | cons c cs ih =>
    constructor
    · intro h
      rcases Nat.eq_zero_or_pos i with rfl | hpos
      · exact ⟨[], List.nil_prefix, rfl⟩
      · have hle : c.utf8Size ≤ i := by
          by_contra hlt
          rw [isBoundary_inside hpos (Nat.not_le.1 hlt)] at h
          cases h
        obtain ⟨k, rfl⟩ := Nat.exists_eq_add_of_le hle
        rw [isBoundary_add] at h
        obtain ⟨p, hp, rfl⟩ := ih.1 h
        exact ⟨c :: p, (List.prefix_cons_inj c).2 hp, rfl⟩
    · rintro ⟨p, hp, rfl⟩
      cases p with
      | nil => rfl
      | cons d p =>
        obtain ⟨rfl, hrest⟩ := List.cons_prefix_cons.1 hp
        rw [byteLength_cons, isBoundary_add]
        exact ih.2 ⟨p, hrest, rfl⟩

/-! ## Backing off -/

/-- Backing off finds the greatest boundary. -/
theorem backOff?_eq_some (h : IsGreatest {k | k ≤ i ∧ isBoundary bytes k} j) : backOff? bytes i = some j := by
  induction i with
  | zero =>
    obtain ⟨⟨hle, hj⟩, -⟩ := h
    obtain rfl := Nat.le_zero.1 hle
    rw [backOff?, if_pos hj]
  | succ i ih =>
    obtain ⟨⟨hle, hj⟩, hgreatest⟩ := h
    rw [backOff?]
    by_cases hi : isBoundary bytes (i + 1)
    · have hge : i + 1 ≤ j := hgreatest ⟨Nat.le_refl _, hi⟩
      rw [if_pos hi, Nat.le_antisymm hge hle]
    · have hne : j ≠ i + 1 := by
        rintro rfl
        exact hi hj
      rw [if_neg hi]
      exact ih ⟨⟨by omega, hj⟩, fun k hk => hgreatest ⟨Nat.le_succ_of_le hk.1, hk.2⟩⟩

theorem isGreatest_boundary_takeBytes (max : Nat) (cs : List Char) :
    IsGreatest {k | k ≤ max ∧ isBoundary (utf8Bytes cs) k} (byteLength (takeBytes max cs)) := by
  have hkept := longestWithin_takeBytes max cs
  refine ⟨⟨hkept.fits, isBoundary_utf8Bytes_iff.2 ⟨_, hkept.isPrefix, rfl⟩⟩, ?_⟩
  rintro k ⟨hle, hk⟩
  obtain ⟨p, hp, rfl⟩ := isBoundary_utf8Bytes_iff.1 hk
  obtain ⟨more, hmore⟩ := hkept.longest p hp hle
  rw [← hmore, byteLength_append]
  exact Nat.le_add_right _ _

theorem cutBytes?_utf8Bytes (max : Nat) (cs : List Char) :
    cutBytes? max (utf8Bytes cs) = some (utf8Bytes (takeBytes max cs)) := by
  rw [cutBytes?, length_utf8Bytes]
  by_cases hfits : byteLength cs ≤ max
  · rw [if_pos hfits, takeBytes_eq_self_iff.2 hfits]
  · obtain ⟨rest, hrest⟩ := takeBytes_prefix max cs
    have hbytes : utf8Bytes cs = utf8Bytes (takeBytes max cs) ++ utf8Bytes rest := by rw [← utf8Bytes_append, hrest]
    have htake : (utf8Bytes cs).take (byteLength (takeBytes max cs)) = utf8Bytes (takeBytes max cs) := by
      rw [hbytes, ← length_utf8Bytes, List.take_left]
    rw [if_neg hfits, backOff?_eq_some (isGreatest_boundary_takeBytes max cs), Option.map_some, htake]

end

/-! ## Bounds -/

section

variable {a b max : Nat} {text kept other : List Char}

/-- A text that does not fit uses its bound up to the last three bytes. -/
theorem le_byteLength_takeBytes (h : max < byteLength text) : max ≤ byteLength (takeBytes max text) + 3 := by
  have hkept := longestWithin_takeBytes max text
  obtain ⟨rest, hrest⟩ := hkept.isPrefix
  cases rest with
  | nil =>
    rw [List.append_nil] at hrest
    rw [hrest]
    omega
  | cons c rest =>
    -- With one character more the prefix is too long, and a character has at most four bytes.
    have hnext : takeBytes max text ++ [c] <+: text := ⟨rest, by rw [List.append_assoc]; exact hrest⟩
    have hlong : ¬ byteLength (takeBytes max text ++ [c]) ≤ max := by
      intro hfits
      have hle := (hkept.longest _ hnext hfits).length_le
      rw [List.length_append, List.length_singleton] at hle
      omega
    have hfour := c.utf8Size_le_four
    rw [byteLength_append, byteLength_cons, byteLength_nil] at hlong
    omega

/-- The longest prefix within one bound and then within another is the longest one within both. -/
theorem LongestWithin.trans (h : LongestWithin a text kept) (h' : LongestWithin b kept other) :
    LongestWithin (min a b) text other where
  isPrefix := h'.isPrefix.trans h.isPrefix
  fits := by
    obtain ⟨more, rfl⟩ := h'.isPrefix
    have ha := h.fits
    have hb := h'.fits
    rw [byteLength_append] at ha
    omega
  longest p hp hfits := by
    have hkept : p <+: kept := h.longest p hp (Nat.le_trans hfits (Nat.min_le_left a b))
    exact h'.longest p hkept (Nat.le_trans hfits (Nat.min_le_right a b))

theorem LongestWithin.mono (h : LongestWithin a text kept) (h' : LongestWithin b text other) (hle : a ≤ b) :
    kept <+: other :=
  h'.longest kept h.isPrefix (Nat.le_trans h.fits hle)

end

theorem truncate_truncate (a b : Nat) (s : String) : truncate b (truncate a s) = truncate (min a b) s := by
  have hboth := (longestWithin_truncate a s).trans (longestWithin_truncate b (truncate a s))
  rw [← String.toList_inj]
  exact hboth.eq (longestWithin_truncate (min a b) s)

theorem truncate_eq_self_iff {max : Nat} {s : String} : truncate max s = s ↔ s.utf8ByteSize ≤ max := by
  rw [← String.toList_inj, truncate, String.toList_ofList, takeBytes_eq_self_iff, utf8ByteSize_eq_byteLength]

/-- **Truncation keeps the longest prefix within the bound,** so a text that fits stays whole, and one that does not uses
the bound up to three bytes. The steps back from the bound end inside the text, at the last byte that is kept, and what
they cut off among the bytes is what truncation drops. A second bound cuts as if the smaller one of the two had been the
only one, and under a larger bound no less is kept. -/
theorem truncate_backs_off (a : Nat) (s : String) :
    LongestWithin a s.toList (truncate a s).toList ∧
    (s.utf8ByteSize ≤ a → truncate a s = s) ∧
    (a < s.utf8ByteSize → a ≤ (truncate a s).utf8ByteSize + 3) ∧
    backOff? (utf8Bytes s.toList) a = some (truncate a s).utf8ByteSize ∧
    cutBytes? a (utf8Bytes s.toList) = some (utf8Bytes (truncate a s).toList) ∧
    (∀ b, truncate b (truncate a s) = truncate (min a b) s) ∧
    ∀ b, a ≤ b → (truncate a s).toList <+: (truncate b s).toList := by
  have hkept : (truncate a s).toList = takeBytes a s.toList := by rw [truncate, String.toList_ofList]
  refine ⟨longestWithin_truncate a s, truncate_eq_self_iff.2, fun hlong => ?_, ?_, ?_, fun b => truncate_truncate a b s,
    fun b hle => (longestWithin_truncate a s).mono (longestWithin_truncate b s) hle⟩
  · rw [utf8ByteSize_eq_byteLength] at hlong ⊢
    rw [hkept]
    exact le_byteLength_takeBytes hlong
  · rw [utf8ByteSize_eq_byteLength, hkept]
    exact backOff?_eq_some (isGreatest_boundary_takeBytes a s.toList)
  · rw [hkept]
    exact cutBytes?_utf8Bytes a s.toList

/-- Three bytes of the bound are not used where the first character takes four. -/
example : truncate 3 "😀!" = "" ∧ backOff? (utf8Bytes "😀!".toList) 3 = some 0 := by decide

end SymbolBridge.Text
