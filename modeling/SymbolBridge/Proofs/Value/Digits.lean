import Mathlib.Data.Int.ModEq
import Mathlib.Data.Nat.Digits.Defs
import SymbolBridge.Proofs.Text.Cut
import SymbolBridge.Proofs.Value.Notation
import SymbolBridge.Value.Basic

/-!
# The integers that digits write

`magnitude` is what digits write in a base, however many there are. Decimal digits are read as the integer they write if
it has 64 bits and as a double if not (`Number.read?_decimal`), hexadecimal digits modulo `2 ^ 64` up to a magnitude of
64 bits (`Number.read?_hexadecimal`). A text that is asked for its integer may have blanks around them
(`Value.toInteger?_padded`).
-/

namespace SymbolBridge

/-! ## Digits as numbers -/

def hexDigits : List Char := "0123456789abcdefABCDEF".toList

/-- The place of a digit among the digits of base 16; a letter counts in either case. -/
def digitValue (c : Char) : Nat := "0123456789abcdef".toList.idxOf c.toLower

/-- The number that digits write in a base, the last of them the units. -/
def magnitude (base : Nat) (ds : List Char) : Nat := Nat.ofDigits base (ds.map digitValue).reverse

section

variable {a b c : Char} {ds : List Char}

/-- The characters from `a` to `b`. -/
def charsBetween (a b : Char) : List Char := (List.range' a.toNat (b.toNat + 1 - a.toNat)).map Char.ofNat

theorem mem_charsBetween (ha : a ≤ c) (hb : c ≤ b) : c ∈ charsBetween a b := by
  have ha : a.toNat ≤ c.toNat := ha
  have hb : c.toNat ≤ b.toNat := hb
  exact List.mem_map.2 ⟨c.toNat, List.mem_range'_1.2 ⟨ha, by omega⟩, Char.ofNat_toNat c⟩

theorem mem_hexDigits_of_mem {cs : List Char} (h : cs.all hexDigits.contains = true) (hc : c ∈ cs) : c ∈ hexDigits :=
  List.contains_iff_mem.1 (List.all_eq_true.1 h c hc)

theorem isHexDigit_iff : isHexDigit c ↔ c ∈ hexDigits := by
  constructor
  · intro h
    have hrange : '0' ≤ c ∧ c ≤ '9' ∨ 'a' ≤ c ∧ c ≤ 'f' ∨ 'A' ≤ c ∧ c ≤ 'F' := by
      by_contra hno
      simp only [not_or] at hno
      simp [isHexDigit, hexDigit?, hno] at h
    rcases hrange with h | h | h <;> exact mem_hexDigits_of_mem (by decide) (mem_charsBetween h.1 h.2)
  · have hall : hexDigits.all isHexDigit = true := by decide
    exact List.all_eq_true.1 hall c

theorem mem_hexDigits_of_isDigit (h : c.isDigit) : c ∈ hexDigits := by
  have hrange : '0' ≤ c ∧ c ≤ '9' := by
    rw [Char.isDigit, Bool.and_eq_true, decide_eq_true_eq, decide_eq_true_eq] at h
    exact h
  exact mem_hexDigits_of_mem (by decide) (mem_charsBetween hrange.1 hrange.2)

/-- Horner's rule. -/
theorem foldl_digits (base : Nat) {f : Char → Nat} (h : ∀ c ∈ ds, f c = digitValue c) :
    ds.foldl (fun n c => n * base + f c) 0 = magnitude base ds := by
  have hf : ds.map f = ds.map digitValue := List.map_congr_left h
  rw [magnitude, ← hf, Nat.ofDigits_eq_foldr, List.foldr_reverse, List.foldl_map]
  simp only [Nat.cast_id, Nat.add_comm, Nat.mul_comm]

theorem decimalValue_eq_magnitude (h : ∀ c ∈ ds, c.isDigit) : decimalValue 0 ds = magnitude 10 ds := by
  have hall : hexDigits.all (fun c => !c.isDigit || c.toNat - '0'.toNat == digitValue c) = true := by decide
  refine foldl_digits 10 fun c hc => ?_
  have hc' := List.all_eq_true.1 hall c (mem_hexDigits_of_isDigit (h c hc))
  simpa only [h c hc, Bool.not_true, Bool.false_or, beq_iff_eq] using hc'

theorem hexValue_eq_magnitude (h : ∀ c ∈ ds, isHexDigit c) : hexValue ds = magnitude 16 ds := by
  have hall : hexDigits.all (fun c => (hexDigit? c).getD 0 == digitValue c) = true := by decide
  exact foldl_digits 16 fun c hc => beq_iff_eq.1 (List.all_eq_true.1 hall c (isHexDigit_iff.1 (h c hc)))

end

/-! ## Reading them -/

namespace Number

/-- A minus sign in front of a text, or nothing. -/
def withSign (negative : Bool) (cs : List Char) : List Char := if negative then '-' :: cs else cs

/-- An integer by its sign and its magnitude. -/
def signed (negative : Bool) (m : Nat) : Int := if negative then -m else m

section

variable (negative : Bool) {x : Char} {cs ds : List Char}

theorem read?_withSign (h : ∀ rest, cs ≠ '-' :: rest) : read? (withSign negative cs) = readUnsigned? negative cs := by
  cases negative with
  | false => exact read?_of_ne h
  | true => rfl

theorem Digits.ne_hyphen (h : Digits ds) (rest : List Char) : ds ≠ '-' :: rest := by
  rintro rfl
  exact absurd (h.2 '-' List.mem_cons_self) (by decide)

theorem readInt64?_digits (hds : Digits ds) : readInt64? negative ds =
    if fitsInt64 (signed negative (magnitude 10 ds)) then some (Int64.ofInt (signed negative (magnitude 10 ds)))
    else none := by
  simp only [readInt64?, digits_iff.1 hds, Bool.false_eq_true, if_false, decimalValue_eq_magnitude hds.2]
  rfl

theorem fitsInt64_iff {n : Int} : fitsInt64 n ↔ -2 ^ 63 ≤ n ∧ n < 2 ^ 63 := by
  have hmin : Int64.minValue.toInt = -2 ^ 63 := by decide
  have hmax : Int64.maxValue.toInt = 2 ^ 63 - 1 := by decide
  simp only [fitsInt64, hmin, hmax, Bool.and_eq_true, decide_eq_true_eq]
  omega

theorem read?_decimal (hds : Digits ds) : read? (withSign negative ds) =
    if fitsInt64 (signed negative (magnitude 10 ds)) then some (.int (Int64.ofInt (signed negative (magnitude 10 ds))))
    else some (.float (Binary64.nearest negative (magnitude 10 ds) 0)) := by
  have hdecimal : Decimal ds := List.append_nil ds ▸ hds.decimal_append (by simp)
  have hread : DecimalNumeral.read? ds = some ⟨ds, [], 0⟩ := by
    have h := read?_of_no_point (r := []) hds (by simp)
    rwa [List.append_nil] at h
  have hfloat : (DecimalNumeral.mk ds [] 0).toBinary64 negative = Binary64.nearest negative (magnitude 10 ds) 0 := by
    rw [← decimalValue_eq_magnitude hds.2]
    rfl
  rw [read?_withSign negative hds.ne_hyphen, readUnsigned?_decimal hdecimal, readInt64?_digits negative hds, hread]
  by_cases hfits : fitsInt64 (signed negative (magnitude 10 ds)) = true
  · simp only [hfits, if_true]
  · rw [if_neg hfits, if_neg hfits, Option.map_some, hfloat]

theorem read?_hexadecimal (hx : x = 'x' ∨ x = 'X') (hds : HexDigits ds) : read? (withSign negative ('0' :: x :: ds)) =
    if magnitude 16 ds < 2 ^ 64 then some (.int (Int64.ofInt (signed negative (magnitude 16 ds)))) else none := by
  have hword : readHexWord? ds = if magnitude 16 ds < 2 ^ 64 then some (magnitude 16 ds) else none := by
    rw [← hexValue_eq_magnitude hds.2]
    split
    · exact (readHexWord?_eq_some_iff hds.head?_ne_plus).2 ⟨hds, ‹_›, rfl⟩
    · refine Option.eq_none_iff_forall_ne_some.2 fun n hn => ?_
      exact absurd ((readHexWord?_eq_some_iff hds.head?_ne_plus).1 hn).2.1 ‹_›
  rw [read?_withSign negative (by simp), readUnsigned?_hexadecimal hx, hword]
  by_cases hlt : magnitude 16 ds < 2 ^ 64
  · rw [if_pos hlt, if_pos hlt]
    rfl
  · rw [if_neg hlt, if_neg hlt]
    rfl

end

/-! ## Blanks around them -/

/-- Decimal digits, or `0x` and hexadecimal digits, with a minus sign in front or none. -/
inductive Integral : List Char → Prop
  | decimal {negative : Bool} {ds : List Char} : Digits ds → Integral (withSign negative ds)
  | hexadecimal {negative : Bool} {x : Char} {ds : List Char} : x = 'x' ∨ x = 'X' → HexDigits ds →
      Integral (withSign negative ('0' :: x :: ds))

section

variable {negative : Bool} {c x : Char} {cs ds : List Char}

theorem mem_withSign (h : c ∈ withSign negative cs) : c = '-' ∨ c ∈ cs := by
  cases negative with
  | false => exact .inr h
  | true => exact List.mem_cons.1 h

theorem isBlank_of_mem_hexDigits (h : c ∈ hexDigits) : Text.isBlank c = false := by
  have hall : hexDigits.all (fun d => !Text.isBlank d) = true := by decide
  simpa only [Bool.not_eq_true'] using List.all_eq_true.1 hall c h

theorem Integral.isBlank_eq_false (h : Integral cs) (hc : c ∈ cs) : Text.isBlank c = false := by
  cases h with
  | decimal hds =>
    rcases mem_withSign hc with rfl | hc
    · rfl
    · exact isBlank_of_mem_hexDigits (mem_hexDigits_of_isDigit (hds.2 c hc))
  | hexadecimal hx hds =>
    rcases mem_withSign hc with rfl | hc
    · rfl
    · rcases List.mem_cons.1 hc with rfl | hc
      · rfl
      rcases List.mem_cons.1 hc with rfl | hc
      · rcases hx with rfl | rfl <;> rfl
      · exact isBlank_of_mem_hexDigits (isHexDigit_iff.1 (hds.2 c hc))

theorem Integral.ne_nil (h : Integral cs) : cs ≠ [] := by
  cases h with
  | @decimal negative ds hds =>
    cases negative with
    | false => exact hds.1
    | true => exact List.cons_ne_nil _ _
  | @hexadecimal negative x ds _ _ => cases negative <;> exact List.cons_ne_nil _ _

end

end Number

theorem Value.toInteger?_padded {before text after : List Char} {n : Int64} (hbefore : ∀ c ∈ before, Text.isBlank c)
    (htext : Number.Integral text) (hafter : ∀ c ∈ after, Text.isBlank c) (h : Number.read? text = some (.int n)) :
    (Value.str (String.ofList (before ++ text ++ after))).toInteger? = some n := by
  have htrim := Text.trim_padded hbefore (fun c => htext.isBlank_eq_false) hafter htext.ne_nil
  rw [Value.toInteger?, String.toList_ofList, htrim, h]
  rfl

/-! ## Both notations -/

namespace Number

/-- **The integers that digits write.** However many decimal digits there are, they are read as the integer they write,
or as the double nearest to it if it has more than 64 bits. Hexadecimal digits are read as the integer of 64 bits that
is congruent to what they write, and as nothing if the magnitude alone has more. Whoever asks a text for its integer
gets the same one, blanks around the digits or not. -/
theorem read?_of_digits (negative : Bool) :
    (∀ ds, ds ≠ [] → (∀ c ∈ ds, c.isDigit) → ∀ v, v = signed negative (magnitude 10 ds) →
      (-2 ^ 63 ≤ v ∧ v ≤ 2 ^ 63 - 1 → ∃ n, read? (withSign negative ds) = some (.int n) ∧ n.toInt = v) ∧
        (¬ (-2 ^ 63 ≤ v ∧ v ≤ 2 ^ 63 - 1) →
          read? (withSign negative ds) = some (.float (Binary64.nearest negative (magnitude 10 ds) 0)))) ∧
      (∀ x ds, x = 'x' ∨ x = 'X' → ds ≠ [] → (∀ c ∈ ds, c ∈ hexDigits) →
        (magnitude 16 ds < 2 ^ 64 → ∃ n, read? (withSign negative ('0' :: x :: ds)) = some (.int n) ∧
          n.toInt ≡ signed negative (magnitude 16 ds) [ZMOD 2 ^ 64]) ∧
          (2 ^ 64 ≤ magnitude 16 ds → read? (withSign negative ('0' :: x :: ds)) = none)) ∧
      ∀ text n before after, Integral text → read? text = some (.int n) → (∀ c ∈ before, Text.isBlank c) →
        (∀ c ∈ after, Text.isBlank c) →
        (Value.str (String.ofList (before ++ text ++ after))).toInteger? = some n := by
  refine ⟨fun ds hne hds v hv => ⟨fun hfits => ?_, fun hfits => ?_⟩,
    fun x ds hx hne hds => ⟨fun hlt => ?_, fun hle => ?_⟩,
    fun text n before after htext hread hbefore hafter => Value.toInteger?_padded hbefore htext hafter hread⟩
  · have hfits : -2 ^ 63 ≤ v ∧ v < 2 ^ 63 := by omega
    have hread := read?_decimal negative ⟨hne, hds⟩
    rw [← hv, if_pos (fitsInt64_iff.2 hfits)] at hread
    exact ⟨_, hread, Int64.toInt_ofInt_of_le hfits.1 hfits.2⟩
  · have hfits : ¬ fitsInt64 v := fun h => hfits (by have := fitsInt64_iff.1 h; omega)
    rw [read?_decimal negative ⟨hne, hds⟩, ← hv, if_neg hfits]
  · have hread := read?_hexadecimal negative hx ⟨hne, fun c hc => isHexDigit_iff.2 (hds c hc)⟩
    rw [if_pos hlt] at hread
    refine ⟨_, hread, ?_⟩
    rw [Int64.toInt_ofInt]
    exact Int.bmod_emod
  · rw [read?_hexadecimal negative hx ⟨hne, fun c hc => isHexDigit_iff.2 (hds c hc)⟩, if_neg (Nat.not_lt.2 hle)]

example : read? "-09223372036854775808".toList = some (.int Int64.minValue) := by decide

example : read? "0xFFFFffffffffffff".toList = some (.int (-1)) := by decide

end Number

end SymbolBridge
