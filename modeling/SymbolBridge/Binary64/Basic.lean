import SymbolBridge.Integer

/-!
# Binary64 numbers

A `Binary64` is the 64-bit pattern of an IEEE 754 double. `datum` says what it stands for: a finite `± m · 2 ^ e` with
exact `m` and `e`, an infinity, or no number. Comparison and conversion to integers are defined on that, in exact
integer arithmetic.
-/

namespace SymbolBridge

/-- A double-precision number by its bit pattern: sign, eleven bits of exponent, fifty-two of fraction. -/
structure Binary64 where
  bits : UInt64
  deriving DecidableEq, Repr

namespace Binary64

/-- What a pattern stands for. -/
inductive Datum where
  /-- The number `m · 2 ^ e`, negated if `negative`; zero has both signs. -/
  | finite (negative : Bool) (m : Nat) (e : Int)
  | infinite (negative : Bool)
  | notANumber
  deriving DecidableEq, Repr

def isNegative (x : Binary64) : Bool := x.bits.toNat / pow2 63 = 1

def exponentField (x : Binary64) : Nat := x.bits.toNat / pow2 52 % pow2 11

def fraction (x : Binary64) : Nat := x.bits.toNat % pow2 52

def datum (x : Binary64) : Datum :=
  if x.exponentField = 2047 then
    if x.fraction = 0 then .infinite x.isNegative else .notANumber
  else if x.exponentField = 0 then .finite x.isNegative x.fraction (-1074)
  else .finite x.isNegative (pow2 52 + x.fraction) (x.exponentField - 1075)

/-- The pattern with the given sign and the remaining sixty-three bits. -/
def ofMagnitude (negative : Bool) (magnitude : Nat) : Binary64 :=
  ⟨UInt64.ofNat ((if negative then pow2 63 else 0) + magnitude)⟩

/-- The bits of an infinity, sign apart; every finite magnitude is smaller. -/
def infinityMagnitude : Nat := 2047 * pow2 52

/-- The equality of IEEE 754: the two zeros are equal, and what is no number equals nothing. -/
def equal (x y : Binary64) : Bool :=
  match x.datum, y.datum with
  | .notANumber, _ | _, .notANumber => false
  | .finite _ 0 _, .finite _ 0 _ => true
  | _, _ => x.bits == y.bits

/-- `⌊m · 2 ^ e⌋`. -/
def scaleDown (m : Nat) (e : Int) : Nat :=
  if 0 ≤ e then m * pow2 e.toNat else m / pow2 (-e).toNat

/-- The integer part, cut off towards zero; what lies outside 64 bits goes to the nearest end, and what is no number
to zero. -/
def toInt64 (x : Binary64) : Int64 :=
  match x.datum with
  | .finite negative m e => clampToInt64 (if negative then -(scaleDown m e : Int) else scaleDown m e)
  | .infinite negative => if negative then Int64.minValue else Int64.maxValue
  | .notANumber => 0

/-- `k ≤ m · 2 ^ e < k + 1`. One of the two powers is one. -/
structure IsFloor (m : Nat) (e : Int) (k : Nat) : Prop where
  le : k * pow2 (-e).toNat ≤ m * pow2 e.toNat
  lt : m * pow2 e.toNat < (k + 1) * pow2 (-e).toNat

theorem isFloor_scaleDown (m : Nat) (e : Int) : IsFloor m e (scaleDown m e) := by
  unfold scaleDown
  split
  case isTrue he =>
    have hone : pow2 (-e).toNat = 1 := by
      rw [Int.toNat_of_nonpos (by omega)]
      rfl
    constructor <;> rw [hone] <;> omega
  case isFalse he =>
    have hone : pow2 e.toNat = 1 := by
      rw [Int.toNat_of_nonpos (by omega)]
      rfl
    have hpos : 0 < pow2 (-e).toNat := Nat.two_pow_pos _
    constructor
    · rw [hone, Nat.mul_one]
      exact Nat.div_mul_le_self m _
    · rw [hone, Nat.mul_one]
      exact Nat.lt_mul_of_div_lt (Nat.lt_succ_self _) hpos

/-- The conversion to an integer cuts off towards zero and stops at the ends of the range. -/
theorem toInt_toInt64 (x : Binary64) :
    match x.datum with
    | .finite negative m e => ∃ k, IsFloor m e k ∧ x.toInt64.toInt =
        max Int64.minValue.toInt (min (if negative then -(k : Int) else k) Int64.maxValue.toInt)
    | .infinite negative => x.toInt64 = if negative then Int64.minValue else Int64.maxValue
    | .notANumber => x.toInt64 = 0 := by
  unfold toInt64
  cases x.datum with
  | finite negative m e => exact ⟨scaleDown m e, isFloor_scaleDown m e, toInt_clampToInt64 _⟩
  | infinite negative => rfl
  | notANumber => rfl

end Binary64

end SymbolBridge
