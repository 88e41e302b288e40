/-!
# Integers of 64 bits, and powers

The range of the integers that scripts have, and the powers that formats of numbers are built on.
-/

namespace SymbolBridge

/-- `2 ^ n`. -/
def pow2 (n : Nat) : Nat := Nat.pow 2 n

/-- `10 ^ n`. -/
def pow10 (n : Nat) : Nat := Nat.pow 10 n

/-- Whether an integer has 64 bits. -/
def fitsInt64 (n : Int) : Bool := Int64.minValue.toInt ≤ n && n ≤ Int64.maxValue.toInt

/-- The nearest integer of 64 bits. -/
def clampToInt64 (n : Int) : Int64 :=
  if n < Int64.minValue.toInt then Int64.minValue
  else if Int64.maxValue.toInt < n then Int64.maxValue
  else Int64.ofInt n

theorem toInt_clampToInt64 (n : Int) :
    (clampToInt64 n).toInt = max Int64.minValue.toInt (min n Int64.maxValue.toInt) := by
  have hmin : Int64.minValue.toInt = -2 ^ 63 := Int64.toInt_minValue
  have hmax : Int64.maxValue.toInt = 2 ^ 63 - 1 := Int64.toInt_maxValue
  unfold clampToInt64
  split
  · omega
  · split
    · omega
    · rw [Int64.toInt_ofInt_of_le (by omega) (by omega)]
      omega

end SymbolBridge
