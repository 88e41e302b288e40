import SymbolBridge.Binary64.Basic

/-!
# The binary64 number nearest to a decimal

`nearest negative m e` is the double closest to `± m · 10 ^ e`, of two equally close the one with the even
significand. The quotient `num / den` is scaled by a power of two so that its integer part has fifty-three bits (fewer
for subnormal numbers), and that integer is rounded once. A carry out of the rounding moves into the exponent by
itself, because patterns are consecutive over the numbers they stand for.
-/

namespace SymbolBridge.Binary64

/-- `⌊log₂ (num / den)⌋` for positive `num` and `den`. -/
def log2Quotient (num den : Nat) : Int :=
  let k : Int := num.log2 - den.log2
  let reaches : Bool := if 0 ≤ k then den * pow2 k.toNat ≤ num else den ≤ num * pow2 (-k).toNat
  if reaches then k else k - 1

/-- The integer nearest to `num / den`, of two equally near the even one. -/
def roundQuotient (num den : Nat) : Nat :=
  let q := num / den
  let r := 2 * (num % den)
  if den < r || (r == den && q % 2 == 1) then q + 1 else q

/-- The magnitude bits of the double nearest to `num / den`. -/
def nearestMagnitude (num den : Nat) : Nat :=
  if num = 0 then 0
  else
    let e := max (log2Quotient num den - 52) (-1074)
    let m := if 0 ≤ e then roundQuotient num (den * pow2 e.toNat) else roundQuotient (num * pow2 (-e).toNat) den
    min infinityMagnitude ((e + 1074).toNat * pow2 52 + m)

/-- The double nearest to `± m · 10 ^ e`. Beyond `10 ^ ± 400` the answer is known without the power. -/
def nearest (negative : Bool) (m : Nat) (e : Int) : Binary64 :=
  let size : Int := e + (Nat.toDigits 10 m).length
  ofMagnitude negative <|
    if m = 0 || size < -400 then 0
    else if 400 < size then infinityMagnitude
    else if 0 ≤ e then nearestMagnitude (m * pow10 e.toNat) 1
    else nearestMagnitude m (pow10 (-e).toNat)

end SymbolBridge.Binary64
