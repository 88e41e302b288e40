import SymbolBridge.Binary64.Basic

/-!
# The fewest digits that read back

The reals that round to `m · 2 ^ e` form an interval around it, with its ends exactly if `m` is even. On the grid of
`p` digits the number has two neighbours, and `shortest` takes the first grid on which one of them lies in the interval;
of two the nearer, and the upper one if they are equally near. Seventeen digits always suffice.
-/

namespace SymbolBridge.Binary64

/-- A decimal number `digits · 10 ^ exponent`. -/
structure Scaled where
  digits : Nat
  exponent : Int
  deriving DecidableEq, Repr

/-- The interval of reals that round to a number: numerators over one denominator. -/
structure Interval where
  low : Nat
  value : Nat
  high : Nat
  den : Nat
  closed : Bool

/-- The interval of `m · 2 ^ e`. Below a power of two the next number is half as far away. -/
def interval (m : Nat) (e : Int) : Interval :=
  let step := if m = pow2 52 && e != -1074 then 1 else 2
  let scale := pow2 (e - 2).toNat
  ⟨(4 * m - step) * scale, 4 * m * scale, (4 * m + 2) * scale, pow2 (2 - e).toNat, m % 2 = 0⟩

/-- The number of decimal places before the point, which is zero or negative for numbers below one tenth. -/
def magnitude10 (value den : Nat) : Int :=
  ((Nat.toDigits 10 (value * pow10 400 / den)).length : Int) - 400

/-- The neighbour on the grid `10 ^ g` that stands for the number, if one does. -/
def onGrid (i : Interval) (g : Int) : Option Nat :=
  let up := pow10 (-g).toNat
  let unit := pow10 g.toNat * i.den
  let (low, value, high) := (i.low * up, i.value * up, i.high * up)
  let floor := value / unit
  let within (a b : Nat) : Bool := a < b || (i.closed && a == b)
  let lower := within low (floor * unit)
  let upper := within ((floor + 1) * unit) high
  if upper && (!lower || unit ≤ 2 * (value - floor * unit)) then some (floor + 1)
  else if lower then some floor
  else none

/-- The first grid from `p` digits on, of the next `fuel`, that has a neighbour. -/
def firstGrid (i : Interval) (top : Int) (p : Nat) : Nat → Scaled
  | 0 => ⟨i.value / i.den, 0⟩
  | fuel + 1 =>
    match onGrid i (top - p) with
    | some n => ⟨n, top - p⟩
    | none => firstGrid i top (p + 1) fuel

/-- The shortest decimal that reads back as `m · 2 ^ e`, for positive `m`. -/
def shortest (m : Nat) (e : Int) : Scaled :=
  let i := interval m e
  firstGrid i (magnitude10 i.value i.den) 1 17

end SymbolBridge.Binary64
