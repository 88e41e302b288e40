import SymbolBridge.Binary64.Shortest
import SymbolBridge.Text.Quoted
import SymbolBridge.Value.Basic

/-!
# Printed values

Integers print in decimal. A double without a fraction prints all its digits and `.0`, any other one the fewest digits
that read back, never with an exponent.
-/

namespace SymbolBridge

namespace Binary64

/-- `digits · 10 ^ exponent` with a point and no exponent, for negative exponents. -/
def positional (s : Scaled) : String :=
  let ds := Nat.toDigits 10 s.digits
  let places := (-s.exponent).toNat
  let padded := List.replicate (places + 1 - ds.length) '0' ++ ds
  let (whole, fraction) := padded.splitAt (padded.length - places)
  let fraction := (fraction.reverse.dropWhile (· = '0')).reverse
  String.ofList (whole ++ '.' :: fraction)

/-- The magnitude of a finite number. -/
def showMagnitude (m : Nat) (e : Int) : String :=
  if e ≥ 0 || m % pow2 (-e).toNat = 0 then toString (scaleDown m e) ++ ".0"
  else positional (shortest m e)

def toText (x : Binary64) : String :=
  match x.datum with
  | .finite negative m e => (if negative then "-" else "") ++ showMagnitude m e
  | .infinite negative => if negative then "-inf" else "inf"
  | .notANumber => "NaN"

end Binary64

def Number.toText : Number → String
  | .int n => toString n.toInt
  | .float x => x.toText

namespace Value

/-- What printing shows of a value. -/
def toText : Value → String
  | nil => "nil"
  | bool b => if b then "true" else "false"
  | number n => n.toText
  | str s => s
  | table items => "table[" ++ toString items.length ++ "]"
  | function name => "function: " ++ name
  | handle address => "userdata: 0x" ++ Text.hexText address.toNat

/-- The text of a string or of a number: what can be a name, a prompt or a part of a concatenation. -/
def text? : Value → Option String
  | str s => some s
  | number n => some n.toText
  | _ => none

end Value

end SymbolBridge
