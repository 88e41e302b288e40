import SymbolBridge.Binary64.Nearest

/-!
# Reading numbers

`Number.read?` accepts a decimal integer, a decimal fraction with or without an exponent, and a hexadecimal integer
after `0x`, each with a minus sign in front or none. A decimal integer outside 64 bits becomes a `Binary64`, a
hexadecimal one wraps into 64 bits and is refused above them.
-/

namespace SymbolBridge

/-- A number of a script: a signed 64-bit integer or a double. -/
inductive Number where
  | int (n : Int64)
  | float (x : Binary64)
  deriving DecidableEq, Repr

/-! ## Digits -/

/-- The value of a hexadecimal digit of either case. -/
def hexDigit? (c : Char) : Option Nat :=
  if '0' ≤ c ∧ c ≤ '9' then some (c.toNat - '0'.toNat)
  else if 'a' ≤ c ∧ c ≤ 'f' then some (c.toNat - 'a'.toNat + 10)
  else if 'A' ≤ c ∧ c ≤ 'F' then some (c.toNat - 'A'.toNat + 10)
  else none

def isHexDigit (c : Char) : Bool := (hexDigit? c).isSome

/-- The number that decimal digits write, continuing from `acc`. -/
def decimalValue (acc : Nat) (ds : List Char) : Nat :=
  ds.foldl (fun n c => n * 10 + (c.toNat - '0'.toNat)) acc

/-- The number that hexadecimal digits write. -/
def hexValue (ds : List Char) : Nat :=
  ds.foldl (fun n c => n * 16 + (hexDigit? c).getD 0) 0

/-- The character with a code in hexadecimal. -/
def charOfHex? (digits : List Char) : Option Char :=
  if digits.all isHexDigit then
    let n := hexValue digits
    if h : n.isValidChar then some (.ofNatAux n h) else none
  else none

/-- A word of 64 bits in hexadecimal, with a plus sign in front or none. -/
def readHexWord? (cs : List Char) : Option Nat :=
  let ds := match cs with
    | '+' :: rest => rest
    | _ => cs
  if ds.isEmpty || !ds.all isHexDigit then none
  else if hexValue ds < pow2 64 then some (hexValue ds) else none

/-! ## Decimal numerals -/

/-- An unsigned decimal numeral in parts: `digits.places` times ten to `exponent`. -/
structure DecimalNumeral where
  digits : List Char
  places : List Char
  exponent : Int
  deriving DecidableEq, Repr

/-- The exponent part: nothing, or `e`, a sign or none, and digits to the end. -/
def readExponent? : List Char → Option Int
  | [] => some 0
  | e :: rest =>
    if e = 'e' ∨ e = 'E' then
      let (negative, ds) := match rest with
        | '-' :: ds => (true, ds)
        | '+' :: ds => (false, ds)
        | ds => (false, ds)
      if ds.isEmpty || !ds.all Char.isDigit then none
      else some (if negative then -(decimalValue 0 ds : Int) else decimalValue 0 ds)
    else none

/-- A numeral with at least one digit before the point; the places after the point may be missing. -/
def DecimalNumeral.read? (cs : List Char) : Option DecimalNumeral :=
  let digits := cs.takeWhile Char.isDigit
  let (places, rest) := match cs.dropWhile Char.isDigit with
    | '.' :: rest => (rest.takeWhile Char.isDigit, rest.dropWhile Char.isDigit)
    | rest => ([], rest)
  if digits.isEmpty then none
  else (readExponent? rest).map (⟨digits, places, ·⟩)

/-- The double nearest to what a numeral writes. -/
def DecimalNumeral.toBinary64 (negative : Bool) (d : DecimalNumeral) : Binary64 :=
  Binary64.nearest negative (decimalValue (decimalValue 0 d.digits) d.places) (d.exponent - d.places.length)

/-! ## Numbers -/

namespace Number

/-- An integer in decimal if it has 64 bits. -/
def readInt64? (negative : Bool) (cs : List Char) : Option Int64 :=
  if cs.isEmpty || !cs.all Char.isDigit then none
  else
    let n : Int := if negative then -(decimalValue 0 cs : Int) else decimalValue 0 cs
    if fitsInt64 n then some (Int64.ofInt n) else none

/-- A number without its sign. -/
def readUnsigned? (negative : Bool) (cs : List Char) : Option Number :=
  match cs with
  | '0' :: 'x' :: ds | '0' :: 'X' :: ds =>
    (readHexWord? ds).map fun n => .int (Int64.ofInt (if negative then -(n : Int) else n))
  | _ =>
    match readInt64? negative cs with
    | some n => some (.int n)
    | none => (DecimalNumeral.read? cs).map fun d => .float (d.toBinary64 negative)

/-- The number that the whole text writes. -/
def read? : List Char → Option Number
  | '-' :: cs => readUnsigned? true cs
  | cs => readUnsigned? false cs

/-- The integer part. -/
def toInt64 : Number → Int64
  | .int n => n
  | .float x => x.toInt64

end Number

end SymbolBridge
