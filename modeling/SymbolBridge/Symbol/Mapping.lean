import SymbolBridge.Symbol.Entry
import SymbolBridge.Value.Numeral
import SymbolBridge.Text.Blank
import SymbolBridge.Text.Lines

/-!
# Lists of mapped memory

A running program's memory is listed by lines `start-end permissions …` with addresses in hexadecimal. What lies in a
mapping whose third permission is `x` is code, what lies in another one is data.
-/

namespace SymbolBridge

/-- A range of addresses, without its end, and whether it holds code. -/
structure Mapping where
  start : Nat
  stop : Nat
  executable : Bool
  deriving DecidableEq, Repr

namespace Mapping

/-- The mapping that a line describes, if it does. -/
def ofLine? (line : List Char) : Option Mapping :=
  match Text.words line with
  | range :: permissions :: _ =>
    match Text.splitAtFirst '-' range with
    | some (start, stop) =>
      match readHexWord? start, readHexWord? stop with
      | some start, some stop => some ⟨start, stop, (Text.utf8Bytes permissions)[2]? = some 'x'.toUInt8⟩
      | _, _ => none
    | none => none
  | _ => none

def covers (m : Mapping) (address : Nat) : Bool := m.start ≤ address && address < m.stop

def kind (m : Mapping) : SymbolKind := if m.executable then .code else .data

/-- The category of an address by the first mapping that covers it. -/
def classify (listing : String) (address : Word) : Option SymbolKind :=
  ((Text.lines listing.toList).filterMap ofLine?).find? (·.covers address.toNat) |>.map kind

end Mapping

end SymbolBridge
