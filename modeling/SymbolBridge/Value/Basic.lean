import SymbolBridge.Text.Blank
import SymbolBridge.Value.Numeral

/-!
# Script values

A script computes with these values. Of them nil, booleans, numbers and strings have a form in a machine word;
tables, functions and handles have none.
-/

namespace SymbolBridge

inductive Value where
  | nil
  | bool (b : Bool)
  | number (n : Number)
  | str (s : String)
  | table (items : List Value)
  /-- A builtin function by its name. -/
  | function (name : String)
  /-- A value of the host that scripts only pass on. -/
  | handle (address : UInt64)
  deriving Repr

namespace Value

/-- The name of a value's type, as scripts see it. -/
def typeName : Value → String
  | nil => "nil"
  | bool _ => "boolean"
  | number _ => "number"
  | str _ => "string"
  | table _ => "table"
  | function _ => "function"
  | handle _ => "userdata"

def isNil : Value → Bool
  | nil => true
  | _ => false

/-- The integer that a number has as its integer part, or that a text writes between blanks. -/
def toInteger? : Value → Option Int64
  | number n => some n.toInt64
  | str s => (Number.read? (Text.trim s.toList)).map Number.toInt64
  | _ => none

/-- The integer stored where a cell holds nothing but numbers: booleans count, the rest is zero. -/
def toScalar : Value → Int64
  | bool b => if b then 1 else 0
  | v => v.toInteger?.getD 0

mutual

/-- Equality of values; doubles compare by IEEE 754. -/
def equal : Value → Value → Bool
  | nil, nil => true
  | bool a, bool b => a == b
  | number (.int a), number (.int b) => a == b
  | number (.float a), number (.float b) => a.equal b
  | str a, str b => a == b
  | table a, table b => equalAll a b
  | function a, function b => a == b
  | handle a, handle b => a == b
  | _, _ => false

def equalAll : List Value → List Value → Bool
  | [], [] => true
  | a :: as, b :: bs => equal a b && equalAll as bs
  | _, _ => false

end

/-- The value of an argument on a command line: a constant, a number, or the text itself. -/
def ofArgument (text : String) : Value :=
  match text with
  | "nil" => nil
  | "true" => bool true
  | "false" => bool false
  | _ =>
    match Number.read? text.toList with
    | some n => number n
    | none => str text

end Value

end SymbolBridge
