import SymbolBridge.Value.Basic

/-!
# Kinds of parameters

What a native function declares about a parameter, and which values may stand for it.
-/

namespace SymbolBridge

inductive ParamKind where
  /-- An integer: numbers, booleans and nil. -/
  | int
  /-- Booleans and nil. -/
  | bool
  /-- The address of a text: strings and nil. -/
  | str
  /-- Any address: numbers, strings and nil. -/
  | pointer
  /-- Every value. -/
  | any
  deriving DecidableEq, Repr

namespace ParamKind

def name : ParamKind → String
  | int => "Int"
  | bool => "Bool"
  | str => "Str"
  | pointer => "Pointer"
  | any => "Any"

def accepts : ParamKind → Value → Bool
  | any, _ => true
  | _, .nil => true
  | int, .bool _ | int, .number _ => true
  | bool, .bool _ => true
  | str, .str _ => true
  | pointer, .number _ | pointer, .str _ => true
  | _, _ => false

end ParamKind

end SymbolBridge
