/-!
# Entry points

What scripts can ask of the bridge, each under two names.
-/

namespace SymbolBridge

inductive EntryPoint where
  | call
  | getGlobal
  | setGlobal
  | readLine
  deriving DecidableEq, Repr

namespace EntryPoint

def all : List EntryPoint := [call, getGlobal, setGlobal, readLine]

def name : EntryPoint → String
  | call => "call"
  | getGlobal => "getGlobal"
  | setGlobal => "setGlobal"
  | readLine => "readLine"

/-- The name of older scripts. -/
def legacyName : EntryPoint → String
  | call => "vxDo"
  | getGlobal => "vxGet"
  | setGlobal => "vxSet"
  | readLine => "vxReadLine"

end EntryPoint

end SymbolBridge
