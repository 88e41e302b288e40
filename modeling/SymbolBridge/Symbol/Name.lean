import SymbolBridge.Text.Utf8
import SymbolBridge.Journal.Event

/-!
# Names of symbols

A name is looked up as native code would see it: it ends at the first NUL, and at a bound in bytes that never splits a
character.
-/

namespace SymbolBridge

/-- A text that can be looked up. -/
structure SymbolName where
  text : String
  deriving DecidableEq, Repr

namespace SymbolName

/-- What is kept of a text under a bound. -/
def keep (bound : Nat) (raw : String) : String :=
  String.ofList (Text.takeBytes bound (Text.beforeNul raw.toList))

def ofText (bound : Nat) (raw : String) : Except BridgeError SymbolName :=
  if keep bound raw = "" then .error .invalidName else .ok ⟨keep bound raw⟩

/-- What is logged when part of a text is dropped. -/
def events (bound : Nat) (raw : String) : List Event :=
  if (keep bound raw).utf8ByteSize < raw.utf8ByteSize then
    [.nameTruncated raw.utf8ByteSize (keep bound raw).utf8ByteSize]
  else []

end SymbolName

end SymbolBridge
