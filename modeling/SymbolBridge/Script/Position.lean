import SymbolBridge.Text.Utf8

/-!
# Lines and columns

A place in a source is shown by its line, counted in line feeds, and its column, counted in characters, both from one.
-/

namespace SymbolBridge.Script

structure Position where
  line : Nat
  column : Nat
  deriving DecidableEq, Repr

/-- The position right after a text. -/
def Position.after (before : List Char) : Position :=
  ⟨before.count '\n' + 1, (before.reverse.takeWhile (· ≠ '\n')).length + 1⟩

/-- The position at `offset` bytes of a source; every offset past the end is the end. Inside a character there is
none. -/
def Position.at? (src : String) (offset : Nat) : Option Position :=
  let before := Text.takeBytes offset src.toList
  if Text.byteLength before = min offset src.utf8ByteSize then some (.after before) else none

def Position.toText (p : Position) : String := toString p.line ++ ":" ++ toString p.column

end SymbolBridge.Script
