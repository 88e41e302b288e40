/-!
# Widths of words

Numbers narrow to 32 bits or stay whole before they enter a machine word, and cells of memory have one of the two widths.
A word returned by native code is read by the kind of its function.
-/

namespace SymbolBridge

/-- A machine word. -/
abbrev Word := UInt64

/-- The width of a number or a cell. -/
inductive Width where
  | native
  | bits32
  deriving DecidableEq, Repr

namespace Width

/-- The bytes of a cell. -/
def bytes : Width → Nat
  | native => 8
  | bits32 => 4

/-- A number cut to the width and widened to a word again, with its sign. -/
def narrow (n : Int64) : Width → Word
  | native => n.toUInt64
  | bits32 => n.toInt32.toInt64.toUInt64

end Width

/-- What a native function returns. -/
inductive ReturnKind where
  /-- A whole word, read as a signed integer. -/
  | word
  /-- A signed integer in the lower half of the word. -/
  | int32
  /-- Nothing; zero stands for it. -/
  | void
  deriving DecidableEq, Repr

/-- The integer that a returned word stands for. -/
def ReturnKind.interpret (w : Word) : ReturnKind → Int64
  | word => w.toInt64
  | int32 => w.toUInt32.toInt32.toInt64
  | void => 0

end SymbolBridge
