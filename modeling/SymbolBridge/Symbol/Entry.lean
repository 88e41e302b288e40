import SymbolBridge.Invoke.Width

/-!
# What a table holds under a name

An address with its category, code or data, where the table can tell.
-/

namespace SymbolBridge

inductive SymbolKind where
  | code
  | data
  deriving DecidableEq, Repr

def SymbolKind.name : SymbolKind → String
  | code => "code"
  | data => "data"

structure SymbolEntry where
  address : Word
  /-- Nothing if the table does not know. -/
  kind : Option SymbolKind
  deriving DecidableEq, Repr

/-- Whether an entry may be used as a symbol of a category: one of unknown category may. -/
def SymbolEntry.serves (e : SymbolEntry) (want : SymbolKind) : Bool :=
  match e.kind with
  | none => true
  | some kind => kind = want

end SymbolBridge
