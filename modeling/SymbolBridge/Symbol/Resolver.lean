import SymbolBridge.Config.Basic
import SymbolBridge.Symbol.Name
import SymbolBridge.Symbol.Table

/-!
# Resolving names

A name is tried plain and decorated, in the configured order, and an entry of the wrong category counts as none.
-/

namespace SymbolBridge

/-- A way to write a name in a table. -/
structure Spelling where
  text : String
  decorated : Bool
  deriving DecidableEq, Repr

/-- The spellings of a name in the order in which they are tried. -/
def Config.spellings (c : Config) (name : SymbolName) : List Spelling :=
  let plain : Spelling := ⟨name.text, false⟩
  match c.decorationChar? with
  | none => [plain]
  | some mark =>
    let decorated : Spelling := ⟨mark.toString ++ name.text, true⟩
    match c.lookupOrder with
    | .undecoratedFirst => [plain, decorated]
    | .decoratedFirst => [decorated, plain]

/-- A symbol found under one spelling. -/
structure ResolvedSymbol where
  spelling : Spelling
  entry : SymbolEntry
  deriving DecidableEq, Repr

/-- The outcome of a lookup, with what is logged on the way. -/
structure Resolution where
  symbol : Option ResolvedSymbol
  events : List Event
  deriving DecidableEq, Repr

namespace SymbolTable

/-- The first of some spellings with an entry that serves as `want`. -/
def firstServing (t : SymbolTable) (want : SymbolKind) : List Spelling → Resolution
  | [] => ⟨none, []⟩
  | s :: rest =>
    let found := t.find s.text
    match found.entry with
    | none =>
      let later := t.firstServing want rest
      ⟨later.symbol, found.events ++ .notInTable s.text :: later.events⟩
    | some e =>
      if e.serves want then ⟨some ⟨s, e⟩, found.events ++ [.resolved s.text s.decorated]⟩
      else
        let later := t.firstServing want rest
        ⟨later.symbol, found.events ++ .wrongCategory s.text want :: later.events⟩

/-- Looks up a name as a symbol of a category. -/
def lookup (t : SymbolTable) (c : Config) (name : SymbolName) (want : SymbolKind) : Resolution :=
  t.firstServing want (c.spellings name)

/-- The symbol of a name; an error names the spelling that was tried last. -/
def resolve (t : SymbolTable) (c : Config) (name : SymbolName) (want : SymbolKind) :
    Except BridgeError ResolvedSymbol :=
  match (t.lookup c name want).symbol with
  | some s => .ok s
  | none => .error (.notFound (((c.spellings name).getLast?.map Spelling.text).getD "") want)

end SymbolTable

end SymbolBridge
