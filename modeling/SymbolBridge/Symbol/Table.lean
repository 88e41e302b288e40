import SymbolBridge.Dictionary
import SymbolBridge.Journal.Event

/-!
# Symbol tables

A table answers where a name is. Registries are tables that a host fills itself; tables can be chained, the first hit
winning, and a table can be made to keep the categories of its symbols to itself.
-/

namespace SymbolBridge

/-- A symbol that the running program was found to have. -/
structure Sighting where
  symbol : String
  kind : Option SymbolKind
  deriving DecidableEq, Repr

def Sighting.event (s : Sighting) : Event := .foundInProgram s.symbol s.kind

/-- A table's answer, with what it found in the running program on the way. -/
structure Finding where
  entry : Option SymbolEntry
  sightings : List Sighting := []
  deriving DecidableEq, Repr

/-- What a table logs: what it found in the running program, and nothing else. -/
def Finding.events (f : Finding) : List Event := f.sightings.map Sighting.event

structure SymbolTable where
  find : String → Finding

namespace SymbolTable

/-- Several tables in order, of which the first with an entry answers. -/
def chain (tables : List SymbolTable) : SymbolTable where
  find name := go name tables
where
  go (name : String) : List SymbolTable → Finding
    | [] => ⟨none, []⟩
    | t :: ts =>
      let first := t.find name
      match first.entry with
      | some _ => first
      | none =>
        let later := go name ts
        ⟨later.entry, first.sightings ++ later.sightings⟩

/-- The same entries with unknown categories. -/
def withoutKinds (t : SymbolTable) : SymbolTable where
  find name :=
    let f := t.find name
    ⟨f.entry.map fun e => { e with kind := none }, f.sightings⟩

end SymbolTable

/-! ## Registries -/

/-- Symbols that a host defines by hand. -/
structure Registry where
  symbols : Dictionary SymbolEntry := {}

namespace Registry

/-- Defines a name, anew if it has been defined; the null address defines nothing. -/
def define (r : Registry) (name : String) (address : Word) (kind : SymbolKind) : Registry :=
  if address = 0 then r else ⟨r.symbols.insert name ⟨address, some kind⟩⟩

def remove (r : Registry) (name : String) : Registry := ⟨r.symbols.erase name⟩

/-- Removes a name and gives back its entry, if it had one. -/
def withdraw (r : Registry) (name : String) : Option SymbolEntry × Registry :=
  let (entry, symbols) := r.symbols.take name
  (entry, ⟨symbols⟩)

def find? (r : Registry) (name : String) : Option SymbolEntry := r.symbols.find? name

/-- The names in the order of their definition. -/
def names (r : Registry) : List String := r.symbols.keys

def size (r : Registry) : Nat := r.symbols.size

def isEmpty (r : Registry) : Bool := r.symbols.entries.isEmpty

def table (r : Registry) : SymbolTable where
  find name := ⟨r.find? name, []⟩

theorem withdraw_eq (r : Registry) (name : String) : r.withdraw name = (r.find? name, r.remove name) := by
  simp only [withdraw, Dictionary.take_eq, find?, remove]

end Registry

end SymbolBridge
