import SymbolBridge.Bridge.EntryPoint
import SymbolBridge.Bridge.Error

/-!
# Logged events

Everything the bridge reports while it works. An event has a level, the part of the bridge it comes from, a message, and
fields, of which the texts marked `quoted` appear between quotes in a line of the log. Fields with addresses and words
are there to be asked for, and no line shows them.
-/

namespace SymbolBridge

inductive Event where
  | nameTruncated (original kept : Nat)
  | notInTable (symbol : String)
  | wrongCategory (symbol : String) (want : SymbolKind)
  | resolved (symbol : String) (decorated : Bool)
  /-- The table of the running program holds the symbol. -/
  | foundInProgram (symbol : String) (kind : Option SymbolKind)
  | unsupportedArgument (typeName : String)
  | extraArguments (supplied kept : Nat)
  | argument (slot : Nat) (typeName : String)
  | invoking (function : String) (arguments : Nat)
  | readGlobal (cell : String) (value : Int64)
  | wroteGlobal (cell : String) (value : Int64)
  | engineStarted (builtins : Nat)
  | engineStopped
  | runningScript (script : String) (statements : Nat)
  /-- The one warning: an entry point failed and gave no value. -/
  | entryFailed (entry : EntryPoint) (cause : BridgeError)
  deriving DecidableEq, Repr

/-- A named part of an event. -/
structure Field where
  name : String
  text : String
  quoted : Bool := false
  deriving DecidableEq, Repr

inductive Level where
  | error
  | warn
  | info
  | debug
  | trace
  deriving DecidableEq, Repr

namespace Level

def name : Level → String
  | error => "ERROR"
  | warn => "WARN"
  | info => "INFO"
  | debug => "DEBUG"
  | trace => "TRACE"

/-- How much a level lets through: an event passes a limit that is at least its own rank. -/
def rank : Level → Nat
  | error => 1
  | warn => 2
  | info => 3
  | debug => 4
  | trace => 5

end Level

namespace Event

def level : Event → Level
  | entryFailed .. => .warn
  | _ => .debug

/-- The part of the bridge that an event comes from. -/
def target : Event → String
  | nameTruncated .. | notInTable .. | wrongCategory .. | resolved .. => "symcall::symbols"
  | foundInProgram .. => "symcall::symbols::process"
  | unsupportedArgument .. | extraArguments .. | argument .. | invoking .. => "symcall::invoke"
  | readGlobal .. | wroteGlobal .. => "symcall::variable"
  | engineStarted .. | engineStopped | runningScript .. => "symcall::script::engine"
  | entryFailed .. => "symcall::bridge"

def message : Event → String
  | nameTruncated .. => "symbol name truncated"
  | notInTable .. => "symbol not in table"
  | wrongCategory .. => "symbol has the wrong category, skipping"
  | resolved .. => "symbol resolved"
  | foundInProgram .. => "found in process"
  | unsupportedArgument .. => "unsupported argument type, passing 0"
  | extraArguments .. => "too many arguments, extra ones ignored"
  | argument .. => "argument"
  | invoking .. => "invoking"
  | readGlobal .. => "read global"
  | wroteGlobal .. => "wrote global"
  | engineStarted .. => "script engine started"
  | engineStopped => "script engine stopped"
  | runningScript .. => "running script"
  | entryFailed _ cause => "Error: " ++ cause.message

/-- The category as the log writes it. -/
def kindText : Option SymbolKind → String
  | none => "None"
  | some .code => "Some(Code)"
  | some .data => "Some(Data)"

def fields : Event → List Field
  | nameTruncated original kept => [⟨"original", toString original, false⟩, ⟨"kept", toString kept, false⟩]
  | notInTable symbol => [⟨"symbol", symbol, false⟩]
  | wrongCategory symbol want => [⟨"symbol", symbol, false⟩, ⟨"want", want.name, false⟩]
  | resolved symbol decorated => [⟨"symbol", symbol, false⟩, ⟨"decorated", toString decorated, false⟩]
  | foundInProgram symbol kind => [⟨"symbol", symbol, true⟩, ⟨"kind", kindText kind, false⟩]
  | unsupportedArgument typeName => [⟨"kind", typeName, true⟩]
  | extraArguments supplied kept => [⟨"supplied", toString supplied, false⟩, ⟨"kept", toString kept, false⟩]
  | argument slot typeName => [⟨"slot", toString slot, false⟩, ⟨"kind", typeName, true⟩]
  | invoking function arguments => [⟨"function", function, false⟩, ⟨"args", toString arguments, false⟩]
  | readGlobal name value => [⟨"variable", name, true⟩, ⟨"value", toString value.toInt, false⟩]
  | wroteGlobal name value => [⟨"variable", name, true⟩, ⟨"value", toString value.toInt, false⟩]
  | engineStarted builtins => [⟨"builtins", toString builtins, false⟩]
  | engineStopped => []
  | runningScript script statements => [⟨"script", script, true⟩, ⟨"statements", toString statements, false⟩]
  | entryFailed entry _ => [⟨"entry", entry.name, true⟩]

/-- The name of the field that holds where something lies in memory, or a word that may point there. -/
def machineField? : Event → Option String
  | resolved .. => some "address"
  | foundInProgram .. => some "object"
  | argument .. => some "word"
  | _ => none

/-- Whether an event has a field; every event has its message. -/
def hasField (e : Event) (name : String) : Bool :=
  name = "message" || e.machineField? = some name || e.fields.any (·.name = name)

end Event

end SymbolBridge
