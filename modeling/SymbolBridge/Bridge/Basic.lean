import SymbolBridge.Invoke.Signature
import SymbolBridge.Native.World
import SymbolBridge.Symbol.Resolver
import SymbolBridge.Value.Display

/-!
# The bridge

A bridge has a symbol table, a configuration and the signatures in force. It calls native functions by name, reads and
overwrites global variables by name, and reads lines. Scripts reach it through its entry points, which report a failure
as a warning and give no value.

The table belongs to the host and may change with its state. It is looked at anew for every name, and nothing that it
answers is kept.
-/

namespace SymbolBridge

structure Bridge (σ : Type) where
  /-- The symbol table as it stands in a state of the host. -/
  symbols : σ → SymbolTable
  config : Config := {}
  signatures : Signatures := {}

/-- A global variable: the spelling it was found under, its address and its width. -/
structure GlobalCell where
  name : String
  address : Word
  width : Width
  deriving DecidableEq, Repr

namespace Bridge

variable {σ : Type}

/-- Puts a signature in force. -/
def declare (b : Bridge σ) (name : String) (s : Signature) : Except BridgeError (Bridge σ) :=
  (b.signatures.declare name s).map fun signatures => { b with signatures }

/-! ## Names -/

/-- The name that is kept of a text. -/
def name (b : Bridge σ) (raw : String) : Op σ BridgeError SymbolName := do
  Op.logAll (SymbolName.events b.config.maxNameLength raw)
  Op.ofExcept (SymbolName.ofText b.config.maxNameLength raw)

/-- The symbol of a name as a symbol of a category. -/
def resolve (b : Bridge σ) (name : SymbolName) (want : SymbolKind) : Op σ BridgeError ResolvedSymbol := do
  let table ← Op.look b.symbols
  Op.logAll (table.lookup b.config name want).events
  Op.ofExcept (table.resolve b.config name want)

/-! ## Calls -/

/-- What the signature in force for a name, if any, has against some arguments. -/
def signatureFault? (b : Bridge σ) (name : SymbolName) (args : List Value) : Option SignatureFault :=
  match b.signatures.find? name.text with
  | none => none
  | some s =>
    match s.fault? args with
    | some f => some f
    | none =>
      let slots := ArgumentVector.room b.config.maxArguments
      if slots < args.length then some (.noRoom args.length slots) else none

/-- How the word that a function returns is read. -/
def returnKind (b : Bridge σ) (name : SymbolName) : ReturnKind :=
  ((b.signatures.find? name.text).map Signature.returns).getD .word

/-- Calls the function of a name. -/
def invoke (b : Bridge σ) (host : Host σ) (raw : String) (args : List Value) : Op σ BridgeError Int64 := do
  let name ← b.name raw
  if let some fault := b.signatureFault? name args then throw (.signatureMismatch name.text fault)
  Op.logAll (ArgumentVector.events b.config.maxArguments args)
  let allocator ← Op.look host.allocator
  let arguments := ArgumentVector.ofValues b.config.numberWidth b.config.maxArguments args allocator
  let found ← b.resolve name .code
  Op.log (.invoking found.spelling.text arguments.length)
  let word ← Op.callNative host found.entry.address arguments
  return (b.returnKind name).interpret word

/-! ## Global variables -/

/-- The variable of a name. -/
def cell (b : Bridge σ) (raw : String) : Op σ BridgeError GlobalCell := do
  let name ← b.name raw
  let found ← b.resolve name .data
  return ⟨found.spelling.text, found.entry.address, b.config.variableWidth⟩

/-- The integer that the bytes of a cell stand for: whole words have a sign, halves have none. -/
def cellValue (n : Nat) : Width → Int64
  | .native => (UInt64.ofNat n).toInt64
  | .bits32 => Int64.ofNat n

/-- The value of a variable. -/
def getVariable (b : Bridge σ) (raw : String) : Op σ BridgeError Int64 := do
  let cell ← b.cell raw
  let value := cellValue (← Op.loadCell cell.address cell.width) cell.width
  Op.log (.readGlobal cell.name value)
  return value

/-- Overwrites a variable with a value cut to its width. -/
def setVariable (b : Bridge σ) (raw : String) (value : Value) : Op σ BridgeError Unit := do
  let cell ← b.cell raw
  let scalar := value.toScalar
  Op.storeCell cell.address cell.width scalar.toUInt64.toNat
  Op.log (.wroteGlobal cell.name scalar)

/-! ## Lines -/

/-- Reads a line after a prompt. -/
def readLine (b : Bridge σ) (host : Host σ) (prompt : String) : Op σ BridgeError String :=
  (Op.onHost (host.readLine.readBounded prompt b.config.lineBuffer)).mapError .lineInput

/-! ## Entry points -/

/-- The first argument as a text, and the rest. -/
def takeText (what : Argument) : List Value → Except BridgeError (String × List Value)
  | [] => .error (.missingArgument what)
  | v :: rest =>
    match v.text? with
    | some text => .ok (text, rest)
    | none => .error (.missingArgument what)

/-- Runs an entry point on the arguments of a script; nothing is the value of one that returns none. -/
def tryDispatch (b : Bridge σ) (host : Host σ) (entry : EntryPoint) (args : List Value) :
    Op σ BridgeError (Option Value) :=
  match entry with
  | .call => do
    let (name, rest) ← Op.ofExcept (takeText .functionName args)
    return some (.number (.int (← b.invoke host name rest)))
  | .getGlobal => do
    let (name, _) ← Op.ofExcept (takeText .variableName args)
    return some (.number (.int (← b.getVariable name)))
  | .setGlobal => do
    let (name, rest) ← Op.ofExcept (takeText .variableName args)
    match rest with
    | [] => throw (.missingArgument .value)
    | value :: _ => do
      b.setVariable name value
      return none
  | .readLine => do
    let (prompt, _) ← Op.ofExcept (takeText .prompt args)
    return some (.str (← b.readLine host prompt))

/-- Runs an entry point; a failure is logged and gives no value. -/
def dispatch {ε : Type} (b : Bridge σ) (host : Host σ) (entry : EntryPoint) (args : List Value) :
    Op σ ε (Option Value) := do
  match ← (b.tryDispatch host entry args).outcome with
  | .ok value => return value
  | .error cause =>
    Op.log (.entryFailed entry cause)
    return none

end Bridge

end SymbolBridge
