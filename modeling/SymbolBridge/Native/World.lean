import SymbolBridge.Invoke.Marshal
import SymbolBridge.LineInput
import SymbolBridge.Script.Syntax

/-!
# The world of a bridge

What surrounds a bridge is a `Host`: native code, a source of lines and a sink for printed text, over a state of its
own. A bridge works in a `World`, which is memory, the host's state, and a journal of everything the bridge has done,
in order.
-/

namespace SymbolBridge

/-- The builtin functions of scripts. -/
inductive Builtin where
  | print
  | entry (e : EntryPoint)
  deriving DecidableEq, Repr

/-- A step of a bridge or of the script engine that drives it. -/
inductive Action where
  | logged (e : Event)
  /-- Native code at an address was called. -/
  | called (address : Word) (slots : Slots)
  /-- A global at an address was read. -/
  | loaded (address : Word) (width : Width)
  /-- A global at an address was overwritten. -/
  | stored (address : Word) (width : Width)
  /-- A call of a script, with its arguments evaluated, invoked a builtin. -/
  | invoked (builtin : Builtin) (callee : String) (args : List Script.Expr) (span : Script.Span)
  deriving Repr

/-- What native code is given and may change. -/
structure Host (σ : Type) where
  /-- Calls the code at an address. -/
  call : Word → Slots → Memory → σ → Word × Memory × σ
  /-- What the copies for a call are allocated by. -/
  allocator : σ → Allocator
  /-- Shows a prompt and reads a line. -/
  readLine : LineSource σ
  /-- Takes a piece of printed text, or gives a reason why not. -/
  print : String → StateM σ (Except String Unit)
  /-- Passes on what has been printed. -/
  flush : StateM σ (Except String Unit)

structure World (σ : Type) where
  memory : Memory
  host : σ
  journal : Array Action := #[]

/-- An operation in a world, which may fail. What it did before it failed stays done. -/
abbrev Op (σ ε α : Type) := ExceptT ε (StateM (World σ)) α

namespace Op

variable {σ ε α : Type}

def record (a : Action) : Op σ ε Unit := fun w => (.ok (), { w with journal := w.journal.push a })

def log (e : Event) : Op σ ε Unit := record (.logged e)

def logAll (es : List Event) : Op σ ε Unit :=
  fun w => (.ok (), { w with journal := w.journal ++ (es.map Action.logged).toArray })

/-- Fails or gives a value without touching the world. -/
def ofExcept (r : Except ε α) : Op σ ε α := fun w => (r, w)

/-- An operation of the host on its own state. -/
def onHost (act : StateM σ (Except ε α)) : Op σ ε α := fun w =>
  let (r, host) := act w.host
  (r, { w with host })

/-- A look at the state of the host. -/
def look (f : σ → α) : Op σ ε α := onHost fun s => (.ok (f s), s)

/-- The same operation with its errors explained. -/
def mapError {ε' : Type} (f : ε → ε') (op : Op σ ε α) : Op σ ε' α := fun w =>
  let (r, w) := op w
  (r.mapError f, w)

/-- An operation whose outcome, good or bad, is a value. -/
def outcome {ε' : Type} (op : Op σ ε α) : Op σ ε' (Except ε α) := fun w =>
  let (r, w) := op w
  (.ok r, w)

/-- Calls native code. The copies of string arguments are in memory while it runs, and gone afterwards. -/
def callNative (host : Host σ) (address : Word) (arguments : ArgumentVector) : Op σ ε Word := fun w =>
  let copies := arguments.strings.map StoredString.region
  let (word, memory, state) := host.call address arguments.slots { w.memory with copies } w.host
  (.ok word,
    { memory := { memory with copies := [] }
      host := state
      journal := w.journal.push (.called address arguments.slots) })

/-- Reads the number in a cell of memory. -/
def loadCell (address : Word) (width : Width) : Op σ ε Nat := fun w =>
  (.ok (w.memory.loadNat address.toNat width.bytes), { w with journal := w.journal.push (.loaded address width) })

/-- Overwrites a cell of memory with the low bytes of a number. -/
def storeCell (address : Word) (width : Width) (value : Nat) : Op σ ε Unit := fun w =>
  (.ok (), { w with
    memory := w.memory.storeAll address.toNat (Memory.littleEndian value width.bytes)
    journal := w.journal.push (.stored address width) })

end Op

end SymbolBridge
