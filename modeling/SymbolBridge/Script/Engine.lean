import SymbolBridge.Bridge.Basic
import SymbolBridge.Script.Error

/-!
# Running scripts

An engine has the variables of its scripts and drives a bridge. Evaluating an expression changes no variable; a statement
that fails ends the script with its error, and what was done before stays done.
-/

namespace SymbolBridge

namespace Builtin

/-- The builtin functions under all their names: `print`, and the entry points under both of theirs. -/
def table : List (String × Builtin) :=
  ("print", .print) :: EntryPoint.all.map (fun e => (e.name, .entry e)) ++
    EntryPoint.all.map fun e => (e.legacyName, .entry e)

def names : List String := table.map (·.1)

def ofName? (name : String) : Option Builtin := table.lookup name

end Builtin

namespace Script

variable {σ : Type}

/-- The variables of scripts; none is nil. -/
abbrev Variables := Dictionary Value

namespace Variables

/-- The value of a variable, nil if it has none. -/
def get (vs : Variables) (name : String) : Value := (vs.find? name).getD .nil

/-- Gives a variable a value; nil takes its value away. -/
def set (vs : Variables) (name : String) (value : Value) : Variables :=
  if value.isNil then vs.erase name else vs.insert name value

/-- What a name stands for in an expression: a variable, a builtin, or nil. -/
def evalName (vs : Variables) (name : String) : Value :=
  match vs.find? name with
  | some value => value
  | none => if (Builtin.ofName? name).isSome then .function name else .nil

/-- The builtin that a callee stands for. A variable that holds a function is called through. -/
def builtin (vs : Variables) (callee : String) : Except RuntimeError Builtin :=
  let named (name : String) : Except RuntimeError Builtin :=
    match Builtin.ofName? name with
    | some b => .ok b
    | none => .error (.unknownFunction name)
  match vs.find? callee with
  | some (.function target) => named target
  | some other => .error (.notCallable other.typeName callee)
  | none => named callee

end Variables

/-- The text of an operand of a concatenation. -/
def operandText (v : Value) : Except RuntimeError String :=
  match v.text? with
  | some text => .ok text
  | none => .error (.notConcatenable v.typeName)

section

variable (bridge : Bridge σ) (host : Host σ)

/-- An error of running a script at a span. -/
def atSpan {α : Type} (span : Span) (r : Except RuntimeError α) : Op σ Error α :=
  Op.ofExcept (r.mapError (.runtime · span))

/-- Hands pieces of text to the sink until it refuses one. -/
def write (span : Span) : List String → Op σ Error Unit
  | [] => return
  | piece :: rest => do
    if !piece.isEmpty then
      (Op.onHost (host.print piece)).mapError fun reason => .runtime (.outputFailed reason) span
    write span rest

/-- Runs a builtin on the values of its arguments. -/
def runBuiltin (span : Span) (args : List Value) : Builtin → Op σ Error (Option Value)
  | .print => do
    write host span ["\t".intercalate (args.map Value.toText), "\n"]
    return none
  | .entry e => bridge.dispatch host e args

mutual

/-- The value of an expression. -/
def eval (vs : Variables) : Expr → Op σ Error Value
  | .nil => return .nil
  | .bool b => return .bool b
  | .number n => return .number n
  | .str s => return .str s
  | .table items => do return .table (← evalAll vs items)
  | .var name _ => return vs.evalName name
  | .call callee args span => do
    let builtin ← atSpan span (vs.builtin callee)
    let values ← evalAll vs args
    Op.record (.invoked builtin callee args span)
    return (← runBuiltin bridge host span values builtin).getD .nil
  | .concat left right span => do
    let a ← eval vs left
    let b ← eval vs right
    let a ← atSpan span (operandText a)
    let b ← atSpan span (operandText b)
    return .str (a ++ b)

/-- The values of expressions from left to right. -/
def evalAll (vs : Variables) : List Expr → Op σ Error (List Value)
  | [] => return []
  | e :: es => do
    let v ← eval vs e
    let rest ← evalAll vs es
    return v :: rest

end

/-- Runs a statement; the result is the variables after it. -/
def exec (vs : Variables) : Statement → Op σ Error Variables
  | .assign name value _ => do return vs.set name (← eval bridge host vs value)
  | .call callee args span => do
    let _ ← eval bridge host vs (.call callee args span)
    return vs

end

/-- An engine: the bridge it drives, and the variables of its scripts. -/
structure Engine (σ : Type) where
  bridge : Bridge σ
  bindings : Variables := {}

namespace Engine

variable (host : Host σ)

/-- Runs statements in order. The variables are those after the last statement that succeeded. -/
def execAll (engine : Engine σ) : List Statement → StateM (World σ) (Except Error Unit × Engine σ)
  | [] => return (.ok (), engine)
  | s :: rest => do
    match ← exec engine.bridge host engine.bindings s with
    | .ok bindings => execAll { engine with bindings } rest
    | .error e => return (.error e, engine)

/-- Runs a script; `name` is what the log calls it. -/
def run (engine : Engine σ) (name src : String) : StateM (World σ) (Except Error Unit × Engine σ) := do
  match load src with
  | .error e => return (.error e, engine)
  | .ok statements =>
    let _ ← Op.log (ε := Empty) (.runningScript name statements.length)
    match ← engine.execAll host statements with
    | (.error e, engine) => return (.error e, engine)
    | (.ok (), engine) =>
      let flushed ← (Op.onHost host.flush).mapError fun reason => Error.runtime (.outputFailed reason) ⟨0, 0⟩
      return (flushed, engine)

/-- Starts an engine without variables. -/
def start (bridge : Bridge σ) : StateM (World σ) (Engine σ) := do
  let _ ← Op.log (ε := Empty) (.engineStarted Builtin.table.length)
  return { bridge }

/-- Stops an engine and gives its bridge back. -/
def stop (engine : Engine σ) : StateM (World σ) (Bridge σ) := do
  let _ ← (Op.onHost host.flush : Op σ String Unit)
  let _ ← Op.log (ε := Empty) .engineStopped
  return engine.bridge

end Engine

end Script

end SymbolBridge
