import SymbolBridge.Script.Engine
import SymbolBridge.Text.Decode
import SymbolBridge.Workbench.Host

/-!
# Sessions

A session is an engine over a bridge on a workbench, and steps that use it one after another. The symbol tables may
change between steps; every lookup sees them as they are at its step.
-/

namespace SymbolBridge.Workbench

open Script (Engine Diagnostic)

/-! ## Tables -/

/-- What a symbol is defined as. -/
inductive Place where
  | function (f : Function)
  | data (offset : Nat)
  /-- The null address, which defines nothing. -/
  | null (kind : SymbolKind)
  deriving DecidableEq, Repr

namespace Place

def address : Place → Word
  | function f => f.address
  | data offset => UInt64.ofNat (arenaBase + offset)
  | null _ => 0

def kind : Place → SymbolKind
  | function _ => .code
  | data _ => .data
  | null kind => kind

end Place

/-- A name and what it is defined as. -/
structure Definition where
  name : String
  place : Place
  deriving DecidableEq, Repr

def define (r : Registry) (d : Definition) : Registry := r.define d.name d.place.address d.place.kind

/-- A table of a session: a registry by its number among them, or the running program's symbols. -/
inductive TableSource where
  | registry (index : Nat)
  /-- A registry that keeps the categories of its symbols to itself. -/
  | unclassified (index : Nat)
  | library
  deriving DecidableEq, Repr

structure Tables where
  registries : List Registry
  order : List TableSource

namespace Tables

def registry (t : Tables) (index : Nat) : Registry := t.registries.getD index {}

def source (t : Tables) : TableSource → SymbolTable
  | .registry index => (t.registry index).table
  | .unclassified index => (t.registry index).table.withoutKinds
  | .library => Library.table

/-- All tables, searched in order. -/
def table (t : Tables) : SymbolTable := .chain (t.order.map t.source)

def modify (t : Tables) (index : Nat) (f : Registry → Registry) : Tables :=
  { t with registries := t.registries.modify index f }

end Tables

/-! ## Steps -/

inductive Step where
  | run (src : String)
  | runFile (file : Text.File)
  | dispatch (entry : EntryPoint) (args : List Value)
  | tryDispatch (entry : EntryPoint) (args : List Value)
  | invoke (name : String) (args : List Value)
  | get (name : String)
  | set (name : String) (value : Value)
  | readLine (prompt : String)
  | declare (name : String) (signature : Signature)
  | getVariable (name : String)
  | setVariable (name : String) (value : Value)
  | builtins
  | config
  | cell (name : String)
  | resolve (name : String) (kind : SymbolKind)
  | find (name : String)
  | define (index : Nat) (definition : Definition)
  | remove (index : Nat) (name : String)
  | names (index : Nat)
  | peek (offset length : Nat)
  | restart

/-- What a step answers. -/
inductive Answer where
  | done
  | integer (n : Int64)
  | text (s : String)
  | value (v : Value)
  /-- What an entry point gave. -/
  | dispatched (v : Option Value)
  | builtins (names : List String)
  | config (c : Config)
  | cell (c : GlobalCell)
  | symbol (s : ResolvedSymbol)
  | entry (e : Option SymbolEntry)
  | registry (r : Registry)
  | bytes (bs : List UInt8)
  | bridgeError (e : BridgeError)
  | scriptError (e : Script.Error) (shown : Option Diagnostic)

/-- A session between two steps. -/
structure Session where
  behaviour : Behaviour
  tables : Tables
  engine : Engine State
  world : World State

namespace Session

/-- A session with fresh memory and a started engine. -/
def start (behaviour : Behaviour) (tables : Tables) (config : Config) (lines : List String)
    (chunks : List (Nat × List UInt8)) : Session :=
  let world : World State :=
    { memory := { regions := arena chunks :: Library.regions }
      host := { input := { lines } } }
  let (engine, world) := Engine.start { symbols := fun _ => tables.table, config } world
  { behaviour, tables, engine, world }

/-- The answer of an operation of the bridge. -/
def ofOp {α : Type} (s : Session) (op : Op State BridgeError α) (answer : α → Answer) : Answer × Session :=
  let (r, world) := op s.world
  (match r with
    | .ok a => answer a
    | .error e => .bridgeError e,
    { s with world })

/-- Changes the tables, and lets the bridge see them. -/
def withTables (s : Session) (tables : Tables) : Session :=
  { s with tables, engine.bridge.symbols := fun _ => tables.table }

def runSource (s : Session) (name src : String) : Answer × Session :=
  let ((r, engine), world) := s.engine.run (host s.behaviour) name src s.world
  (match r with
    | .ok () => .done
    | .error e => .scriptError e (e.report?.bind (·.diagnostic? src)),
    { s with engine, world })

/-- Takes a step. -/
def step (s : Session) (step : Step) : Answer × Session :=
  let bridge := s.engine.bridge
  let host := host s.behaviour
  match step with
  | .run src => s.runSource "script" src
  | .runFile file =>
    match Text.ofFile file with
    | .ok src => s.runSource "<path>" src
    | .error reason => (.scriptError (.unreadable "<path>" reason) none, s)
  | .dispatch entry args => s.ofOp (bridge.dispatch host entry args) .dispatched
  | .tryDispatch entry args => s.ofOp (bridge.tryDispatch host entry args) .dispatched
  | .invoke name args => s.ofOp (bridge.invoke host name args) .integer
  | .get name => s.ofOp (bridge.getVariable name) .integer
  | .set name value => s.ofOp (bridge.setVariable name value) fun () => .done
  | .readLine prompt => s.ofOp (bridge.readLine host prompt) .text
  | .declare name signature =>
    match bridge.declare name signature with
    | .ok bridge => (.done, { s with engine.bridge := bridge })
    | .error e => (.bridgeError e, s)
  | .getVariable name => (.value (s.engine.bindings.get name), s)
  | .setVariable name value => (.done, { s with engine.bindings := s.engine.bindings.set name value })
  | .builtins => (.builtins Builtin.names, s)
  | .config => (.config bridge.config, s)
  | .cell name => s.ofOp (bridge.cell name) .cell
  | .resolve name kind => s.ofOp (do bridge.resolve (← bridge.name name) kind) .symbol
  | .find name =>
    let found := (bridge.symbols s.world.host).find name
    let (_, world) := (Op.logAll found.events : Op State BridgeError Unit) s.world
    (.entry found.entry, { s with world })
  | .define index definition => (.done, s.withTables (s.tables.modify index (Workbench.define · definition)))
  | .remove index name =>
    (.entry ((s.tables.registry index).withdraw name).1,
      s.withTables (s.tables.modify index fun r => (r.withdraw name).2))
  | .names index => (.registry (s.tables.registry index), s)
  | .peek offset length =>
    (.bytes ((List.range length).map fun i => (s.world.memory.load? (arenaBase + offset + i)).getD 0), s)
  | .restart =>
    let (bridge, world) := s.engine.stop host s.world
    let (engine, world) := Engine.start bridge world
    (.done, { s with engine, world })

/-! ## Reports -/

/-- What a step answered, and what happened meanwhile. -/
structure Report where
  answer : Answer
  calls : List Call
  prompts : List String
  output : String
  events : List Event

/-- A session with nothing recorded. -/
def cleared (s : Session) : Session :=
  let h := s.world.host
  { s with world :=
    { s.world with
      journal := #[]
      host := { h with calls := #[], output := "", input := { h.input with prompts := #[] } } } }

/-- Takes a step and reports it. -/
def report (s : Session) (step : Step) : Report × Session :=
  let (answer, s) := s.cleared.step step
  ({ answer
     calls := s.world.host.calls.toList
     prompts := s.world.host.input.prompts.toList
     output := s.world.host.output
     events := s.world.journal.toList.filterMap fun
       | .logged e => some e
       | _ => none }, s)

/-- Takes steps in order. -/
def reports (s : Session) : List Step → List Report × Session
  | [] => ([], s)
  | step :: rest =>
    let (r, s) := s.report step
    let (rs, s) := s.reports rest
    (r :: rs, s)

/-- The longest runs of bytes that are not zero, from `offset` on. -/
def runsFrom (offset : Nat) : List UInt8 → List (Nat × List UInt8)
  | [] => []
  | b :: bs =>
    if b = 0 then runsFrom (offset + 1) bs
    else
      match runsFrom (offset + 1) bs with
      | (o, run) :: rest => if o = offset + 1 then (offset, b :: run) :: rest else (offset, [b]) :: (o, run) :: rest
      | [] => [(offset, [b])]

/-- What the arena holds. -/
def nonzero (s : Session) : List (Nat × List UInt8) :=
  runsFrom 0 ((List.range arenaSize).map fun i => (s.world.memory.load? (arenaBase + i)).getD 0)

end Session

end SymbolBridge.Workbench
