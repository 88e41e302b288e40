import SymbolBridge.Proofs.Script.Attempts
import SymbolBridge.Proofs.Symbol.Table
import SymbolBridge.Workbench.Session

/-!
# Histories of a bridge

A program that embeds a bridge defines and removes symbols, declares signatures, asks for things directly or through
entry points, gives variables values and runs scripts, in any order. An `Embedding` is such a program between two steps;
`after` takes steps one after the other. No step changes the configuration (`config_after`), only an accepted declaration
changes a signature (`find?_signatures_after`), the bridge always sees the tables as they are (`sees_after`), and what a
registry holds was there before or has been defined since (`registry_after`). A session of a workbench is an embedding
(`Workbench.Session.embedding_step`).
-/

namespace SymbolBridge

open Workbench (Tables)

variable {σ : Type}

/-- Tables, an engine over a bridge that looks into them, and a world. -/
structure Embedding (σ : Type) where
  tables : Tables
  engine : Script.Engine σ
  world : World σ

namespace Embedding

inductive Step where
  | define (index : Nat) (name : String) (address : Word) (kind : SymbolKind)
  | remove (index : Nat) (name : String)
  | declare (name : String) (signature : Signature)
  | serve (request : Bridge.Request)
  | tryDispatch (entry : EntryPoint) (args : List Value)
  | dispatch (entry : EntryPoint) (args : List Value)
  | assign (name : String) (value : Value)
  | run (name src : String)
  | restart

/-- Changes the tables, and lets the bridge see them. -/
def withTables (s : Embedding σ) (tables : Tables) : Embedding σ :=
  { s with tables, engine.bridge.symbols := fun _ => tables.table }

/-- An embedding at its start: the bridge sees the tables. -/
def start (tables : Tables) (engine : Script.Engine σ) (world : World σ) : Embedding σ :=
  withTables { tables, engine, world } tables

/-- Takes a step. A declaration that is refused changes nothing. -/
def step (host : Host σ) (s : Embedding σ) : Step → Embedding σ
  | .define index name address kind => s.withTables (s.tables.modify index (·.define name address kind))
  | .remove index name => s.withTables (s.tables.modify index (·.remove name))
  | .declare name signature =>
    match s.engine.bridge.declare name signature with
    | .ok bridge => { s with engine.bridge := bridge }
    | .error _ => s
  | .serve request => { s with world := (request.serve s.engine.bridge host s.world).2 }
  | .tryDispatch entry args => { s with world := (s.engine.bridge.tryDispatch host entry args s.world).2 }
  | .dispatch entry args =>
    { s with world := ((s.engine.bridge.dispatch host entry args : Op σ BridgeError (Option Value)) s.world).2 }
  | .assign name value => { s with engine.bindings := s.engine.bindings.set name value }
  | .run name src =>
    { s with
      engine := (s.engine.run host name src s.world).1.2
      world := (s.engine.run host name src s.world).2 }
  | .restart =>
    let (bridge, world) := s.engine.stop host s.world
    let (engine, world) := Script.Engine.start bridge world
    { s with engine, world }

/-- Takes steps in order. -/
def after (host : Host σ) (s : Embedding σ) (steps : List Step) : Embedding σ := steps.foldl (step host) s

variable (host : Host σ) (s : Embedding σ)

theorem after_append (steps later : List Step) : s.after host (steps ++ later) = (s.after host steps).after host later :=
  List.foldl_append

/-- What every step keeps is kept throughout. -/
theorem after_induction {P : Embedding σ → Prop} (hstep : ∀ s t, P s → P (s.step host t)) :
    ∀ {s : Embedding σ} (steps : List Step), P s → P (s.after host steps)
  | _, [], h => h
  | _, t :: steps, h => after_induction hstep steps (hstep _ t h)

/-! ## What a step can change -/

/-- A step changes one registry, or the signatures by an accepted declaration, or neither tables nor bridge. -/
theorem step_cases (t : Step) :
    (∃ index name address kind, t = .define index name address kind ∧
      s.step host t = s.withTables (s.tables.modify index (·.define name address kind))) ∨
    (∃ index name, t = .remove index name ∧ s.step host t = s.withTables (s.tables.modify index (·.remove name))) ∨
    (∃ name signature bridge, t = .declare name signature ∧ s.engine.bridge.declare name signature = .ok bridge ∧
      s.step host t = { s with engine.bridge := bridge }) ∨
    ((s.step host t).tables = s.tables ∧ (s.step host t).engine.bridge = s.engine.bridge) := by
  cases t with
  | define index name address kind => exact .inl ⟨index, name, address, kind, rfl, rfl⟩
  | remove index name => exact .inr (.inl ⟨index, name, rfl, rfl⟩)
  | declare name signature =>
    rw [step]
    cases hd : s.engine.bridge.declare name signature with
    | ok bridge => exact .inr (.inr (.inl ⟨name, signature, bridge, rfl, hd, rfl⟩))
    | error e => exact .inr (.inr (.inr ⟨rfl, rfl⟩))
  | run name src => exact .inr (.inr (.inr ⟨rfl, (s.engine.attempted_run host name src s.world).1⟩))
  | _ => exact .inr (.inr (.inr ⟨rfl, rfl⟩))

/-! ## The bridge -/

theorem config_step (t : Step) : (s.step host t).engine.bridge.config = s.engine.bridge.config := by
  obtain ⟨_, _, _, _, -, h⟩ | ⟨_, _, -, h⟩ | ⟨_, _, bridge, -, hd, h⟩ | ⟨-, h⟩ := s.step_cases host t
  · rw [h]; rfl
  · rw [h]; rfl
  · rw [h, (Bridge.declare_eq_ok hd).2]
  · rw [h]

theorem config_after (steps : List Step) : (s.after host steps).engine.bridge.config = s.engine.bridge.config :=
  after_induction host (P := fun s' => s'.engine.bridge.config = s.engine.bridge.config)
    (fun s' t h => (s'.config_step host t).trans h) steps rfl

/-- A step is an accepted declaration of a name. -/
def Step.Declares (t : Step) (name : String) : Prop :=
  ∃ signature, t = .declare name signature ∧ signature.arity ≤ maxSlots

theorem find?_signatures_step {t : Step} {name : String} (ht : ¬ t.Declares name) :
    (s.step host t).engine.bridge.signatures.find? name = s.engine.bridge.signatures.find? name := by
  obtain ⟨_, _, _, _, -, h⟩ | ⟨_, _, -, h⟩ | ⟨declared, signature, bridge, rfl, hd, h⟩ | ⟨-, h⟩ :=
    s.step_cases host t
  · rw [h]; rfl
  · rw [h]; rfl
  · have hne : name ≠ declared := fun heq => ht ⟨signature, heq ▸ rfl, (Bridge.declare_eq_ok hd).1⟩
    rw [h]
    exact (Bridge.find?_of_declare hd name).trans (if_neg hne)
  · rw [h]

/-- A signature stays in force until another one is declared for its name. -/
theorem find?_signatures_after {name : String} : ∀ {s : Embedding σ} {steps : List Step},
    (∀ t ∈ steps, ¬ t.Declares name) →
    (s.after host steps).engine.bridge.signatures.find? name = s.engine.bridge.signatures.find? name
  | _, [], _ => rfl
  | s, t :: steps, h => by
    obtain ⟨ht, hsteps⟩ := List.forall_mem_cons.1 h
    exact (find?_signatures_after hsteps).trans (s.find?_signatures_step host ht)

/-! ## The tables -/

/-- The bridge sees the tables as they are, whatever the state of the host. -/
def Sees (s : Embedding σ) : Prop := ∀ state, s.engine.bridge.symbols state = s.tables.table

theorem sees_step (t : Step) (hs : s.Sees) : (s.step host t).Sees := by
  intro state
  obtain ⟨_, _, _, _, -, h⟩ | ⟨_, _, -, h⟩ | ⟨_, _, bridge, -, hd, h⟩ | ⟨htables, h⟩ := s.step_cases host t
  · rw [h]; rfl
  · rw [h]; rfl
  · rw [h, (Bridge.declare_eq_ok hd).2]; exact hs state
  · rw [h, htables, hs]

theorem sees_after (tables : Tables) (engine : Script.Engine σ) (world : World σ) (steps : List Step) :
    ((start tables engine world).after host steps).Sees :=
  after_induction host (fun s t h => s.sees_step host t h) steps fun _ => rfl

theorem registry_modify (tables : Tables) (index i : Nat) (f : Registry → Registry) :
    (tables.modify index f).registry i = tables.registry i ∨
      i = index ∧ (tables.modify index f).registry i = f (tables.registry i) := by
  unfold Tables.modify Tables.registry
  rw [List.getD_eq_getElem?_getD, List.getD_eq_getElem?_getD, List.getElem?_modify]
  by_cases hi : index = i
  · cases hr : tables.registries[i]? with
    | none => exact .inl (by simp)
    | some r => exact .inr ⟨hi.symm, by simp [hi]⟩
  · exact .inl (by simp [hi])

/-- A registry gets an entry by its definition only. -/
theorem registry_step {t : Step} {i : Nat} {name : String} {e : SymbolEntry}
    (he : ((s.step host t).tables.registry i).find? name = some e) :
    (s.tables.registry i).find? name = some e ∨ ∃ kind, t = .define i name e.address kind := by
  obtain ⟨index, defined, address, kind, rfl, h⟩ | ⟨index, removed, -, h⟩ | ⟨_, _, _, -, -, h⟩ | ⟨h, -⟩ :=
    s.step_cases host t
  · rw [h] at he
    rcases registry_modify s.tables index i (·.define defined address kind) with hsame | ⟨rfl, hnew⟩
    · exact .inl (hsame ▸ he)
    · have hfind : ((s.tables.registry i).define defined address kind).find? name = some e := hnew ▸ he
      rw [Registry.find?_define] at hfind
      split at hfind
      · rename_i hname
        obtain rfl := Option.some.inj hfind
        exact .inr ⟨kind, by rw [hname.1]⟩
      · exact .inl hfind
  · rw [h] at he
    rcases registry_modify s.tables index i (·.remove removed) with hsame | ⟨rfl, hnew⟩
    · exact .inl (hsame ▸ he)
    · have hfind : ((s.tables.registry i).remove removed).find? name = some e := hnew ▸ he
      rw [Registry.find?_remove] at hfind
      split at hfind
      · cases hfind
      · exact .inl hfind
  · rw [h] at he
    exact .inl he
  · rw [h] at he
    exact .inl he

/-- What a registry holds it has held before, or it has been defined since. -/
theorem registry_after {i : Nat} {name : String} {e : SymbolEntry} : ∀ {s : Embedding σ} {steps : List Step},
    ((s.after host steps).tables.registry i).find? name = some e →
    (s.tables.registry i).find? name = some e ∨ ∃ kind, .define i name e.address kind ∈ steps
  | _, [], h => .inl h
  | s, t :: steps, h => by
    -- What is there at the end is traced back over the later steps to the first one.
    rcases registry_after (s := s.step host t) h with h | ⟨kind, hmem⟩
    · rcases s.registry_step host h with h | ⟨kind, rfl⟩
      · exact .inl h
      · exact .inr ⟨kind, List.mem_cons_self⟩
    · exact .inr ⟨kind, List.mem_cons_of_mem t hmem⟩

end Embedding

/-! ## Sessions of a workbench -/

theorem Bridge.sameButLog_lookUp (b : Bridge σ) (raw : String) (want : SymbolKind) (w : World σ) :
    w.SameButLog ((do b.resolve (← b.name raw) want : Op σ BridgeError ResolvedSymbol) w).2 := by
  simp only [Bridge.name, Op.bind_run, Op.logAll_run, Op.ofExcept_run]
  cases SymbolName.ofText b.config.maxNameLength raw with
  | error e => exact w.sameButLog_logged _
  | ok name => exact (w.sameButLog_logged _).trans (World.sameButLog_logged _ _)

namespace Workbench

/-- What a step of a session does to the bridge and around it, unless it only looks. -/
def Step.effect? : Step → Option Embedding.Step
  | .run src => some (.run "script" src)
  | .runFile file =>
    match Text.ofFile file with
    | .ok src => some (.run "<path>" src)
    | .error _ => none
  | .dispatch entry args => some (.dispatch entry args)
  | .tryDispatch entry args => some (.tryDispatch entry args)
  | .invoke name args => some (.serve (.call name args))
  | .get name => some (.serve (.get name))
  | .set name value => some (.serve (.set name value))
  | .readLine prompt => some (.serve (.line prompt))
  | .declare name signature => some (.declare name signature)
  | .setVariable name value => some (.assign name value)
  | .define index d => some (.define index d.name d.place.address d.place.kind)
  | .remove index name => some (.remove index name)
  | .restart => some .restart
  | .getVariable _ | .builtins | .config | .cell _ | .resolve _ _ | .find _ | .names _ | .peek _ _ => none

def Session.embedding (s : Session) : Embedding State := ⟨s.tables, s.engine, s.world⟩

/-- An operation that touches the world like a request is one of its answers. -/
theorem Session.embedding_ofOp {α : Type} (s : Session) {op : Op State BridgeError α} {answer : α → Answer}
    {r : Bridge.Request} (h : (r.serve s.engine.bridge (host s.behaviour) s.world).2 = (op s.world).2) :
    (s.ofOp op answer).2.embedding = s.embedding.step (host s.behaviour) (.serve r) := by
  show ({ s.embedding with world := (op s.world).2 } : Embedding State) =
    { s.embedding with world := (r.serve s.engine.bridge (host s.behaviour) s.world).2 }
  rw [h]

theorem Session.looks_ofOp {α : Type} (s : Session) {op : Op State BridgeError α} {answer : α → Answer}
    (h : s.world.SameButLog (op s.world).2) : (s.ofOp op answer).2.tables = s.tables ∧
      (s.ofOp op answer).2.engine = s.engine ∧ s.world.SameButLog (s.ofOp op answer).2.world :=
  ⟨rfl, rfl, h⟩

/-- A session takes the steps of an embedding; a step that only looks changes nothing but the log. -/
theorem Session.embedding_step (s : Session) (t : Step) : match t.effect? with
    | some t' => (s.step t).2.embedding = s.embedding.step (host s.behaviour) t'
    | none => (s.step t).2.tables = s.tables ∧ (s.step t).2.engine = s.engine ∧ s.world.SameButLog (s.step t).2.world := by
  cases t with
  | runFile file =>
    rw [Step.effect?, step]
    cases Text.ofFile file with
    | ok src => rfl
    | error reason => exact ⟨rfl, rfl, rfl, rfl, rfl⟩
  | invoke name args =>
    simp only [Step.effect?, step]
    exact s.embedding_ofOp (by rw [Bridge.Request.serve, Op.bind_pure_run])
  | get name =>
    simp only [Step.effect?, step]
    exact s.embedding_ofOp (by rw [Bridge.Request.serve, Op.bind_pure_run])
  | set name value =>
    simp only [Step.effect?, step]
    exact s.embedding_ofOp (by rw [Bridge.Request.serve, Op.bind_pure_run])
  | readLine prompt =>
    simp only [Step.effect?, step]
    exact s.embedding_ofOp (by rw [Bridge.Request.serve, Op.bind_pure_run])
  | declare name signature =>
    have hbridge : s.embedding.engine.bridge = s.engine.bridge := rfl
    simp only [Step.effect?, step, Embedding.step, hbridge]
    cases s.engine.bridge.declare name signature with
    | ok bridge => rfl
    | error e => rfl
  | cell name =>
    simp only [Step.effect?, step]
    exact s.looks_ofOp (s.engine.bridge.cell_run name s.world).1
  | resolve name kind =>
    simp only [Step.effect?, step]
    exact s.looks_ofOp (s.engine.bridge.sameButLog_lookUp name kind s.world)
  | find name => exact ⟨rfl, rfl, s.world.sameButLog_logged _⟩
  | remove index name =>
    simp only [Step.effect?, step, Registry.withdraw_eq]
    rfl
  | getVariable | builtins | config | names | peek => exact ⟨rfl, rfl, rfl, rfl, rfl⟩
  | _ => rfl

end Workbench

end SymbolBridge
