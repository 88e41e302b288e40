import SymbolBridge.Proofs.Script.Evaluation

/-!
# Engines that behave alike

An evaluation looks variables up by their names and does nothing else with them, so it is the same with all variables that
give every name the same value (`eval_congr`). Two engines over one bridge with such variables are `Engine.Alike`. They
run every script with the same result and the same effect on the world, and are alike afterwards (`Engine.Alike.run`), and
so on through any sequence of scripts (`Engine.Alike.runAll`).
-/

namespace SymbolBridge.Script

variable {σ : Type}

namespace Variables

/-- Every name has the same value in both. -/
def Alike (vs vs' : Variables) : Prop := ∀ name, vs.find? name = vs'.find? name

variable {vs vs' : Variables}

theorem evalName_congr {name : String} (h : vs.find? name = vs'.find? name) : vs.evalName name = vs'.evalName name := by
  rw [evalName, evalName, h]

theorem builtin_congr {callee : String} (h : vs.find? callee = vs'.find? callee) :
    vs.builtin callee = vs'.builtin callee := by
  simp only [builtin, h]

theorem Alike.set (h : vs.Alike vs') (name : String) (v : Value) : (vs.set name v).Alike (vs'.set name v) := by
  intro k
  rw [find?_set, find?_set, h k]

end Variables

/-! ## Evaluation -/

section

variable {b : Bridge σ} {host : Host σ} {vs vs' : Variables}

mutual

theorem eval_congr (h : vs.Alike vs') : ∀ e : Expr, eval b host vs e = eval b host vs' e
  | .nil | .bool _ | .number _ | .str _ => by rw [eval, eval]
  | .table items => by rw [eval, eval, evalAll_congr h items]
  | .var name _ => by rw [eval, eval, Variables.evalName_congr (h name)]
  | .call callee args _ => by rw [eval, eval, Variables.builtin_congr (h callee), evalAll_congr h args]
  | .concat left right _ => by rw [eval, eval, eval_congr h left, eval_congr h right]

theorem evalAll_congr (h : vs.Alike vs') : ∀ es : List Expr, evalAll b host vs es = evalAll b host vs' es
  | [] => by rw [evalAll, evalAll]
  | e :: es => by rw [evalAll, evalAll, eval_congr h e, evalAll_congr h es]

end

/-- The variables after a statement whose expression has a value. -/
def Statement.settled (vs : Variables) (v : Value) : Statement → Variables
  | .assign name _ _ => vs.set name v
  | .call .. => vs

theorem exec_run (s : Statement) (w : World σ) : exec b host vs s w =
    ((eval b host vs s.expr w).1.map (s.settled vs), (eval b host vs s.expr w).2) := by
  cases s with
  | assign name value span => exact Op.bind_pure_run _ (vs.set name) w
  | call callee args span => exact Op.bind_pure_run _ (fun _ => vs) w

theorem Variables.Alike.settled (h : vs.Alike vs') (v : Value) (s : Statement) :
    (s.settled vs v).Alike (s.settled vs' v) := by
  cases s with
  | assign name value span => exact h.set name v
  | call callee args span => exact h

end

/-! ## Runs -/

namespace Engine

/-- The same bridge, and variables that give every name the same value. -/
structure Alike (engine engine' : Engine σ) : Prop where
  bridge : engine.bridge = engine'.bridge
  bindings : engine.bindings.Alike engine'.bindings

/-- Two runs come to the same: one result, one world, and engines that are alike. -/
structure SameOutcome {α : Type} (x y : (α × Engine σ) × World σ) : Prop where
  result : x.1.1 = y.1.1
  engine : x.1.2.Alike y.1.2
  world : x.2 = y.2

theorem SameOutcome.exists_eq {α : Type} {x y : (α × Engine σ) × World σ} (h : SameOutcome x y) :
    ∃ r engine engine' w, x = ((r, engine), w) ∧ y = ((r, engine'), w) ∧ engine.Alike engine' := by
  obtain ⟨⟨r, engine⟩, w⟩ := x
  obtain ⟨⟨r', engine'⟩, w'⟩ := y
  obtain rfl : r = r' := h.result
  obtain rfl : w = w' := h.world
  exact ⟨r, engine, engine', w, rfl, rfl, h.engine⟩

variable {engine engine' : Engine σ}

theorem Alike.execAll (h : engine.Alike engine') (host : Host σ) (ss : List Statement) (w : World σ) :
    SameOutcome (engine.execAll host ss w) (engine'.execAll host ss w) := by
  induction ss generalizing engine engine' w with
  | nil => exact ⟨rfl, h, rfl⟩
  | cons s ss ih =>
    rw [execAll_cons, execAll_cons, exec_run, exec_run, ← h.bridge, eval_congr h.bindings]
    rcases eval engine.bridge host engine'.bindings s.expr w with ⟨e | v, w₁⟩
    · exact ⟨rfl, h, rfl⟩
    · have hnext : Alike ⟨engine.bridge, s.settled engine.bindings v⟩ ⟨engine.bridge, s.settled engine'.bindings v⟩ :=
        ⟨rfl, h.bindings.settled v s⟩
      exact ih hnext w₁

theorem Alike.run (h : engine.Alike engine') (host : Host σ) (name src : String) (w : World σ) :
    SameOutcome (engine.run host name src w) (engine'.run host name src w) := by
  cases hp : parse src with
  | error fault =>
    rw [run_of_parse_error hp, run_of_parse_error hp]
    exact ⟨rfl, h, rfl⟩
  | ok ss =>
    obtain ⟨r, engine₁, engine₁', w₁, hx, hy, halike⟩ :=
      (h.execAll host ss (w.logged [.runningScript name ss.length])).exists_eq
    rw [run_of_parse_ok hp, run_of_parse_ok hp, hx, hy]
    cases r with
    | error e => exact ⟨rfl, halike, rfl⟩
    | ok _ => exact ⟨rfl, halike, rfl⟩

/-- Runs scripts, each with its name, one after the other whatever comes of them. -/
def runAll (host : Host σ) (engine : Engine σ) :
    List (String × String) → StateM (World σ) (List (Except Error Unit) × Engine σ)
  | [] => return ([], engine)
  | (name, src) :: rest => do
    let (r, engine) ← engine.run host name src
    let (rs, engine) ← engine.runAll host rest
    return (r :: rs, engine)

theorem runAll_cons (host : Host σ) (name src : String) (rest : List (String × String)) (w : World σ) :
    engine.runAll host ((name, src) :: rest) w = match engine.run host name src w with
      | ((r, engine₁), w₁) => match engine₁.runAll host rest w₁ with
        | ((rs, engine₂), w₂) => ((r :: rs, engine₂), w₂) := rfl

theorem Alike.runAll (h : engine.Alike engine') (host : Host σ) (scripts : List (String × String)) (w : World σ) :
    SameOutcome (engine.runAll host scripts w) (engine'.runAll host scripts w) := by
  induction scripts generalizing engine engine' w with
  | nil => exact ⟨rfl, h, rfl⟩
  | cons script rest ih =>
    obtain ⟨name, src⟩ := script
    obtain ⟨r, engine₁, engine₁', w₁, hx, hy, halike⟩ := (h.run host name src w).exists_eq
    obtain ⟨hresults, hlast, hend⟩ := ih halike w₁
    rw [runAll_cons, runAll_cons, hx, hy]
    exact ⟨congrArg (r :: ·) hresults, hlast, hend⟩

end Engine

end SymbolBridge.Script
