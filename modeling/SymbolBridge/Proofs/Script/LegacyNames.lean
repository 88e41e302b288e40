import SymbolBridge.Proofs.Script.Alike
import SymbolBridge.Workbench.Session

/-!
# Legacy names of entry points

Every entry point has a legacy name, and a script may call it by either of the two. `modernize` puts the modern name in
the place of every callee that is a legacy name: in expressions, in statements, and in the journal of a world, which notes
the calls of scripts as they are written. Two scripts are the same up to legacy names if `modernize` takes them to one
script; what callees may differ then is `EntryPoint.modernName_eq_iff`.

The argument is a lockstep. A modernized operation does in a modernized world what the operation does in the world, with
the same result (`Op.Lockstep`). This holds of everything a bridge does (`Bridge.lockstep_dispatch`), since nothing reads
the journal, and of the evaluation of every expression with variables under which no name of an entry point is bound
(`lockstep_eval`). No assignment of the script binds one, so it holds of whole runs (`Engine.lockstep_execAll`,
`Engine.lockstep_runStatements`), and two scripts that are the same up to legacy names are both in lockstep with one
(`Engine.runStatements_of_modernize_eq`).
-/

namespace SymbolBridge

variable {σ ε ε' α β : Type} {host : Host σ}

/-! ## Names -/

namespace EntryPoint

/-- The names of all entry points, modern and legacy. -/
def spellings : List String := all.map name ++ all.map legacyName

/-- The modern name for a legacy name; every other name stays. -/
def modernName (callee : String) : String := ((all.find? (·.legacyName == callee)).map name).getD callee

theorem modernName_legacyName (e : EntryPoint) : modernName e.legacyName = e.name := by
  cases e <;> decide

theorem modernName_name (e : EntryPoint) : modernName e.name = e.name := by
  cases e <;> decide

theorem modernName_of_notMem {callee : String} (h : callee ∉ spellings) : modernName callee = callee := by
  have hnone : all.find? (·.legacyName == callee) = none := by
    rw [List.find?_eq_none]
    intro e he hname
    have hmem : e.legacyName ∈ spellings := List.mem_append_right _ (List.mem_map_of_mem he)
    exact h (beq_iff_eq.1 hname ▸ hmem)
  rw [modernName, hnone]
  rfl

theorem mem_all (e : EntryPoint) : e ∈ all := by
  cases e <;> decide

/-- A name of some entry point is its modern name or its legacy name. -/
theorem mem_spellings {callee : String} :
    callee ∈ spellings ↔ ∃ e : EntryPoint, callee = e.name ∨ callee = e.legacyName := by
  simp only [spellings, List.mem_append, List.mem_map, mem_all, true_and]
  constructor
  · rintro (⟨e, rfl⟩ | ⟨e, rfl⟩)
    · exact ⟨e, .inl rfl⟩
    · exact ⟨e, .inr rfl⟩
  · rintro ⟨e, rfl | rfl⟩
    · exact .inl ⟨e, rfl⟩
    · exact .inr ⟨e, rfl⟩

theorem modernName_of_spells {e : EntryPoint} {callee : String} (h : callee = e.name ∨ callee = e.legacyName) :
    modernName callee = e.name := by
  rcases h with rfl | rfl
  · exact modernName_name e
  · exact modernName_legacyName e

theorem modernName_mem_spellings_iff {callee : String} : modernName callee ∈ spellings ↔ callee ∈ spellings := by
  by_cases h : callee ∈ spellings
  · obtain ⟨e, he⟩ := mem_spellings.1 h
    simp only [h, iff_true, modernName_of_spells he]
    exact mem_spellings.2 ⟨e, .inl rfl⟩
  · rw [modernName_of_notMem h]

theorem name_injective {e e' : EntryPoint} (h : e.name = e'.name) : e = e' := by
  revert h
  cases e <;> cases e' <;> decide

/-- Two callees are the same up to legacy names if they are equal or names of one entry point. -/
theorem modernName_eq_iff {callee callee' : String} : modernName callee = modernName callee' ↔
    callee = callee' ∨
      ∃ e : EntryPoint, (callee = e.name ∨ callee = e.legacyName) ∧ (callee' = e.name ∨ callee' = e.legacyName) := by
  constructor
  · intro h
    by_cases hc : callee ∈ spellings
    · have hc' : callee' ∈ spellings := by rwa [← modernName_mem_spellings_iff, ← h, modernName_mem_spellings_iff]
      obtain ⟨e, he⟩ := mem_spellings.1 hc
      obtain ⟨e', he'⟩ := mem_spellings.1 hc'
      rw [modernName_of_spells he, modernName_of_spells he'] at h
      obtain rfl := name_injective h
      exact .inr ⟨e, he, he'⟩
    · have hc' : callee' ∉ spellings := by rwa [← modernName_mem_spellings_iff, ← h, modernName_mem_spellings_iff]
      rw [modernName_of_notMem hc, modernName_of_notMem hc'] at h
      exact .inl h
  · rintro (rfl | ⟨e, he, he'⟩)
    · rfl
    · rw [modernName_of_spells he, modernName_of_spells he']

end EntryPoint

/-- Both names of an entry point name its builtin. -/
theorem Builtin.ofName?_of_spells {e : EntryPoint} {callee : String} (h : callee = e.name ∨ callee = e.legacyName) :
    Builtin.ofName? callee = some (.entry e) := by
  rcases h with rfl | rfl
  · cases e <;> rfl
  · cases e <;> rfl

/-! ## Modern scripts -/

namespace Script

namespace Expr

mutual

/-- The expression with modern callees. -/
def modernize : Expr → Expr
  | .nil => .nil
  | .bool b => .bool b
  | .number n => .number n
  | .str s => .str s
  | .table items => .table (modernizeAll items)
  | .var name span => .var name span
  | .call callee args span => .call (EntryPoint.modernName callee) (modernizeAll args) span
  | .concat left right span => .concat left.modernize right.modernize span

def modernizeAll : List Expr → List Expr
  | [] => []
  | e :: es => e.modernize :: modernizeAll es

end

end Expr

/-- The statement with modern callees. -/
def Statement.modernize : Statement → Statement
  | .assign name value span => .assign name value.modernize span
  | .call callee args span => .call (EntryPoint.modernName callee) (Expr.modernizeAll args) span

theorem Statement.expr_modernize (s : Statement) : s.modernize.expr = s.expr.modernize := by
  cases s <;> rfl

theorem Statement.assigned?_modernize (s : Statement) : s.modernize.assigned? = s.assigned? := by
  cases s <;> rfl

theorem Statement.settled_modernize (vs : Variables) (v : Value) (s : Statement) :
    s.modernize.settled vs v = s.settled vs v := by
  cases s <;> rfl

end Script

open Script (Variables Expr Statement Engine)

/-- What is noted of a step, with modern callees. -/
def Action.modernize : Action → Action
  | .invoked builtin callee args span => .invoked builtin (EntryPoint.modernName callee) (Expr.modernizeAll args) span
  | a => a

/-- The world with modern callees in its journal. -/
def World.modernize (w : World σ) : World σ := { w with journal := w.journal.map Action.modernize }

theorem World.modernize_push (w : World σ) (a : Action) (m : Memory) (host : σ) :
    World.modernize { memory := m, host := host, journal := w.journal.push a } =
      { memory := m, host := host, journal := w.modernize.journal.push a.modernize } := by
  simp [World.modernize]

theorem World.modernize_logged (w : World σ) (es : List Event) : (w.logged es).modernize = w.modernize.logged es := by
  have hes : (es.map Action.logged).map Action.modernize = es.map Action.logged := by simp [Action.modernize]
  simp [World.modernize, World.logged, hes]

/-- An action other than the note of a call of a script. -/
def Action.deed? : Action → Option Action
  | .invoked .. => none
  | a => some a

/-- What has been done in a world, with the calls of scripts left out. -/
def World.deeds (w : World σ) : List Action := w.seen Action.deed?

theorem Action.deed?_modernize (a : Action) : a.modernize.deed? = a.deed? := by
  cases a <;> rfl

theorem Action.warning?_modernize (a : Action) : a.modernize.warning? = a.warning? := by
  cases a <;> rfl

/-- What does not show callees is the same in a modernized world. -/
theorem World.seen_modernize {τ : Type} {view : Action → Option τ} (h : ∀ a, view a.modernize = view a) (w : World σ) :
    w.modernize.seen view = w.seen view := by
  have hview : view ∘ Action.modernize = view := funext h
  rw [World.seen, World.seen, World.modernize, Array.toList_map, List.filterMap_map, hview]

/-! ## Operations in lockstep -/

namespace Op

/-- The second operation does in a modernized world what the first one does in the world. -/
def Lockstep (x y : Op σ ε α) : Prop := ∀ w : World σ, y w.modernize = ((x w).1, (x w).2.modernize)

theorem lockstep_ofExcept (r : Except ε α) : Lockstep (Op.ofExcept r : Op σ ε α) (Op.ofExcept r) := fun _ => rfl

theorem lockstep_pure (a : α) : Lockstep (pure a : Op σ ε α) (pure a) := fun _ => rfl

theorem Lockstep.bind {x y : Op σ ε α} {f g : α → Op σ ε β} (hx : Lockstep x y) (hf : ∀ a, Lockstep (f a) (g a)) :
    Lockstep (x >>= f) (y >>= g) := by
  intro w
  rw [Op.bind_run, Op.bind_run, hx w]
  rcases x w with ⟨e | a, w₁⟩
  · rfl
  · exact hf a w₁

theorem Lockstep.mapError {x y : Op σ ε α} (h : Lockstep x y) (f : ε → ε') :
    Lockstep (x.mapError f) (y.mapError f) := by
  intro w
  simp only [Op.mapError, h w]
  rfl

theorem Lockstep.outcome {x y : Op σ ε α} (h : Lockstep x y) :
    Lockstep (x.outcome : Op σ ε' (Except ε α)) y.outcome := by
  intro w
  simp only [Op.outcome, h w]
  rfl

theorem lockstep_onHost (act : StateM σ (Except ε α)) : Lockstep (Op.onHost act) (Op.onHost act) := fun _ => rfl

theorem lockstep_record (a : Action) : Lockstep (Op.record a : Op σ ε Unit) (Op.record a.modernize) := fun w =>
  congrArg (Prod.mk (Except.ok ())) (w.modernize_push a w.memory w.host).symm

theorem lockstep_log (e : Event) : Lockstep (Op.log e : Op σ ε Unit) (Op.log e) := lockstep_record (.logged e)

theorem lockstep_logAll (es : List Event) : Lockstep (Op.logAll es : Op σ ε Unit) (Op.logAll es) := fun w =>
  congrArg (Prod.mk (Except.ok ())) (w.modernize_logged es).symm

theorem lockstep_callNative (host : Host σ) (address : Word) (arguments : ArgumentVector) :
    Lockstep (Op.callNative host address arguments : Op σ ε Word) (Op.callNative host address arguments) := fun w =>
  congrArg (Prod.mk (Except.ok _)) (w.modernize_push (.called address arguments.slots) _ _).symm

theorem lockstep_loadCell (address : Word) (width : Width) :
    Lockstep (Op.loadCell address width : Op σ ε Nat) (Op.loadCell address width) := fun w =>
  congrArg (Prod.mk (Except.ok _)) (w.modernize_push (.loaded address width) w.memory w.host).symm

theorem lockstep_storeCell (address : Word) (width : Width) (value : Nat) :
    Lockstep (Op.storeCell address width value : Op σ ε Unit) (Op.storeCell address width value) := fun w =>
  congrArg (Prod.mk (Except.ok ())) (w.modernize_push (.stored address width) _ w.host).symm

end Op

/-- No step of a bridge reads the journal. -/
theorem Op.lockstep_self (host : Host σ) : Op.Invariant host fun _ _ op => op.Lockstep op where
  ofExcept := Op.lockstep_ofExcept
  bind := Op.Lockstep.bind
  mapError f hx := hx.mapError f
  onHost := Op.lockstep_onHost
  logAll _ := Op.lockstep_logAll _
  callNative := Op.lockstep_callNative host
  loadCell := Op.lockstep_loadCell
  storeCell := Op.lockstep_storeCell

theorem Bridge.lockstep_dispatch (b : Bridge σ) (entry : EntryPoint) (args : List Value) :
    Op.Lockstep (b.dispatch host entry args : Op σ ε (Option Value)) (b.dispatch host entry args) := by
  refine ((Op.lockstep_self host).tryDispatch b entry args).outcome.bind fun r => ?_
  cases r with
  | ok value => exact Op.lockstep_pure value
  | error cause => exact (Op.lockstep_log _).bind fun _ => Op.lockstep_pure none

/-! ## Expressions -/

namespace Script

open Op

variable {b : Bridge σ} {vs : Variables}

/-- No variable has a name of an entry point. -/
def Variables.SpareEntryPoints (vs : Variables) : Prop := ∀ name ∈ EntryPoint.spellings, vs.find? name = none

/-- A callee and its modern name stand for one builtin: neither is a variable if they differ. -/
theorem Variables.SpareEntryPoints.builtin_modernName (h : vs.SpareEntryPoints) (callee : String) :
    vs.builtin (EntryPoint.modernName callee) = vs.builtin callee := by
  by_cases hc : callee ∈ EntryPoint.spellings
  · obtain ⟨e, he⟩ := EntryPoint.mem_spellings.1 hc
    have hmodern : EntryPoint.modernName callee = e.name := EntryPoint.modernName_of_spells he
    have hmem : e.name ∈ EntryPoint.spellings := EntryPoint.mem_spellings.2 ⟨e, .inl rfl⟩
    rw [hmodern, Variables.builtin_of_denotes (.itself (h callee hc)),
      Variables.builtin_of_denotes (.itself (h e.name hmem)), Builtin.ofName?_of_spells he,
      Builtin.ofName?_of_spells (.inl rfl), Option.elim_some, Option.elim_some]
  · rw [EntryPoint.modernName_of_notMem hc]

theorem Variables.SpareEntryPoints.settled (h : vs.SpareEntryPoints) (v : Value) {s : Statement}
    (hs : ∀ name, s.assigned? = some name → name ∉ EntryPoint.spellings) : (s.settled vs v).SpareEntryPoints := by
  intro name hname
  cases s with
  | assign target value span =>
    have hne : name ≠ target := fun heq => hs target rfl (heq ▸ hname)
    exact (vs.find?_set_of_ne v hne).trans (h name hname)
  | call callee args span => exact h name hname

theorem lockstep_invocation (builtin : Builtin) (callee : String) (args : List Expr) (span : Span)
    (values : List Value) : Lockstep (invocation b host builtin callee args span values)
      (invocation b host builtin (EntryPoint.modernName callee) (Expr.modernizeAll args) span values) := by
  refine (lockstep_record (.invoked builtin callee args span)).bind fun _ => ?_
  cases builtin with
  | print => exact (write_of_invariant (lockstep_self host) span _).bind fun _ => lockstep_pure none
  | entry e => exact b.lockstep_dispatch e values

theorem lockstep_atSpan (span : Span) (r : Except RuntimeError α) :
    Lockstep (atSpan span r : Op σ Error α) (atSpan span r) := lockstep_ofExcept _

mutual

/-- Modern callees leave the value of an expression as it is, and what evaluating it does. -/
theorem lockstep_eval (h : vs.SpareEntryPoints) : ∀ e : Expr, Lockstep (eval b host vs e) (eval b host vs e.modernize)
  | .nil | .bool _ | .number _ | .str _ | .var _ _ => lockstep_pure _
  | .table items => by
    rw [Expr.modernize, eval, eval]
    exact (lockstep_evalAll h items).bind fun _ => lockstep_pure _
  | .call callee args span => by
    rw [Expr.modernize, eval, eval, h.builtin_modernName]
    refine (lockstep_atSpan span _).bind fun builtin => (lockstep_evalAll h args).bind fun values => ?_
    exact (lockstep_invocation builtin callee args span values).bind fun _ => lockstep_pure _
  | .concat left right span => by
    rw [Expr.modernize, eval, eval]
    refine (lockstep_eval h left).bind fun x => (lockstep_eval h right).bind fun y => ?_
    exact (lockstep_atSpan span _).bind fun _ => (lockstep_atSpan span _).bind fun _ => lockstep_pure _

theorem lockstep_evalAll (h : vs.SpareEntryPoints) : ∀ es : List Expr,
    Lockstep (evalAll b host vs es) (evalAll b host vs (Expr.modernizeAll es))
  | [] => lockstep_pure _
  | e :: es => by
    rw [Expr.modernizeAll, evalAll, evalAll]
    exact (lockstep_eval h e).bind fun _ => (lockstep_evalAll h es).bind fun _ => lockstep_pure _

end

/-! ## Runs -/

namespace Engine

/-- Runs the statements of a script that has been read. -/
def runStatements (engine : Engine σ) (host : Host σ) (name : String) (ss : List Statement) :
    StateM (World σ) (Except Error Unit × Engine σ) := fun w =>
  match engine.execAll host ss (w.logged [.runningScript name ss.length]) with
  | ((.error e, engine'), w₁) => ((.error e, engine'), w₁)
  | ((.ok (), engine'), w₁) => (((passOn host w₁).1, engine'), (passOn host w₁).2)

variable {engine : Engine σ}

theorem lockstep_execAll (hvs : engine.bindings.SpareEntryPoints) (host : Host σ) (w : World σ) (ss : List Statement)
    (hss : ∀ s ∈ ss, ∀ name, s.assigned? = some name → name ∉ EntryPoint.spellings) :
    engine.execAll host (ss.map Statement.modernize) w.modernize =
      ((engine.execAll host ss w).1, (engine.execAll host ss w).2.modernize) := by
  induction ss generalizing engine w with
  | nil => rfl
  | cons s ss ih =>
    have heval : Op.Lockstep (eval engine.bridge host engine.bindings s.expr) _ := lockstep_eval hvs s.expr
    rw [List.map_cons, execAll_cons, execAll_cons, exec_run, exec_run, Statement.expr_modernize, heval w]
    rcases eval engine.bridge host engine.bindings s.expr w with ⟨e | v, w₁⟩
    · rfl
    · have hnext : (s.settled engine.bindings v).SpareEntryPoints := hvs.settled v (hss s List.mem_cons_self)
      simp only [Except.map, Statement.settled_modernize]
      exact ih hnext w₁ fun s' hs' => hss s' (List.mem_cons_of_mem s hs')

theorem lockstep_runStatements (hvs : engine.bindings.SpareEntryPoints) (host : Host σ) (name : String) (w : World σ)
    (ss : List Statement) (hss : ∀ s ∈ ss, ∀ x, s.assigned? = some x → x ∉ EntryPoint.spellings) :
    engine.runStatements host name (ss.map Statement.modernize) w.modernize =
      ((engine.runStatements host name ss w).1, (engine.runStatements host name ss w).2.modernize) := by
  rw [runStatements, runStatements, List.length_map, ← World.modernize_logged, lockstep_execAll hvs host _ ss hss]
  rcases engine.execAll host ss (w.logged [.runningScript name ss.length]) with ⟨⟨e | ⟨⟩, engine'⟩, w₁⟩
  · rfl
  · rfl

/-- Two runs come to the same: one result, one engine, and worlds that differ at most in the spelling of the callees on
the journal. So they did the same in the same order: native calls, accesses to globals and events, warnings among them.
The host, which was shown the prompts and given the printed texts, is in the same state. -/
structure SameRun (x y : (Except Error Unit × Engine σ) × World σ) : Prop where
  outcome : x.1 = y.1
  memory : x.2.memory = y.2.memory
  host : x.2.host = y.2.host
  deeds : x.2.deeds = y.2.deeds
  warnings : x.2.warnings = y.2.warnings
  journal : x.2.journal.map Action.modernize = y.2.journal.map Action.modernize

theorem sameRun_of_modernize_eq {x y : (Except Error Unit × Engine σ) × World σ} (h : x.1 = y.1)
    (hw : x.2.modernize = y.2.modernize) : SameRun x y := by
  have hmemory : x.2.memory = y.2.memory := (World.mk.inj hw).1
  have hhost : x.2.host = y.2.host := (World.mk.inj hw).2.1
  refine ⟨h, hmemory, hhost, ?_, ?_, (World.mk.inj hw).2.2⟩
  · rw [World.deeds, World.deeds, ← World.seen_modernize Action.deed?_modernize x.2, hw,
      World.seen_modernize Action.deed?_modernize]
  · rw [World.warnings, World.warnings, ← World.seen_modernize Action.warning?_modernize x.2, hw,
      World.seen_modernize Action.warning?_modernize]

/-- **Either name of an entry point will do.** Take a script that assigns no name of an entry point and an engine without
a variable of such a name, and respell any callees of the script, at any depth: modern for legacy, or legacy for modern.
(To read such a name as a value is no harm, since only callees are respelled.) Both run to the same result, the same error
at the same span if they fail, with the same variables, memory and state of the host, and with the same actions on the
way. Running a source is running the statements that it is parsed into. -/
theorem runStatements_of_modernize_eq (engine : Engine σ) (host : Host σ) (name : String) (w : World σ)
    {ss ss' : List Statement} (hrespelled : ss.map Statement.modernize = ss'.map Statement.modernize)
    (hassigned : ∀ s ∈ ss, ∀ x, s.assigned? = some x → x ∉ EntryPoint.spellings)
    (hbindings : engine.bindings.SpareEntryPoints) :
    SameRun (engine.runStatements host name ss w) (engine.runStatements host name ss' w) ∧
      ∀ src, parse src = .ok ss → engine.run host name src w = engine.runStatements host name ss w := by
  have hassigned' : ∀ s ∈ ss', ∀ x, s.assigned? = some x → x ∉ EntryPoint.spellings := by
    intro s' hs' x hx
    have hmem : s'.modernize ∈ ss.map Statement.modernize := hrespelled ▸ List.mem_map_of_mem hs'
    obtain ⟨s, hs, heq⟩ := List.mem_map.1 hmem
    refine hassigned s hs x ?_
    rw [← s.assigned?_modernize, heq, s'.assigned?_modernize, hx]
  have hrun := lockstep_runStatements hbindings host name w ss hassigned
  have hrun' := lockstep_runStatements hbindings host name w ss' hassigned'
  rw [hrespelled, hrun'] at hrun
  obtain ⟨houtcome, hworld⟩ := Prod.mk.inj hrun
  exact ⟨sameRun_of_modernize_eq houtcome.symm hworld.symm, fun src hsrc => run_of_parse_ok hsrc w⟩

/-- A global read through its legacy name for a call that goes through a variable. -/
theorem respelled_in_call_through_variable : ∃ (engine : Engine Workbench.State) (ss ss' : List Statement),
    engine.bindings.find? "f" = some (.function "vxDo") ∧ ss ≠ ss' ∧
    parse "print(f(vxGet(\"optind\")))" = .ok ss ∧
    SameRun
      (engine.runStatements (Workbench.host {}) "script" ss { memory := {}, host := {} })
      (engine.runStatements (Workbench.host {}) "script" ss' { memory := {}, host := {} }) := by
  let script (getter : String) : List Statement :=
    [.call "print" [.call "f" [.call getter [.str "optind"] ⟨8, 23⟩] ⟨6, 24⟩] ⟨0, 25⟩]
  let engine : Engine Workbench.State :=
    { bridge := { symbols := fun _ => Library.table }, bindings := ⟨[("f", .function "vxDo")]⟩ }
  have htext : "print(f(vxGet(\"optind\")))".toList = ['p', 'r', 'i', 'n', 't', '(', 'f', '(', 'v', 'x', 'G', 'e', 't', '(',
      '"', 'o', 'p', 't', 'i', 'n', 'd', '"', ')', ')', ')'] := by simp
  have hparse : parse "print(f(vxGet(\"optind\")))" = .ok (script "vxGet") := by
    rw [parse, Cursor.ofSource, htext]
    rfl
  have hspare : engine.bindings.SpareEntryPoints := by
    intro name hname
    obtain ⟨e, rfl | rfl⟩ := EntryPoint.mem_spellings.1 hname
    · cases e <;> decide
    · cases e <;> decide
  have hassigned : ∀ s ∈ script "vxGet", ∀ x, s.assigned? = some x → x ∉ EntryPoint.spellings := by
    intro s hs x hx
    obtain rfl := List.mem_singleton.1 hs
    cases hx
  have hrespelled : (script "vxGet").map Statement.modernize = (script "getGlobal").map Statement.modernize := rfl
  obtain ⟨hsame, -⟩ := runStatements_of_modernize_eq engine (Workbench.host {}) "script" { memory := {}, host := {} }
    hrespelled hassigned hspare
  exact ⟨engine, script "vxGet", script "getGlobal", rfl, by simp [script], hparse, hsame⟩

end Engine

end Script

end SymbolBridge
