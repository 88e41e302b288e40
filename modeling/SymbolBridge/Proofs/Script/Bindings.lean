import SymbolBridge.Proofs.Script.Diagnostic

/-!
# What scripts leave in variables

No value that a script can make contains a handle, or a reference to a function that is no builtin
(`sound_of_eval`): handles come from the host alone, and what an entry point gives back is a number or a text. So the
variables that scripts leave behind are `Variables.Sound`, however many scripts ran and wherever each of them stopped
(`Engine.Reached.sound`).
-/

namespace SymbolBridge

variable {σ : Type}

/-! ## Values -/

namespace Value

/-- A value is another one, or is in it at some depth of its tables. -/
inductive Contains : Value → Value → Prop
  | self (v : Value) : Contains v v
  | item {items : List Value} {item v : Value} : item ∈ items → Contains item v → Contains (.table items) v

/-- Every function in a value is a builtin, and there is no handle in it. -/
structure Sound (v : Value) : Prop where
  functions : ∀ name, v.Contains (.function name) → name ∈ Builtin.names
  handles : ∀ address, ¬ v.Contains (.handle address)

theorem Contains.cases_table {items : List Value} {v : Value} (h : (Value.table items).Contains v) :
    v = .table items ∨ ∃ item ∈ items, item.Contains v := by
  cases h with
  | self => exact .inl rfl
  | item hitem h => exact .inr ⟨_, hitem, h⟩

theorem sound_table {items : List Value} (h : ∀ item ∈ items, item.Sound) : (Value.table items).Sound := by
  constructor
  case functions =>
    intro name hc
    obtain heq | ⟨item, hitem, hc⟩ := hc.cases_table
    · cases heq
    · exact (h item hitem).functions name hc
  case handles =>
    intro address hc
    obtain heq | ⟨item, hitem, hc⟩ := hc.cases_table
    · cases heq
    · exact (h item hitem).handles address hc

/-- A value with a form in a word contains nothing but itself. -/
theorem sound_of_isMarshallable {v : Value} (h : v.isMarshallable = true) : v.Sound := by
  constructor
  case functions =>
    intro name hc
    cases hc with
    | self => cases h
    | item => cases h
  case handles =>
    intro address hc
    cases hc with
    | self => cases h
    | item => cases h

theorem sound_function {name : String} (h : name ∈ Builtin.names) : (Value.function name).Sound := by
  constructor
  case functions =>
    intro other hc
    cases hc
    exact h
  case handles =>
    intro address hc
    cases hc

/-- The names of types whose values are neither nil nor callable, and which scripts can make. -/
def uncallableTypes : List String := ["boolean", "number", "string", "table"]

theorem Sound.typeName_mem {v : Value} (h : v.Sound) (hnil : v ≠ .nil) (hf : ∀ name, v ≠ .function name) :
    v.typeName ∈ uncallableTypes := by
  cases v with
  | nil => exact absurd rfl hnil
  | function name => exact absurd rfl (hf name)
  | handle address => exact absurd (.self _) (h.handles address)
  | _ => simp [typeName, uncallableTypes]

end Value

/-! ## What entry points give back -/

namespace Bridge

variable {b : Bridge σ} {host : Host σ} {w w' : World σ} {v : Value}

theorem Request.isMarshallable_of_serve {r : Request} (h : r.serve b host w = (.ok (some v), w')) :
    v.isMarshallable = true := by
  cases r with
  | call name args =>
    obtain ⟨n, -, hv⟩ := Op.bind_pure_eq_ok h
    cases hv
    rfl
  | get name =>
    obtain ⟨n, -, hv⟩ := Op.bind_pure_eq_ok h
    cases hv
    rfl
  | set name value =>
    obtain ⟨_, -, hv⟩ := Op.bind_pure_eq_ok h
    cases hv
  | line prompt =>
    obtain ⟨text, -, hv⟩ := Op.bind_pure_eq_ok h
    cases hv
    rfl

theorem isMarshallable_of_dispatch {ε : Type} {entry : EntryPoint} {args : List Value}
    (h : (b.dispatch host entry args : Op σ ε (Option Value)) w = (.ok (some v), w')) : v.isMarshallable = true := by
  rw [dispatch_run, tryDispatch_run] at h
  cases hr : Request.ofArguments entry args with
  | error e =>
    rw [hr] at h
    cases h
  | ok r =>
    rw [hr] at h
    rcases hs : r.serve b host w with ⟨cause | value, w₁⟩
    · simp only [hs] at h
      cases h
    · simp only [hs] at h
      cases h
      exact Request.isMarshallable_of_serve hs

end Bridge

namespace Script

/-! ## What expressions evaluate to -/

namespace Variables

/-- No variable is nil, and all values are sound. -/
structure Sound (vs : Variables) : Prop where
  bound : ∀ name, vs.find? name ≠ some .nil
  values : ∀ name v, vs.find? name = some v → v.Sound

variable {vs : Variables}

theorem sound_empty : Sound {} := by
  constructor
  case bound =>
    intro name h
    cases h
  case values =>
    intro name v h
    cases h

theorem Sound.set (h : vs.Sound) (name : String) {v : Value} (hv : v.Sound) : (vs.set name v).Sound := by
  constructor
  case bound =>
    intro k hk
    rw [find?_set] at hk
    split at hk
    · cases v <;> cases hk
    · exact h.bound k hk
  case values =>
    intro k u hk
    rw [find?_set] at hk
    split at hk
    · split at hk
      · cases hk
      · cases hk
        exact hv
    · exact h.values k u hk

theorem Sound.evalName (h : vs.Sound) (name : String) : (vs.evalName name).Sound := by
  unfold Variables.evalName
  cases hv : vs.find? name with
  | some v => exact h.values name v hv
  | none =>
    by_cases hb : (Builtin.ofName? name).isSome
    · rw [if_pos hb]
      apply Value.sound_function
      by_contra hno
      rw [Builtin.ofName?_eq_none_iff.2 hno] at hb
      cases hb
    · rw [if_neg hb]
      exact Value.sound_of_isMarshallable rfl

/-- A callee that stands for no builtin has no variable, or one that holds neither nil nor a function nor a handle. -/
theorem Sound.builtin_error (h : vs.Sound) {callee : String} {cause : RuntimeError}
    (hb : vs.builtin callee = .error cause) :
    (vs.find? callee = none ∧ callee ∉ Builtin.names ∧ cause = .unknownFunction callee) ∨
      ∃ v, vs.find? callee = some v ∧ v.typeName ∈ Value.uncallableTypes ∧
        cause = .notCallable v.typeName callee := by
  obtain ⟨v, hv, hf, rfl⟩ | ⟨name, hd, hname, rfl⟩ := builtin_eq_error hb
  · have hnil : v ≠ .nil := fun heq => h.bound callee (heq ▸ hv)
    exact .inr ⟨v, hv, (h.values callee v hv).typeName_mem hnil hf, rfl⟩
  · cases hd with
    | itself hnone => exact .inl ⟨hnone, hname, rfl⟩
    | through hv => exact absurd ((h.values callee _ hv).functions name (.self _)) hname

/-- A variable that holds a function is called through. -/
theorem Sound.builtin_of_function (h : vs.Sound) {callee name : String}
    (hv : vs.find? callee = some (.function name)) :
    ∃ builtin, Builtin.ofName? name = some builtin ∧ vs.builtin callee = .ok builtin := by
  cases hb : Builtin.ofName? name with
  | none =>
    have hname := Builtin.ofName?_eq_none_iff.1 hb
    exact absurd ((h.values callee _ hv).functions name (.self _)) hname
  | some builtin => exact ⟨builtin, rfl, by rw [builtin_of_denotes (.through hv), hb, Option.elim_some]⟩

end Variables

section

variable {b : Bridge σ} {host : Host σ} {vs : Variables}

theorem sound_of_runBuiltin {builtin : Builtin} {span : Span} {values : List Value} {value : Option Value}
    {w w' : World σ} (h : runBuiltin b host span values builtin w = (.ok value, w')) : (value.getD .nil).Sound := by
  apply Value.sound_of_isMarshallable
  cases builtin with
  | print =>
    obtain ⟨_, -, rfl⟩ := Op.bind_pure_eq_ok h
    rfl
  | entry entry =>
    cases value with
    | none => rfl
    | some v => exact Bridge.isMarshallable_of_dispatch h

mutual

/-- With sound variables every value is sound. -/
theorem sound_of_eval (hvs : vs.Sound) : ∀ (e : Expr) {v : Value} {w w' : World σ},
    eval b host vs e w = (.ok v, w') → v.Sound
  | .nil, _, _, _, h | .bool _, _, _, _, h | .number _, _, _, _, h | .str _, _, _, _, h => by
    rw [eval] at h
    cases h
    exact Value.sound_of_isMarshallable rfl
  | .var name _, _, _, _, h => by
    rw [eval] at h
    cases h
    exact hvs.evalName name
  | .table items, v, w, w', h => by
    rw [eval] at h
    obtain ⟨values, hitems, rfl⟩ := Op.bind_pure_eq_ok h
    exact Value.sound_table (sound_of_evalAll hvs items hitems)
  | .call callee args span, v, w, w', h => by
    rw [eval] at h
    obtain ⟨builtin, w₁, -, h⟩ := Op.bind_eq_ok h
    obtain ⟨values, w₂, -, h⟩ := Op.bind_eq_ok h
    obtain ⟨_, w₃, -, h⟩ := Op.bind_eq_ok h
    obtain ⟨value, hrun, rfl⟩ := Op.bind_pure_eq_ok h
    exact sound_of_runBuiltin hrun
  | .concat left right span, v, w, w', h => by
    -- whatever the operands are, the result is a text
    rw [eval] at h
    obtain ⟨x, w₁, -, h⟩ := Op.bind_eq_ok h
    obtain ⟨y, w₂, -, h⟩ := Op.bind_eq_ok h
    obtain ⟨s, w₃, -, h⟩ := Op.bind_eq_ok h
    obtain ⟨t, -, rfl⟩ := Op.bind_pure_eq_ok h
    exact Value.sound_of_isMarshallable rfl

theorem sound_of_evalAll (hvs : vs.Sound) : ∀ (es : List Expr) {values : List Value} {w w' : World σ},
    evalAll b host vs es w = (.ok values, w') → ∀ v ∈ values, v.Sound
  | [], values, _, _, h => by
    rw [evalAll] at h
    cases h
    intro v hv
    cases hv
  | e :: es, values, w, w', h => by
    rw [evalAll] at h
    obtain ⟨v, w₁, he, h⟩ := Op.bind_eq_ok h
    obtain ⟨rest, hrest, rfl⟩ := Op.bind_pure_eq_ok h
    intro u hu
    rcases List.mem_cons.1 hu with rfl | hu
    · exact sound_of_eval hvs e he
    · exact sound_of_evalAll hvs es hrest u hu

end

end

/-! ## What statements and scripts leave -/

theorem sound_of_exec {b : Bridge σ} {host : Host σ} {vs vs' : Variables} {s : Statement} {w w' : World σ}
    (hvs : vs.Sound) (h : exec b host vs s w = (.ok vs', w')) : vs'.Sound := by
  cases s with
  | assign name value span =>
    obtain ⟨v, hv, rfl⟩ := exec_assign h
    exact hvs.set name (sound_of_eval hvs value hv)
  | call callee args span =>
    rw [exec_call h]
    exact hvs

namespace Engine

variable {host : Host σ} {engine engine' : Engine σ} {name src : String} {w w' : World σ}

/-- Statements leave sound variables, also if one of them fails. -/
theorem sound_execAll (host : Host σ) (h : engine.bindings.Sound) (ss : List Statement) (w : World σ) :
    (engine.execAll host ss w).1.2.bindings.Sound := by
  induction ss generalizing engine w with
  | nil => exact h
  | cons s ss ih =>
    rw [execAll_cons]
    rcases hs : exec engine.bridge host engine.bindings s w with ⟨e | bindings, w₁⟩
    · exact h
    · have hnext : Variables.Sound (Engine.bindings ⟨engine.bridge, bindings⟩) := sound_of_exec h hs
      exact ih hnext w₁

theorem sound_run (host : Host σ) (h : engine.bindings.Sound) (name src : String) (w : World σ) :
    (engine.run host name src w).1.2.bindings.Sound := by
  cases hp : parse src with
  | error fault =>
    rw [run_of_parse_error hp]
    exact h
  | ok ss =>
    have hss := sound_execAll host h ss (w.logged [.runningScript name ss.length])
    rw [run_of_parse_ok hp]
    rcases hr : engine.execAll host ss (w.logged [.runningScript name ss.length]) with ⟨⟨e | ⟨⟩, engine'⟩, w₁⟩
    · rw [hr] at hss
      exact hss
    · rw [hr] at hss
      exact hss

/-- An engine that has been started and has run scripts, whatever became of them and of the world in between. -/
inductive Reached (σ : Type) : Engine σ → Prop
  | started (bridge : Bridge σ) (w : World σ) : Reached σ (start bridge w).1
  | ran {engine : Engine σ} (host : Host σ) (name src : String) (w : World σ) :
      Reached σ engine → Reached σ (engine.run host name src w).1.2

theorem Reached.sound (h : Reached σ engine) : engine.bindings.Sound := by
  induction h with
  | started bridge w => exact Variables.sound_empty
  | ran host name src w _ ih => exact sound_run host ih name src w

end Engine

end Script

end SymbolBridge
