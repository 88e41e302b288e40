import SymbolBridge.Proofs.Native.Effects
import SymbolBridge.Bridge.Basic

/-!
# Views of the journal

A view shows something of every action of a journal, or nothing. What a world shows in a view is `World.seen`; the calls
that scripts made in it are `World.calls`, the warnings that were logged are `World.warnings`. An operation is `Unseen` in
a view if it adds nothing to what the view shows.

What holds of the single steps of a bridge and is kept where operations follow each other, an `Op.Invariant`, holds of all
that a bridge does for an entry point (`Op.Invariant.tryDispatch`). Being unseen is one in a view that shows no native call,
no access to a global and no event but warnings (`Bridge.unseen_tryDispatch`). So only the engine makes calls
(`Bridge.silent_dispatch`), and an entry point logs no warning of its own before it reports how it fared.
-/

namespace SymbolBridge

variable {σ ε ε' α β τ : Type} {host : Host σ} {view : Action → Option τ}

open Script (Expr)

/-- What a world shows in a view. -/
def World.seen (view : Action → Option τ) (w : World σ) : List τ := w.journal.toList.filterMap view

/-- An operation that adds nothing to what a view shows. -/
def Op.Unseen (view : Action → Option τ) (op : Op σ ε α) : Prop := ∀ w, (op w).2.seen view = w.seen view

/-- The call node of an action that runs a builtin for a script. -/
def Action.call? : Action → Option Expr
  | .invoked _ callee args span => some (.call callee args span)
  | _ => none

/-- The calls of scripts that a world has seen. -/
def World.calls (w : World σ) : List Expr := w.journal.toList.filterMap Action.call?

/-- An operation that makes no call of a script. -/
abbrev Op.Silent (op : Op σ ε α) : Prop := op.Unseen Action.call?

/-- The event of an action that logs a warning. -/
def Action.warning? : Action → Option Event
  | .logged e => if e.level = .warn then some e else none
  | _ => none

/-- The warnings that have been logged in a world. -/
def World.warnings (w : World σ) : List Event := w.seen Action.warning?

/-! ## Operations -/

namespace World

theorem seen_push (w : World σ) (a : Action) (m : Memory) (host : σ) (h : view a = none) :
    World.seen view { memory := m, host := host, journal := w.journal.push a } = World.seen view w := by
  simp [World.seen, h]

theorem seen_push_of_eq_some (w : World σ) {a : Action} {x : τ} (m : Memory) (host : σ) (h : view a = some x) :
    World.seen view { memory := m, host := host, journal := w.journal.push a } = World.seen view w ++ [x] := by
  simp [World.seen, h]

theorem seen_logged {es : List Event} (h : ∀ e ∈ es, view (.logged e) = none) (w : World σ) :
    (w.logged es).seen view = w.seen view := by
  have hes : (es.map Action.logged).filterMap view = [] := by simpa using h
  simp [World.seen, World.logged, hes]

end World

namespace Op

theorem unseen_ofExcept (r : Except ε α) : Unseen view (Op.ofExcept r : Op σ ε α) := fun _ => rfl

theorem unseen_pure (a : α) : Unseen view (pure a : Op σ ε α) := fun _ => rfl

theorem Unseen.bind {x : Op σ ε α} {f : α → Op σ ε β} (hx : Unseen view x) (hf : ∀ a, Unseen view (f a)) :
    Unseen view (x >>= f) := by
  intro w
  rw [Op.bind_run]
  have h := hx w
  rcases hr : x w with ⟨e | a, w₁⟩
  · rw [hr] at h
    exact h
  · rw [hr] at h
    exact (hf a w₁).trans h

theorem Unseen.mapError {x : Op σ ε α} (hx : Unseen view x) (f : ε → ε') : Unseen view (x.mapError f) := fun w => hx w

theorem Unseen.outcome {x : Op σ ε α} (hx : Unseen view x) : Unseen view (x.outcome : Op σ ε' (Except ε α)) :=
  fun w => hx w

theorem unseen_onHost (act : StateM σ (Except ε α)) : Unseen view (Op.onHost act) := fun _ => rfl

theorem unseen_logAll {es : List Event} (h : ∀ e ∈ es, view (.logged e) = none) :
    Unseen view (Op.logAll es : Op σ ε Unit) := fun w => World.seen_logged h w

theorem silent_onHost (act : StateM σ (Except ε α)) : Silent (Op.onHost act) := unseen_onHost act

theorem silent_logAll (es : List Event) : Silent (Op.logAll es : Op σ ε Unit) := unseen_logAll fun _ _ => rfl

theorem silent_log (e : Event) : Silent (Op.log e : Op σ ε Unit) := fun w => World.seen_push w _ _ _ rfl

end Op

/-! ## Events -/

/-- No event of a list is a warning. -/
def Quiet (es : List Event) : Prop := ∀ e ∈ es, e.level ≠ .warn

theorem Quiet.append {es es' : List Event} (h : Quiet es) (h' : Quiet es') : Quiet (es ++ es') :=
  List.forall_mem_append.2 ⟨h, h'⟩

theorem SymbolName.quiet_events (bound : Nat) (raw : String) : Quiet (SymbolName.events bound raw) := by
  intro e he
  unfold SymbolName.events at he
  split at he
  · obtain rfl := List.mem_singleton.1 he
    simp [Event.level]
  · cases he

theorem ArgumentVector.quiet_events (limit : Nat) (args : List Value) : Quiet (ArgumentVector.events limit args) := by
  refine Quiet.append ?_ ?_
  · intro e he
    split at he
    · obtain rfl := List.mem_singleton.1 he
      simp [Event.level]
    · cases he
  · intro e he
    obtain ⟨es, hes, he⟩ := List.mem_flatten.1 he
    obtain ⟨i, hi, rfl⟩ := List.mem_mapIdx.1 hes
    unfold Value.marshalEvents at he
    split at he
    · obtain rfl := List.mem_singleton.1 he
      simp [Event.level]
    · rcases List.mem_cons.1 he with rfl | he
      · simp [Event.level]
      · obtain rfl := List.mem_singleton.1 he
        simp [Event.level]

theorem Finding.quiet_events (f : Finding) : Quiet f.events := by
  intro e he
  rw [Finding.events] at he
  obtain ⟨s, -, rfl⟩ := List.mem_map.1 he
  simp [Sighting.event, Event.level]

theorem SymbolTable.quiet_firstServing (t : SymbolTable) (want : SymbolKind) : ∀ ss : List Spelling,
    Quiet (t.firstServing want ss).events
  | [] => fun _ he => by cases he
  | s :: ss => by
    have hfound := (t.find s.text).quiet_events
    have hrest : ∀ e : Event, e.level ≠ .warn → Quiet (e :: (t.firstServing want ss).events) := fun e he =>
      List.forall_mem_cons.2 ⟨he, t.quiet_firstServing want ss⟩
    rw [firstServing]
    split
    · exact hfound.append (hrest _ (by simp [Event.level]))
    · split
      · exact hfound.append fun e he => by
          obtain rfl := List.mem_singleton.1 he
          simp [Event.level]
      · exact hfound.append (hrest _ (by simp [Event.level]))

/-! ## Operations of a bridge -/

/-- A property that the steps of a bridge have, and that operations keep which are put together from them. No step logs
a warning. -/
structure Op.Invariant (host : Host σ) (P : ∀ ε α : Type, Op σ ε α → Prop) : Prop where
  ofExcept {ε α : Type} (r : Except ε α) : P ε α (Op.ofExcept r)
  bind {ε α β : Type} {x : Op σ ε α} {f : α → Op σ ε β} : P ε α x → (∀ a, P ε β (f a)) → P ε β (x >>= f)
  mapError {ε ε' α : Type} {x : Op σ ε α} (f : ε → ε') : P ε α x → P ε' α (x.mapError f)
  onHost {ε α : Type} (act : StateM σ (Except ε α)) : P ε α (Op.onHost act)
  logAll {ε : Type} {es : List Event} : Quiet es → P ε Unit (Op.logAll es)
  callNative {ε : Type} (address : Word) (arguments : ArgumentVector) : P ε Word (Op.callNative host address arguments)
  loadCell {ε : Type} (address : Word) (width : Width) : P ε Nat (Op.loadCell address width)
  storeCell {ε : Type} (address : Word) (width : Width) (value : Nat) : P ε Unit (Op.storeCell address width value)

namespace Op.Invariant

variable {P : ∀ ε α : Type, Op σ ε α → Prop} (h : Op.Invariant host P) (b : Bridge σ)

include h

theorem pure (a : α) : P ε α (Pure.pure a) := h.ofExcept (.ok a)

theorem look (f : σ → α) : P ε α (Op.look f) := h.onHost _

theorem throw (e : ε) : P ε α (MonadExcept.throw e) := h.ofExcept (.error e)

theorem log {e : Event} (he : e.level ≠ .warn) : P ε Unit (Op.log e) := by
  have hlog : (Op.log e : Op σ ε Unit) = Op.logAll [e] := funext fun w => Op.log_run e w
  have hquiet : Quiet [e] := fun e' he' => List.mem_singleton.1 he' ▸ he
  rw [hlog]
  exact h.logAll hquiet

theorem name (raw : String) : P BridgeError SymbolName (b.name raw) :=
  h.bind (h.logAll (SymbolName.quiet_events _ _)) fun _ => h.ofExcept _

theorem resolve (name : SymbolName) (want : SymbolKind) : P BridgeError ResolvedSymbol (b.resolve name want) :=
  h.bind (h.look b.symbols) fun table => h.bind (h.logAll (table.quiet_firstServing _ _)) fun _ => h.ofExcept _

theorem invoke (raw : String) (args : List Value) : P BridgeError Int64 (b.invoke host raw args) := by
  have hcall : ∀ name, P BridgeError Int64 (do
      Op.logAll (ArgumentVector.events b.config.maxArguments args)
      let allocator ← Op.look host.allocator
      let arguments := ArgumentVector.ofValues b.config.numberWidth b.config.maxArguments args allocator
      let found ← b.resolve name .code
      Op.log (.invoking found.spelling.text arguments.length)
      let word ← Op.callNative host found.entry.address arguments
      return (b.returnKind name).interpret word) := by
    intro name
    refine h.bind (h.logAll (ArgumentVector.quiet_events _ _)) fun _ => h.bind (h.look _) fun allocator => ?_
    refine h.bind (h.resolve b name .code) fun found => ?_
    refine h.bind (h.log (by simp [Event.level])) fun _ => ?_
    exact h.bind (h.callNative _ _) fun _ => h.pure _
  refine h.bind (h.name b raw) fun name => ?_
  cases b.signatureFault? name args with
  | none => exact hcall name
  | some fault => exact h.bind (h.throw _) fun _ => hcall name

theorem cell (raw : String) : P BridgeError GlobalCell (b.cell raw) :=
  h.bind (h.name b raw) fun _ => h.bind (h.resolve b _ .data) fun _ => h.pure _

theorem getVariable (raw : String) : P BridgeError Int64 (b.getVariable raw) := by
  refine h.bind (h.cell b raw) fun _ => h.bind (h.loadCell _ _) fun _ => ?_
  exact h.bind (h.log (by simp [Event.level])) fun _ => h.pure _

theorem setVariable (raw : String) (value : Value) : P BridgeError Unit (b.setVariable raw value) := by
  refine h.bind (h.cell b raw) fun _ => h.bind (h.storeCell _ _ _) fun _ => ?_
  exact h.log (by simp [Event.level])

/-- What holds of the steps holds of what an entry point does. -/
theorem tryDispatch (entry : EntryPoint) (args : List Value) :
    P BridgeError (Option Value) (b.tryDispatch host entry args) := by
  cases entry with
  | call => exact h.bind (h.ofExcept _) fun r => h.bind (h.invoke b r.1 r.2) fun _ => h.pure _
  | getGlobal => exact h.bind (h.ofExcept _) fun r => h.bind (h.getVariable b r.1) fun _ => h.pure _
  | setGlobal =>
    refine h.bind (h.ofExcept _) fun r => ?_
    obtain ⟨name, rest⟩ := r
    cases rest with
    | nil => exact h.throw _
    | cons value _ => exact h.bind (h.setVariable b name value) fun _ => h.pure _
  | readLine => exact h.bind (h.ofExcept _) fun r => h.bind (h.mapError _ (h.onHost _)) fun _ => h.pure _

end Op.Invariant

/-! ## Entry points -/

/-- A view that shows nothing of what a bridge does before an entry point reports how it fared. -/
structure Action.Overlooks (view : Action → Option τ) : Prop where
  logged (e : Event) : e.level ≠ .warn → view (.logged e) = none
  called (address : Word) (slots : Slots) : view (.called address slots) = none
  loaded (address : Word) (width : Width) : view (.loaded address width) = none
  stored (address : Word) (width : Width) : view (.stored address width) = none

theorem Action.overlooks_call? : Action.Overlooks Action.call? :=
  ⟨fun _ _ => rfl, fun _ _ => rfl, fun _ _ => rfl, fun _ _ => rfl⟩

theorem Action.overlooks_warning? : Action.Overlooks Action.warning? :=
  ⟨fun _ he => if_neg he, fun _ _ => rfl, fun _ _ => rfl, fun _ _ => rfl⟩

theorem Action.Overlooks.unseen (hview : Action.Overlooks view) (host : Host σ) :
    Op.Invariant host fun _ _ op => op.Unseen view where
  ofExcept := Op.unseen_ofExcept
  bind := Op.Unseen.bind
  mapError f hx := hx.mapError f
  onHost := Op.unseen_onHost
  logAll hes := Op.unseen_logAll fun e he => hview.logged e (hes e he)
  callNative _ _ w := World.seen_push w _ _ _ (hview.called _ _)
  loadCell _ _ w := World.seen_push w _ _ _ (hview.loaded _ _)
  storeCell _ _ _ w := World.seen_push w _ _ _ (hview.stored _ _)

namespace Bridge

open Op

variable (b : Bridge σ)

/-- Nothing that an entry point does is seen. -/
theorem unseen_tryDispatch (hview : Action.Overlooks view) (entry : EntryPoint) (args : List Value) :
    Unseen view (b.tryDispatch host entry args) := (hview.unseen host).tryDispatch b entry args

/-- No entry point makes a call of a script. -/
theorem silent_dispatch (entry : EntryPoint) (args : List Value) :
    Silent (b.dispatch host entry args : Op σ ε (Option Value)) := by
  refine (b.unseen_tryDispatch Action.overlooks_call? entry args).outcome.bind fun r => ?_
  cases r with
  | ok value => exact unseen_pure value
  | error cause => exact (silent_log _).bind fun _ => unseen_pure none

end Bridge

end SymbolBridge
