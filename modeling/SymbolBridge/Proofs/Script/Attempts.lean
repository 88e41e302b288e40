import SymbolBridge.Proofs.Bridge.Request
import SymbolBridge.Proofs.Bridge.Targets
import SymbolBridge.Proofs.Script.Run

/-!
# What a script asks of the bridge

A script reaches the bridge through entry points and in no other way. Each call of one is an `Attempt`, which fails or
succeeds; a failure is logged and the script goes on. `Attempted w as w'` says that the world `w` became `w'` by the
attempts `as`, one after the other, and that nothing in between touched memory, reached a target or logged a warning. A
run of a script is of this form (`Engine.attempted_run`), so the warnings it logs are those of its attempts that failed,
one for each (`Attempted.warnings_eq`).
-/

namespace SymbolBridge

variable {σ ε : Type}

namespace World

/-- The world after an action has been recorded. -/
def recorded (w : World σ) (a : Action) : World σ := { w with journal := w.journal.push a }

end World

/-- The call node of an action that runs an entry point for a script. -/
def Action.entryCall? : Action → Option Script.Expr
  | .invoked (.entry _) callee args span => some (.call callee args span)
  | _ => none

/-- The calls of entry points that scripts have made in a world. -/
def World.entryCalls (w : World σ) : List Script.Expr := w.seen Action.entryCall?

theorem Action.overlooks_entryCall? : Action.Overlooks Action.entryCall? :=
  ⟨fun _ _ => rfl, fun _ _ => rfl, fun _ _ => rfl, fun _ _ => rfl⟩

/-- From one world to another nothing was asked of the bridge. -/
structure World.Idle (w w' : World σ) : Prop where
  memory : w'.memory = w.memory
  targets : w'.targets = w.targets
  warnings : w'.warnings = w.warnings
  entryCalls : w'.entryCalls = w.entryCalls

namespace World

variable {u v w : World σ}

theorem Idle.refl (w : World σ) : w.Idle w := ⟨rfl, rfl, rfl, rfl⟩

theorem Idle.trans (h : u.Idle v) (h' : v.Idle w) : u.Idle w :=
  ⟨h'.memory.trans h.memory, h'.targets.trans h.targets, h'.warnings.trans h.warnings,
    h'.entryCalls.trans h.entryCalls⟩

theorem idle_host (w : World σ) (host : σ) : w.Idle { w with host } := ⟨rfl, rfl, rfl, rfl⟩

/-- An action that no view shows leaves a world idle. -/
theorem idle_recorded (w : World σ) {a : Action} (ht : a.target? = none) (hw : a.warning? = none)
    (he : a.entryCall? = none) : w.Idle (w.recorded a) :=
  ⟨rfl, w.seen_push a _ _ ht, w.seen_push a _ _ hw, w.seen_push a _ _ he⟩

theorem idle_logged (w : World σ) {es : List Event} (h : Quiet es) : w.Idle (w.logged es) :=
  ⟨rfl, seen_logged (fun _ _ => rfl) w, seen_logged (fun e he => if_neg (h e he)) w, seen_logged (fun _ _ => rfl) w⟩

end World

namespace Script

/-! ## Attempts -/

/-- A call of an entry point by a script: the call node, the values of its arguments, and what came of it. -/
structure Attempt where
  entry : EntryPoint
  callee : String
  operands : List Expr
  span : Span
  args : List Value
  outcome : Except BridgeError (Option Value)

namespace Attempt

def call (a : Attempt) : Expr := .call a.callee a.operands a.span

/-- What the journal says when the call is made. -/
def action (a : Attempt) : Action := .invoked (.entry a.entry) a.callee a.operands a.span

/-- The warning about an attempt that failed. -/
def warning? (a : Attempt) : Option Event :=
  match a.outcome with
  | .ok _ => none
  | .error cause => some (.entryFailed a.entry cause)

/-- The world when a failure has been logged. -/
def settled (a : Attempt) (w : World σ) : World σ := w.logged a.warning?.toList

/-- What the script goes on with. -/
def value? (a : Attempt) : Option Value :=
  match a.outcome with
  | .ok value => value
  | .error _ => none

end Attempt

/-- What some attempts make of a world, one after the other. -/
inductive Attempted (b : Bridge σ) (host : Host σ) : World σ → List Attempt → World σ → Prop where
  | idle {w w' : World σ} : w.Idle w' → Attempted b host w [] w'
  | cons {w u v w' : World σ} {a : Attempt} {as : List Attempt} :
      w.Idle u → b.tryDispatch host a.entry a.args (u.recorded a.action) = (a.outcome, v) →
      Attempted b host (a.settled v) as w' → Attempted b host w (a :: as) w'

variable {b : Bridge σ} {host : Host σ} {u v w w' : World σ} {as bs : List Attempt}

theorem Attempted.of_idle (h : u.Idle v) (h' : Attempted b host v as w) : Attempted b host u as w := by
  cases h' with
  | idle h' => exact .idle (h.trans h')
  | cons h' hrun hrest => exact .cons (h.trans h') hrun hrest

theorem Attempted.trans (h : Attempted b host u as v) (h' : Attempted b host v bs w) :
    Attempted b host u (as ++ bs) w := by
  induction h with
  | idle h => exact h'.of_idle h
  | cons h hrun _ ih => exact .cons h hrun (ih h')

/-- The answer of an entry point is that of one attempt. -/
theorem dispatch_attempt (a : Attempt)
    (h : b.tryDispatch host a.entry a.args (u.recorded a.action) = (a.outcome, v)) :
    (b.dispatch host a.entry a.args : Op σ ε (Option Value)) (u.recorded a.action) =
      (.ok a.value?, a.settled v) := by
  rw [Bridge.dispatch_run, h]
  obtain ⟨entry, callee, operands, span, args, outcome | outcome⟩ := a
  · rfl
  · simp [Attempt.value?, Attempt.settled, Attempt.warning?, World.logged]

/-! ## Warnings -/

theorem seen_recorded_tryDispatch {τ : Type} {view : Action → Option τ} (hview : Action.Overlooks view) {a : Attempt}
    (h : b.tryDispatch host a.entry a.args (u.recorded a.action) = (a.outcome, v)) :
    v.seen view = (u.recorded a.action).seen view := by
  have hsame : (b.tryDispatch host a.entry a.args (u.recorded a.action)).2.seen view = _ :=
    b.unseen_tryDispatch hview a.entry a.args (u.recorded a.action)
  rwa [h] at hsame

theorem Attempt.warnings_settled (a : Attempt) (w : World σ) :
    (a.settled w).warnings = w.warnings ++ a.warning?.toList := by
  obtain ⟨entry, callee, operands, span, args, cause | value⟩ := a
  · simp [Attempt.settled, Attempt.warning?, World.warnings, World.seen, World.logged, Action.warning?, Event.level]
  · simp [Attempt.settled, Attempt.warning?, World.logged]

/-- The warnings are those about the attempts that failed. -/
theorem Attempted.warnings_eq (h : Attempted b host w as w') :
    w'.warnings = w.warnings ++ as.filterMap Attempt.warning? := by
  induction h with
  | idle h => rw [h.warnings, List.filterMap_nil, List.append_nil]
  | @cons w u v w' a as hidle hrun _ ih =>
    have hv : v.warnings = u.warnings := (seen_recorded_tryDispatch Action.overlooks_warning? hrun).trans
      (u.seen_push a.action _ _ rfl)
    have hcons : (a :: as).filterMap Attempt.warning? = a.warning?.toList ++ as.filterMap Attempt.warning? := by
      cases ha : a.warning? <;> simp [ha]
    rw [ih, a.warnings_settled, hv, hidle.warnings, hcons, List.append_assoc]

/-- The calls of entry points are those of the attempts. -/
theorem Attempted.entryCalls_eq (h : Attempted b host w as w') :
    w'.entryCalls = w.entryCalls ++ as.map Attempt.call := by
  induction h with
  | idle h => rw [h.entryCalls, List.map_nil, List.append_nil]
  | @cons w u v w' a as hidle hrun _ ih =>
    have hv : v.entryCalls = u.entryCalls ++ [a.call] :=
      (seen_recorded_tryDispatch Action.overlooks_entryCall? hrun).trans (u.seen_push_of_eq_some _ _ rfl)
    have hsettled : (a.settled v).entryCalls = v.entryCalls := World.seen_logged (fun _ _ => rfl) v
    rw [ih, hsettled, hv, hidle.entryCalls, List.map_cons, List.append_assoc, List.singleton_append]

/-! ## Runs -/

theorem write_cons_run (host : Host σ) (span : Span) (piece : String) (rest : List String) (w : World σ) :
    write host span (piece :: rest) w =
      if piece.isEmpty then write host span rest w
      else
        match host.print piece w.host with
          | (.ok (), s) => write host span rest { w with host := s }
          | (.error reason, s) => (.error (.runtime (.outputFailed reason) span), { w with host := s }) := by
  by_cases hp : piece.isEmpty
  · rw [if_pos hp, write, hp]
    rfl
  · rw [if_neg hp, write, Bool.eq_false_of_not_eq_true hp]
    show ((Op.onHost (host.print piece)).mapError (fun reason => .runtime (.outputFailed reason) span) >>= fun _ =>
      write host span rest) w = _
    rw [Op.bind_run, Op.mapError, Op.onHost]
    rcases host.print piece w.host with ⟨reason | ⟨⟩, s⟩
    · rfl
    · rfl

theorem write_run (host : Host σ) (span : Span) : ∀ (pieces : List String) (w : World σ),
    ∃ s, (write host span pieces w).2 = { w with host := s }
  | [], w => ⟨w.host, rfl⟩
  | piece :: rest, w => by
    rw [write_cons_run]
    split
    · exact write_run host span rest w
    · rcases host.print piece w.host with ⟨reason | ⟨⟩, s⟩
      · exact ⟨s, rfl⟩
      · exact write_run host span rest { w with host := s }

theorem idle_write (host : Host σ) (span : Span) (pieces : List String) (w : World σ) :
    w.Idle (write host span pieces w).2 := by
  obtain ⟨s, hs⟩ := write_run host span pieces w
  rw [hs]
  exact w.idle_host s

theorem attempted_invocation {builtin : Builtin} {callee : String} {args : List Expr} {span : Span}
    {values : List Value} {r : Except Error (Option Value)}
    (h : invocation b host builtin callee args span values w = (r, w')) : ∃ as, Attempted b host w as w' := by
  have hrun : runBuiltin b host span values builtin (w.recorded (.invoked builtin callee args span)) = (r, w') := h
  cases builtin with
  | print =>
    have hw : w' = (write host span ["\t".intercalate (values.map Value.toText), "\n"]
        (w.recorded (.invoked .print callee args span))).2 := by
      rw [runBuiltin, Op.bind_pure_run] at hrun
      exact (congrArg Prod.snd hrun).symm
    have hrecorded : w.Idle (w.recorded (.invoked .print callee args span)) := w.idle_recorded rfl rfl rfl
    exact ⟨[], .idle (hrecorded.trans (hw ▸ idle_write host span _ _))⟩
  | entry e =>
    -- The record of the call opens the attempt, and the logged failure, if any, closes it.
    rcases hd : b.tryDispatch host e values (w.recorded (.invoked (.entry e) callee args span)) with ⟨outcome, v⟩
    have ha := dispatch_attempt (ε := Error) ⟨e, callee, args, span, values, outcome⟩ hd
    rw [runBuiltin] at hrun
    obtain rfl : _ = w' := congrArg Prod.snd (ha.symm.trans hrun)
    exact ⟨[_], .cons (.refl w) hd (.idle (.refl _))⟩

theorem Invokes.attempted {vs : Variables} {calls : List Expr} {r : Except Error Unit}
    (h : Invokes b host vs w calls r w') : ∃ as, Attempted b host w as w' := by
  induction h with
  | nil w => exact ⟨[], .idle (.refl w)⟩
  | append _ _ ih ih' =>
    obtain ⟨as, has⟩ := ih
    obtain ⟨bs, hbs⟩ := ih'
    exact ⟨as ++ bs, has.trans hbs⟩
  | call _ _ _ hi ih =>
    obtain ⟨as, has⟩ := ih
    obtain ⟨bs, hbs⟩ := attempted_invocation hi
    exact ⟨as ++ bs, has.trans hbs⟩

theorem Interrupted.attempted {vs : Variables} {calls : List Expr} {e : Error}
    (h : Interrupted b host vs w calls e w') : ∃ as, Attempted b host w as w' := by
  obtain ⟨done, -, hi | hi⟩ := h
  · exact hi.attempted
  · exact hi.attempted

theorem Executed.attempted {vs vs' : Variables} {ss : List Statement} (h : Executed b host vs w ss vs' w') :
    ∃ as, Attempted b host w as w' := by
  induction h with
  | nil _ w => exact ⟨[], .idle (.refl w)⟩
  | cons _ hi _ ih =>
    obtain ⟨as, has⟩ := hi.attempted
    obtain ⟨bs, hbs⟩ := ih
    exact ⟨as ++ bs, has.trans hbs⟩

namespace Engine

theorem attempted_execAll {engine engine' : Engine σ} {ss : List Statement} {r : Except Error Unit}
    (h : engine.execAll host ss w = ((r, engine'), w')) :
    engine'.bridge = engine.bridge ∧ ∃ as, Attempted engine.bridge host w as w' := by
  cases r with
  | ok =>
    obtain ⟨hb, hi⟩ := execAll_ok h
    exact ⟨hb, hi.attempted⟩
  | error e =>
    obtain ⟨hb, before, s, after, w₁, -, hstop⟩ := execAll_error h
    obtain ⟨as, has⟩ := hstop.performed.attempted
    obtain ⟨bs, hbs⟩ := hstop.interrupted.attempted
    exact ⟨hb, as ++ bs, has.trans hbs⟩

/-- A run drives one bridge, and all it asks of it are attempts. -/
theorem attempted_run (engine : Engine σ) (host : Host σ) (name src : String) (w : World σ) :
    (engine.run host name src w).1.2.bridge = engine.bridge ∧
      ∃ as, Attempted engine.bridge host w as (engine.run host name src w).2 := by
  cases hp : parse src with
  | error fault =>
    rw [run_of_parse_error hp]
    exact ⟨rfl, [], .idle (.refl w)⟩
  | ok ss =>
    have hlogged : w.Idle (w.logged [.runningScript name ss.length]) := w.idle_logged fun e he => by
      obtain rfl := List.mem_singleton.1 he
      simp [Event.level]
    rw [run_of_parse_ok hp]
    rcases he : engine.execAll host ss (w.logged [.runningScript name ss.length]) with ⟨⟨e | ⟨⟩, engine'⟩, w₁⟩
    · obtain ⟨hb, as, has⟩ := attempted_execAll he
      exact ⟨hb, as, has.of_idle hlogged⟩
    · obtain ⟨hb, as, has⟩ := attempted_execAll he
      have hflush : Attempted engine.bridge host w₁ [] (passOn host w₁).2 := .idle (w₁.idle_host _)
      exact ⟨hb, as ++ [], (has.of_idle hlogged).trans hflush⟩

end Engine

end Script

end SymbolBridge
