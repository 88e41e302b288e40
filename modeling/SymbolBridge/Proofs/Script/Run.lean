import SymbolBridge.Proofs.Bridge.Silent
import SymbolBridge.Proofs.Script.Tree
import SymbolBridge.Script.Engine

/-!
# Which calls a script makes

The calls of a script are its call nodes in post-order. `Invokes vs w cs r w'` says that the world `w` became `w'` by the
calls `cs`, one after the other, and by nothing else: each of them runs the builtin that its callee stands for under the
variables `vs`, on the values that its arguments have where they have just been evaluated. An operation `Performs` some
calls if this holds of it with all of them where it succeeds, and with the first of them where it fails (`performs_eval`,
`performs_exec`). So a run makes each call at most once and in order; where it fails in a statement, the variables are
those before this statement, and no statement after it is touched (`run_performs`).
-/

namespace SymbolBridge.Script

variable {σ : Type}

section

variable (bridge : Bridge σ) (host : Host σ)

/-- A builtin is run for a call whose arguments have values. -/
def invocation (builtin : Builtin) (callee : String) (args : List Expr) (span : Span) (values : List Value) :
    Op σ Error (Option Value) := do
  Op.record (.invoked builtin callee args span)
  runBuiltin bridge host span values builtin

/-- What some calls make of a world, one after the other; the last of them may fail. The builtin of a call is the one that
its callee stands for, and it is run on the values of the arguments once these have been evaluated. -/
inductive Invokes (vs : Variables) : World σ → List Expr → Except Error Unit → World σ → Prop where
  | nil (w : World σ) : Invokes vs w [] (.ok ()) w
  | append {w w₁ w' : World σ} {cs ds : List Expr} {r : Except Error Unit} :
      Invokes vs w cs (.ok ()) w₁ → Invokes vs w₁ ds r w' → Invokes vs w (cs ++ ds) r w'
  | call {w w₁ w' : World σ} {builtin : Builtin} {callee : String} {args : List Expr} {span : Span}
      {values : List Value} {r : Except Error (Option Value)} :
      vs.builtin callee = .ok builtin → evalAll bridge host vs args w = (.ok values, w₁) →
      Invokes vs w ((Expr.nodesAll args).filter Expr.isCall) (.ok ()) w₁ →
      invocation bridge host builtin callee args span values w₁ = (r, w') →
      Invokes vs w ((Expr.nodesAll args).filter Expr.isCall ++ [.call callee args span]) (r.map fun _ => ()) w'

/-- The first of some calls were made, after which there was an error, in the last of them or outside. -/
def Interrupted (vs : Variables) (w : World σ) (calls : List Expr) (e : Error) (w' : World σ) : Prop :=
  ∃ done, done <+: calls ∧ (Invokes bridge host vs w done (.ok ()) w' ∨ Invokes bridge host vs w done (.error e) w')

/-- An operation does nothing but make some calls: all of them if it succeeds. -/
def Performs (vs : Variables) {α : Type} (op : Op σ Error α) (calls : List Expr) : Prop := ∀ w : World σ,
  (∀ a w', op w = (.ok a, w') → Invokes bridge host vs w calls (.ok ()) w') ∧
    ∀ e w', op w = (.error e, w') → Interrupted bridge host vs w calls e w'

/-- Statements were executed in order, each with the variables that those before it left, and each made its calls. -/
inductive Executed : Variables → World σ → List Statement → Variables → World σ → Prop where
  | nil (vs : Variables) (w : World σ) : Executed vs w [] vs w
  | cons {vs vs₁ vs' : Variables} {w w₁ w' : World σ} {s : Statement} {ss : List Statement} :
      exec bridge host vs s w = (.ok vs₁, w₁) → Invokes bridge host vs w s.calls (.ok ()) w₁ →
      Executed vs₁ w₁ ss vs' w' → Executed vs w (s :: ss) vs' w'

end

variable {bridge : Bridge σ} {host : Host σ} {vs : Variables} {α β : Type}

theorem Interrupted.append {w w' : World σ} {cs : List Expr} {e : Error} (h : Interrupted bridge host vs w cs e w')
    (ds : List Expr) : Interrupted bridge host vs w (cs ++ ds) e w' := by
  obtain ⟨done, hd, h⟩ := h
  exact ⟨done, hd.trans (List.prefix_append cs ds), h⟩

theorem Invokes.interrupted {w w₁ w' : World σ} {cs ds : List Expr} {e : Error}
    (h : Invokes bridge host vs w cs (.ok ()) w₁) (h' : Interrupted bridge host vs w₁ ds e w') :
    Interrupted bridge host vs w (cs ++ ds) e w' := by
  obtain ⟨done, hd, hi⟩ := h'
  exact ⟨cs ++ done, (List.prefix_append_right_inj cs).2 hd, hi.imp h.append h.append⟩

/-! ## Operations in sequence -/

theorem performs_ofExcept (r : Except Error α) : Performs bridge host vs (Op.ofExcept r) [] := by
  refine fun w => ⟨fun a w' h => ?_, fun e w' h => ?_⟩
  · cases h
    exact .nil w
  · cases h
    exact ⟨[], List.prefix_rfl, .inl (.nil w)⟩

theorem performs_pure (a : α) : Performs bridge host vs (pure a) [] := performs_ofExcept (.ok a)

theorem Performs.bind {x : Op σ Error α} {f : α → Op σ Error β} {cs ds : List Expr}
    (hx : Performs bridge host vs x cs) (hf : ∀ a, Performs bridge host vs (f a) ds) :
    Performs bridge host vs (x >>= f) (cs ++ ds) := by
  intro w
  rw [Op.bind_run]
  obtain ⟨hok, herror⟩ := hx w
  rcases hr : x w with ⟨e | a, w₁⟩
  · refine ⟨fun b w' h => ?_, fun e' w' h => ?_⟩
    · cases h
    · cases h
      exact (herror e w₁ hr).append ds
  · obtain ⟨hok', herror'⟩ := hf a w₁
    have hi := hok a w₁ hr
    exact ⟨fun b w' h => hi.append (hok' b w' h), fun e w' h => hi.interrupted (herror' e w' h)⟩

/-! ## Expressions -/

/-- The callee is looked up first, then the arguments are evaluated, and then the builtin runs. -/
theorem eval_call_run (callee : String) (args : List Expr) (span : Span) (w : World σ) :
    eval bridge host vs (.call callee args span) w = match vs.builtin callee with
      | .error cause => (.error (.runtime cause span), w)
      | .ok builtin =>
        match evalAll bridge host vs args w with
          | (.error e, w') => (.error e, w')
          | (.ok values, w') =>
            ((invocation bridge host builtin callee args span values w').1.map (·.getD .nil),
              (invocation bridge host builtin callee args span values w').2) := by
  rw [eval, atSpan, Op.ofExcept_bind_run]
  cases vs.builtin callee with
  | error cause => rfl
  | ok builtin =>
    show (evalAll bridge host vs args >>= fun values =>
      invocation bridge host builtin callee args span values >>= fun value => pure (value.getD .nil)) w = _
    rw [Op.bind_run]
    rcases evalAll bridge host vs args w with ⟨e | values, w'⟩
    · rfl
    · exact Op.bind_pure_run _ _ w'

theorem performs_call {callee : String} {args : List Expr} {span : Span}
    (h : Performs bridge host vs (evalAll bridge host vs args) ((Expr.nodesAll args).filter Expr.isCall)) :
    Performs bridge host vs (eval bridge host vs (.call callee args span)) (Expr.call callee args span).calls := by
  intro w
  obtain ⟨hok, herror⟩ := h w
  rw [Expr.calls_call, eval_call_run]
  cases hb : vs.builtin callee with
  | error cause =>
    refine ⟨nofun, fun e w' he => ?_⟩
    cases he
    exact ⟨[], List.nil_prefix, .inl (.nil w)⟩
  | ok builtin =>
    rcases hv : evalAll bridge host vs args w with ⟨e | values, w₁⟩
    · refine ⟨nofun, fun e' w' he => ?_⟩
      cases he
      exact (herror e w₁ hv).append _
    · have hargs := hok values w₁ hv
      rcases hi : invocation bridge host builtin callee args span values w₁ with ⟨e | value, w₂⟩
      · simp only [hi]
        refine ⟨nofun, fun e' w' he => ?_⟩
        cases he
        exact ⟨_, List.prefix_rfl, .inr (.call hb hv hargs hi)⟩
      · simp only [hi]
        refine ⟨fun a w' he => ?_, nofun⟩
        cases he
        exact .call hb hv hargs hi

mutual

/-- Evaluating an expression makes its calls and does nothing else. -/
theorem performs_eval (vs : Variables) : ∀ e : Expr, Performs bridge host vs (eval bridge host vs e) e.calls
  | .nil => performs_pure _
  | .bool b => performs_pure _
  | .number n => performs_pure _
  | .str s => performs_pure _
  | .var name span => performs_pure _
  | .table items => by
    have h := (performs_evalAll vs items).bind fun values => performs_pure (Value.table values)
    rw [eval, Expr.calls_table]
    rwa [List.append_nil] at h
  | .call callee args span => performs_call (performs_evalAll vs args)
  | .concat left right span => by
    have htext : ∀ value : Value, Performs bridge host vs (atSpan span (operandText value)) [] := fun value =>
      performs_ofExcept _
    have h := (performs_eval vs left).bind fun a => (performs_eval vs right).bind fun b =>
      (htext a).bind fun a => (htext b).bind fun b => performs_pure (Value.str (a ++ b))
    rw [eval, Expr.calls_concat]
    rwa [List.append_nil, List.append_nil, List.append_nil] at h

theorem performs_evalAll (vs : Variables) : ∀ es : List Expr,
    Performs bridge host vs (evalAll bridge host vs es) ((Expr.nodesAll es).filter Expr.isCall)
  | [] => performs_pure _
  | e :: es => by
    have h := (performs_eval vs e).bind fun v => (performs_evalAll vs es).bind fun rest => performs_pure (v :: rest)
    rw [evalAll, Expr.calls_nodesAll_cons]
    rwa [List.append_nil] at h

end

/-! ## Calls on the journal -/

/-- What holds of the steps of a bridge holds of printing. -/
theorem write_of_invariant {P : ∀ ε α : Type, Op σ ε α → Prop} (h : Op.Invariant host P) (span : Span) :
    ∀ pieces : List String, P Error Unit (write host span pieces)
  | [] => h.pure _
  | piece :: rest => by
    have hrest := write_of_invariant h span rest
    simp only [write]
    split
    · exact h.bind (h.mapError _ (h.onHost _)) fun _ => hrest
    · exact hrest

theorem silent_runBuiltin (span : Span) (values : List Value) (builtin : Builtin) :
    (runBuiltin bridge host span values builtin).Silent := by
  cases builtin with
  | print => exact (write_of_invariant (Action.overlooks_call?.unseen host) span _).bind fun _ => Op.unseen_pure _
  | entry e => exact bridge.silent_dispatch e values

/-- The one call that an invocation makes is its own. -/
theorem calls_invocation {builtin : Builtin} {callee : String} {args : List Expr} {span : Span} {values : List Value}
    {w w' : World σ} {r : Except Error (Option Value)}
    (h : invocation bridge host builtin callee args span values w = (r, w')) :
    w'.calls = w.calls ++ [.call callee args span] := by
  have hs : (runBuiltin bridge host span values builtin).Silent := silent_runBuiltin span values builtin
  have hw := hs { w with journal := w.journal.push (.invoked builtin callee args span) }
  have hr : runBuiltin bridge host span values builtin
      { w with journal := w.journal.push (.invoked builtin callee args span) } = (r, w') := h
  rw [hr] at hw
  exact hw.trans (World.seen_push_of_eq_some w _ _ rfl)

theorem Invokes.calls_eq {w w' : World σ} {cs : List Expr} {r : Except Error Unit}
    (h : Invokes bridge host vs w cs r w') : w'.calls = w.calls ++ cs := by
  induction h with
  | nil => exact (List.append_nil _).symm
  | append _ _ ih ih' => rw [ih', ih, List.append_assoc]
  | call _ _ _ hi ih => rw [calls_invocation hi, ih, List.append_assoc]

theorem Interrupted.calls_eq {w w' : World σ} {cs : List Expr} {e : Error}
    (h : Interrupted bridge host vs w cs e w') : ∃ done, done <+: cs ∧ w'.calls = w.calls ++ done := by
  obtain ⟨done, hd, hi | hi⟩ := h
  · exact ⟨done, hd, hi.calls_eq⟩
  · exact ⟨done, hd, hi.calls_eq⟩

/-! ## Statements -/

theorem performs_exec (vs : Variables) (s : Statement) : Performs bridge host vs (exec bridge host vs s) s.calls := by
  cases s with
  | assign name value span =>
    have hv : Performs bridge host vs (eval bridge host vs value) value.calls := performs_eval vs value
    have h := hv.bind fun v => performs_pure (vs.set name v)
    rwa [List.append_nil] at h
  | call callee args span =>
    have hv : Performs bridge host vs (eval bridge host vs (.call callee args span)) _ := performs_eval vs _
    have h := hv.bind fun _ => performs_pure vs
    rwa [List.append_nil] at h

/-- An assignment sets the variable it names to the value of its expression. -/
theorem exec_assign {vs vs' : Variables} {name : String} {value : Expr} {span : Span} {w w' : World σ}
    (h : exec bridge host vs (.assign name value span) w = (.ok vs', w')) :
    ∃ v, eval bridge host vs value w = (.ok v, w') ∧ vs' = vs.set name v := Op.bind_pure_eq_ok h

/-- A call changes no variable. -/
theorem exec_call {vs vs' : Variables} {callee : String} {args : List Expr} {span : Span} {w w' : World σ}
    (h : exec bridge host vs (.call callee args span) w = (.ok vs', w')) : vs' = vs := by
  obtain ⟨_, -, hvs⟩ := Op.bind_pure_eq_ok h
  exact hvs

theorem Executed.calls_eq {vs vs' : Variables} {w w' : World σ} {ss : List Statement}
    (h : Executed bridge host vs w ss vs' w') : w'.calls = w.calls ++ ss.flatMap Statement.calls := by
  induction h with
  | nil => exact (List.append_nil _).symm
  | cons _ hi _ ih => rw [ih, hi.calls_eq, List.append_assoc, List.flatMap_cons]

namespace Engine

theorem execAll_cons (engine : Engine σ) (s : Statement) (rest : List Statement) (w : World σ) :
    engine.execAll host (s :: rest) w = match exec engine.bridge host engine.bindings s w with
      | (.ok bindings, w') => { engine with bindings }.execAll host rest w'
      | (.error e, w') => ((.error e, engine), w') := by
  rw [execAll, Op.state_bind_run]
  rcases exec engine.bridge host engine.bindings s w with ⟨_ | _, _⟩ <;> rfl

/-- Some statements were executed, and then one that failed: the engine is as the statements before it left it. -/
structure StoppedIn (engine : Engine σ) (host : Host σ) (w : World σ) (before : List Statement) (s : Statement)
    (e : Error) (engine' : Engine σ) (w₁ w' : World σ) : Prop where
  executed : engine.execAll host before w = ((.ok (), engine'), w₁)
  performed : Executed engine.bridge host engine.bindings w before engine'.bindings w₁
  failed : exec engine.bridge host engine'.bindings s w₁ = (.error e, w')
  interrupted : Interrupted engine.bridge host engine'.bindings w₁ s.calls e w'

theorem execAll_ok : ∀ {ss : List Statement} {engine engine' : Engine σ} {w w' : World σ},
    engine.execAll host ss w = ((.ok (), engine'), w') →
    engine'.bridge = engine.bridge ∧ Executed engine.bridge host engine.bindings w ss engine'.bindings w'
  | [], engine, engine', w, w', h => by
    cases h
    exact ⟨rfl, .nil _ w⟩
  | s :: ss, engine, engine', w, w', h => by
    rw [execAll_cons] at h
    rcases hs : exec engine.bridge host engine.bindings s w with ⟨e | bindings, w₁⟩
    · rw [hs] at h
      cases h
    · rw [hs] at h
      obtain ⟨hb, hi⟩ := execAll_ok h
      have hfirst := (performs_exec engine.bindings s w).1 bindings w₁ hs
      exact ⟨hb, .cons hs hfirst hi⟩

theorem execAll_error : ∀ {ss : List Statement} {engine engine' : Engine σ} {w w' : World σ} {e : Error},
    engine.execAll host ss w = ((.error e, engine'), w') →
    engine'.bridge = engine.bridge ∧ ∃ before s after w₁, ss = before ++ s :: after ∧
      engine.StoppedIn host w before s e engine' w₁ w'
  | [], _, _, _, _, _, h => by cases h
  | s :: ss, engine, engine', w, w', e, h => by
    rw [execAll_cons] at h
    rcases hs : exec engine.bridge host engine.bindings s w with ⟨e' | bindings, w₁⟩
    · rw [hs] at h
      cases h
      exact ⟨rfl, [], s, ss, w, rfl, rfl, .nil _ w, hs, (performs_exec engine.bindings s w).2 e w' hs⟩
    · rw [hs] at h
      obtain ⟨hb, before, s', after, w₂, hss, hstop⟩ := execAll_error h
      have hfirst := (performs_exec engine.bindings s w).1 bindings w₁ hs
      refine ⟨hb, s :: before, s', after, w₂, by rw [hss]; rfl, ?_, .cons hs hfirst hstop.performed, hstop.failed,
        hstop.interrupted⟩
      rw [execAll_cons, hs]
      exact hstop.executed

/-- What is left to do after the statements: what was printed is passed on. -/
def passOn (host : Host σ) : Op σ Error Unit :=
  (Op.onHost host.flush).mapError fun reason => .runtime (.outputFailed reason) ⟨0, 0⟩

theorem run_of_parse_error {engine : Engine σ} {name src : String} {fault : SyntaxFault} (h : parse src = .error fault)
    (w : World σ) : engine.run host name src w = ((.error (.ofFault fault), engine), w) := by
  have hl : load src = .error (.ofFault fault) := by rw [load, h]; rfl
  rw [run, hl]
  rfl

theorem run_of_parse_ok {engine : Engine σ} {name src : String} {ss : List Statement} (h : parse src = .ok ss)
    (w : World σ) : engine.run host name src w =
      match engine.execAll host ss (w.logged [.runningScript name ss.length]) with
      | ((.error e, engine'), w₁) => ((.error e, engine'), w₁)
      | ((.ok (), engine'), w₁) => (((passOn host w₁).1, engine'), (passOn host w₁).2) := by
  have hl : load src = .ok ss := by rw [load, h]; rfl
  have hw : ((Op.log (.runningScript name ss.length) : Op σ Empty Unit) w).2 =
      w.logged [.runningScript name ss.length] := by
    rw [Op.log_run]
  simp only [run, hl, Op.state_bind_run, hw]
  rcases engine.execAll host ss (w.logged [.runningScript name ss.length]) with ⟨⟨_ | _, engine'⟩, w₁⟩
  · rfl
  · rfl

theorem StoppedIn.calls_eq {engine engine' : Engine σ} {w w₁ w' : World σ} {before : List Statement} {s : Statement}
    {e : Error} (h : engine.StoppedIn host w before s e engine' w₁ w') (after : List Statement) :
    ∃ done, done <+: (before ++ s :: after).flatMap Statement.calls ∧ w'.calls = w.calls ++ done := by
  obtain ⟨done, hd, hc⟩ := h.interrupted.calls_eq
  refine ⟨before.flatMap Statement.calls ++ done, ?_, ?_⟩
  · rw [List.flatMap_append, List.flatMap_cons]
    exact (List.prefix_append_right_inj _).2 (hd.trans (List.prefix_append _ _))
  · rw [hc, h.performed.calls_eq, List.append_assoc]

/-- **What running a script does.** A text that is no script does nothing at all. Otherwise the calls that are made are
the first calls of the script in order, and all of them if the run succeeds; each runs the builtin that its callee stands
for then, on the values of its arguments. Either all statements are executed, and what was printed is passed on at last;
or the run stops in a statement that fails, with the variables that the statements before it left and with nothing done
after it. Executing a statement sets at most the variable it assigns. -/
theorem run_performs (engine : Engine σ) (host : Host σ) (name src : String) (w : World σ) :
    (∀ fault, parse src = .error fault → engine.run host name src w = ((.error (.ofFault fault), engine), w)) ∧
    (∀ ss, parse src = .ok ss → ∃ r engine' w',
      engine.run host name src w = ((r, engine'), w') ∧ engine'.bridge = engine.bridge ∧
      (∃ done, done <+: ss.flatMap Statement.calls ∧ w'.calls = w.calls ++ done ∧
        (r = .ok () → done = ss.flatMap Statement.calls)) ∧
      ((∃ w₁, engine.execAll host ss (w.logged [.runningScript name ss.length]) = ((.ok (), engine'), w₁) ∧
          Executed engine.bridge host engine.bindings (w.logged [.runningScript name ss.length]) ss engine'.bindings w₁ ∧
          passOn host w₁ = (r, w')) ∨
        ∃ e before s after w₁, r = .error e ∧ ss = before ++ s :: after ∧
          engine.StoppedIn host (w.logged [.runningScript name ss.length]) before s e engine' w₁ w')) ∧
    (∀ vs vs' name value span (u u' : World σ),
      exec engine.bridge host vs (.assign name value span) u = (.ok vs', u') →
      ∃ v, eval engine.bridge host vs value u = (.ok v, u') ∧ vs' = vs.set name v) ∧
    ∀ vs vs' callee args span (u u' : World σ),
      exec engine.bridge host vs (.call callee args span) u = (.ok vs', u') → vs' = vs := by
  refine ⟨fun fault h => run_of_parse_error h w, fun ss h => ?_, fun _ _ _ _ _ _ _ => exec_assign,
    fun _ _ _ _ _ _ _ => exec_call⟩
  have hlogged : (w.logged [.runningScript name ss.length]).calls = w.calls :=
    Op.silent_logAll (ε := Error) [.runningScript name ss.length] w
  have hrun := @run_of_parse_ok σ host engine name src ss h w
  rcases he : engine.execAll host ss (w.logged [.runningScript name ss.length]) with ⟨⟨e | ⟨⟩, engine'⟩, w₁⟩
  · rw [he] at hrun
    obtain ⟨hb, before, s, after, w₀, hss, hstop⟩ := execAll_error he
    obtain ⟨done, hd, hc⟩ := hstop.calls_eq after
    rw [hlogged] at hc
    exact ⟨_, _, _, hrun, hb, ⟨done, hss ▸ hd, hc, fun hr => by cases hr⟩,
      .inr ⟨e, before, s, after, w₀, rfl, hss, hstop⟩⟩
  · rw [he] at hrun
    obtain ⟨hb, hi⟩ := execAll_ok he
    have hpass : (passOn host w₁).2.calls = w₁.calls := ((Op.silent_onHost host.flush).mapError _) w₁
    refine ⟨_, _, _, hrun, hb, ⟨_, List.prefix_rfl, ?_, fun _ => rfl⟩, .inl ⟨w₁, rfl, hi, rfl⟩⟩
    rw [hpass, hi.calls_eq, hlogged]

end Engine

end SymbolBridge.Script
