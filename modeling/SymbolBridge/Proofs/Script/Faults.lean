import SymbolBridge.Proofs.Script.Attempts
import SymbolBridge.Proofs.Script.Evaluation
import SymbolBridge.Workbench.Host

/-!
# Why a script fails

Where the sink of printed text takes everything, evaluating an expression fails exactly if it arrives at a node that is at
fault (`eval_eq_error_iff`): a call whose callee is a variable that holds no function, or stands for a name that no builtin
has, or a concatenation with an operand that is neither a string nor a number. `Arrives` follows the evaluation to a node
and the world it finds there; `AtFault` gives the faults. An entry point that fails is none of them: the call is nil, and
a warning says why (`eval_entry_call`). So a script without concatenations that calls nothing but builtins by their names
never fails.
-/

namespace SymbolBridge

variable {σ : Type}

/-- The sink of printed text takes everything. -/
structure Host.NeverRefuses (host : Host σ) : Prop where
  print : ∀ piece s, (host.print piece s).1 = .ok ()
  flush : ∀ s, (host.flush s).1 = .ok ()

namespace Script

/-! ## Faults -/

section

variable (b : Bridge σ) (host : Host σ) (vs : Variables)

/-- The evaluation of an expression in a world arrives at a node of it in another world. -/
inductive Arrives : Expr → World σ → Expr → World σ → Prop
  | here (e : Expr) (w : World σ) : Arrives e w e w
  | item {before after : List Expr} {e n : Expr} {values : List Value} {w w₁ u : World σ} :
      evalAll b host vs before w = (.ok values, w₁) → Arrives e w₁ n u →
      Arrives (.table (before ++ e :: after)) w n u
  | argument {callee : String} {span : Span} {before after : List Expr} {e n : Expr} {builtin : Builtin}
      {values : List Value} {w w₁ u : World σ} :
      vs.builtin callee = .ok builtin → evalAll b host vs before w = (.ok values, w₁) → Arrives e w₁ n u →
      Arrives (.call callee (before ++ e :: after) span) w n u
  | left {left right n : Expr} {span : Span} {w u : World σ} :
      Arrives left w n u → Arrives (.concat left right span) w n u
  | right {left right n : Expr} {span : Span} {v : Value} {w w₁ u : World σ} :
      eval b host vs left w = (.ok v, w₁) → Arrives right w₁ n u → Arrives (.concat left right span) w n u

/-- A node that is evaluated in a world is at fault, with an error at its span. A concatenation has evaluated both its
operands by then. -/
inductive AtFault : Expr → World σ → Error → World σ → Prop
  | notCallable {callee : String} {args : List Expr} {span : Span} {v : Value} {w : World σ} :
      vs.find? callee = some v → (∀ name, v ≠ .function name) →
      AtFault (.call callee args span) w (.runtime (.notCallable v.typeName callee) span) w
  | unknownFunction {callee name : String} {args : List Expr} {span : Span} {w : World σ} :
      vs.Denotes callee name → name ∉ Builtin.names →
      AtFault (.call callee args span) w (.runtime (.unknownFunction name) span) w
  | leftOperand {left right : Expr} {span : Span} {x y : Value} {w w₁ w₂ : World σ} :
      eval b host vs left w = (.ok x, w₁) → eval b host vs right w₁ = (.ok y, w₂) → ¬ x.HasText →
      AtFault (.concat left right span) w (.runtime (.notConcatenable x.typeName) span) w₂
  | rightOperand {left right : Expr} {span : Span} {x y : Value} {w w₁ w₂ : World σ} :
      eval b host vs left w = (.ok x, w₁) → eval b host vs right w₁ = (.ok y, w₂) → x.HasText → ¬ y.HasText →
      AtFault (.concat left right span) w (.runtime (.notConcatenable y.typeName) span) w₂

end

variable {b : Bridge σ} {host : Host σ} {vs : Variables} {w w' u : World σ} {e n : Expr} {err : Error}

/-! ### What fails is at fault -/

theorem write_ok (hsink : host.NeverRefuses) (span : Span) : ∀ (pieces : List String) (w : World σ),
    (write host span pieces w).1 = .ok ()
  | [], _ => rfl
  | piece :: rest, w => by
    rw [write_cons_run]
    split
    · exact write_ok hsink span rest w
    · have hp := hsink.print piece w.host
      rcases hr : host.print piece w.host with ⟨reason | ⟨⟩, s⟩
      · rw [hr] at hp
        cases hp
      · exact write_ok hsink span rest _

theorem invocation_ok (hsink : host.NeverRefuses) (builtin : Builtin) (callee : String) (args : List Expr)
    (span : Span) (values : List Value) (w : World σ) :
    ∃ value, (invocation b host builtin callee args span values w).1 = .ok value := by
  show ∃ value, (runBuiltin b host span values builtin (w.recorded (.invoked builtin callee args span))).1 = .ok value
  cases builtin with
  | print =>
    rw [runBuiltin, Op.bind_pure_run, write_ok hsink]
    exact ⟨none, rfl⟩
  | entry entry =>
    rw [runBuiltin, Bridge.dispatch_run]
    rcases b.tryDispatch host entry values (w.recorded (.invoked (.entry entry) callee args span)) with ⟨c | v, w'⟩
    · exact ⟨none, rfl⟩
    · exact ⟨v, rfl⟩

mutual

theorem atFault_of_eval_error (hsink : host.NeverRefuses) : ∀ (e : Expr) {w w' : World σ} {err : Error},
    eval b host vs e w = (.error err, w') → ∃ n u, Arrives b host vs e w n u ∧ AtFault b host vs n u err w'
  | .nil, _, _, _, h | .bool _, _, _, _, h | .number _, _, _, _, h | .str _, _, _, _, h | .var _ _, _, _, _, h => by
    rw [eval] at h
    cases h
  | .table items, w, w', err, h => by
    rw [eval_table_run] at h
    rcases hi : evalAll b host vs items w with ⟨e | values, w₁⟩
    · rw [hi] at h
      cases h
      obtain ⟨before, e, after, values, w₁, n, u, rfl, hbefore, ha, hf⟩ := atFault_of_evalAll_error hsink items hi
      exact ⟨n, u, .item hbefore ha, hf⟩
    · rw [hi] at h
      cases h
  | .call callee args span, w, w', err, h => by
    -- The callee is looked up first, so it is at fault even where an argument would be.
    rw [eval_call_run] at h
    cases hb : vs.builtin callee with
    | error cause =>
      rw [hb] at h
      cases h
      obtain ⟨v, hv, hno, rfl⟩ | ⟨name, hd, hn, rfl⟩ := Variables.builtin_eq_error hb
      · exact ⟨_, _, .here _ _, .notCallable hv hno⟩
      · exact ⟨_, _, .here _ _, .unknownFunction hd hn⟩
    | ok builtin =>
      rw [hb] at h
      rcases hi : evalAll b host vs args w with ⟨e | values, w₁⟩
      · rw [hi] at h
        cases h
        obtain ⟨before, e, after, values, w₁, n, u, rfl, hbefore, ha, hf⟩ := atFault_of_evalAll_error hsink args hi
        exact ⟨n, u, .argument hb hbefore ha, hf⟩
      · obtain ⟨value, hvalue⟩ := invocation_ok (b := b) hsink builtin callee args span values w₁
        rw [hi] at h
        simp only [hvalue] at h
        cases h
  | .concat left right span, w, w', err, h => by
    rw [eval_concat_run] at h
    rcases hl : eval b host vs left w with ⟨e | x, w₁⟩
    · rw [hl] at h
      cases h
      obtain ⟨n, u, ha, hf⟩ := atFault_of_eval_error hsink left hl
      exact ⟨n, u, .left ha, hf⟩
    · rcases hr : eval b host vs right w₁ with ⟨e | y, w₂⟩
      · rw [hl] at h
        simp only [hr] at h
        cases h
        obtain ⟨n, u, ha, hf⟩ := atFault_of_eval_error hsink right hr
        exact ⟨n, u, .right hl ha, hf⟩
      · rw [hl] at h
        simp only [hr] at h
        -- Both operands have values by now; the left one is judged before the right one.
        refine ⟨_, _, .here _ _, ?_⟩
        cases hx : operandText x with
        | error cause =>
          rw [hx] at h
          obtain ⟨hno, rfl⟩ := operandText_eq_error hx
          cases h
          exact .leftOperand hl hr hno
        | ok s =>
          cases hy : operandText y with
          | error cause =>
            rw [hx, hy] at h
            obtain ⟨hno, rfl⟩ := operandText_eq_error hy
            cases h
            exact .rightOperand hl hr (operandText_eq_ok hx) hno
          | ok t =>
            rw [hx, hy] at h
            cases h

theorem atFault_of_evalAll_error (hsink : host.NeverRefuses) : ∀ (es : List Expr) {w w' : World σ} {err : Error},
    evalAll b host vs es w = (.error err, w') → ∃ before e after values w₁ n u, es = before ++ e :: after ∧
      evalAll b host vs before w = (.ok values, w₁) ∧ Arrives b host vs e w₁ n u ∧ AtFault b host vs n u err w'
  | [], _, _, _, h => by
    rw [evalAll] at h
    cases h
  | e :: es, w, w', err, h => by
    rw [evalAll_cons_run] at h
    rcases he : eval b host vs e w with ⟨err' | v, w₁⟩
    · rw [he] at h
      cases h
      obtain ⟨n, u, ha, hf⟩ := atFault_of_eval_error hsink e he
      exact ⟨[], e, es, [], w, n, u, rfl, rfl, ha, hf⟩
    · rw [he] at h
      rcases hes : evalAll b host vs es w₁ with ⟨err' | values, w₂⟩
      · simp only [hes] at h
        cases h
        obtain ⟨before, e', after, values, w₂, n, u, rfl, hbefore, ha, hf⟩ := atFault_of_evalAll_error hsink es hes
        refine ⟨e :: before, e', after, v :: values, w₂, n, u, rfl, ?_, ha, hf⟩
        rw [evalAll_cons_run, he]
        simp only [hbefore]
        rfl
      · simp only [hes] at h
        cases h

end

/-! ### What is at fault fails -/

theorem AtFault.eval_error (h : AtFault b host vs n u err w') : eval b host vs n u = (.error err, w') := by
  cases h with
  | notCallable hv hno => rw [eval_call_run, Variables.builtin_of_notCallable hv hno]
  | unknownFunction hd hn => rw [eval_call_run, Variables.builtin_of_unknown hd hn]
  | leftOperand hl hr hx =>
    rw [eval_concat_run, hl]
    simp only [hr, operandText_of_not_hasText hx]
  | @rightOperand left right span x y u w₁ w₂ hl hr hx hy =>
    have htext : ∃ s, operandText x = .ok s := by
      obtain ⟨s, rfl⟩ | ⟨n, rfl⟩ := hx
      · exact ⟨s, rfl⟩
      · exact ⟨n.toText, rfl⟩
    obtain ⟨s, hs⟩ := htext
    rw [eval_concat_run, hl]
    simp only [hr, hs, operandText_of_not_hasText hy]

theorem evalAll_append_error (after : List Expr) : ∀ {before : List Expr} {values : List Value} {w w₁ : World σ},
    evalAll b host vs before w = (.ok values, w₁) → eval b host vs e w₁ = (.error err, w') →
    evalAll b host vs (before ++ e :: after) w = (.error err, w')
  | [], _, w, _, hbefore, he => by
    rw [evalAll] at hbefore
    cases hbefore
    rw [List.nil_append, evalAll_cons_run, he]
  | x :: xs, values, w, w₁, hbefore, he => by
    rw [evalAll_cons_run] at hbefore
    rw [List.cons_append, evalAll_cons_run]
    rcases hx : eval b host vs x w with ⟨err' | v, w₂⟩
    · rw [hx] at hbefore
      cases hbefore
    · rw [hx] at hbefore
      rcases hxs : evalAll b host vs xs w₂ with ⟨err' | rest, w₃⟩
      · simp only [hxs] at hbefore
        cases hbefore
      · simp only [hxs] at hbefore
        cases hbefore
        simp only [evalAll_append_error after hxs he]
        rfl

/-- An error in a node that the evaluation arrives at ends the evaluation. -/
theorem Arrives.eval_error (h : Arrives b host vs e w n u) (hn : eval b host vs n u = (.error err, w')) :
    eval b host vs e w = (.error err, w') := by
  induction h with
  | here => exact hn
  | item hbefore _ ih =>
    rw [eval_table_run, evalAll_append_error _ hbefore (ih hn)]
    rfl
  | argument hb hbefore _ ih => rw [eval_call_run, hb, evalAll_append_error _ hbefore (ih hn)]
  | left _ ih => rw [eval_concat_run, ih hn]
  | right hl _ ih =>
    rw [eval_concat_run, hl]
    simp only [ih hn]

/-- An evaluation fails exactly if it arrives at a node that is at fault, and with the error of this node. -/
theorem eval_eq_error_iff (hsink : host.NeverRefuses) : eval b host vs e w = (.error err, w') ↔
    ∃ n u, Arrives b host vs e w n u ∧ AtFault b host vs n u err w' :=
  ⟨atFault_of_eval_error hsink e, fun ⟨_, _, ha, hf⟩ => ha.eval_error hf.eval_error⟩

theorem Arrives.mem_nodes (h : Arrives b host vs e w n u) : n ∈ e.nodes := by
  have hitem : ∀ {before after : List Expr} {e n : Expr}, n ∈ e.nodes → n ∈ Expr.nodesAll (before ++ e :: after) :=
    fun h => Expr.mem_nodesAll.2 ⟨_, List.mem_append_right _ List.mem_cons_self, h⟩
  induction h with
  | here e => exact e.self_mem_nodes
  | item _ _ ih => exact List.mem_append_left _ (hitem ih)
  | argument _ _ _ ih => exact List.mem_append_left _ (hitem ih)
  | left _ ih => exact List.mem_append_left _ (List.mem_append_left _ ih)
  | right _ _ ih => exact List.mem_append_left _ (List.mem_append_right _ ih)

/-! ## Entry points -/

/-- A call of an entry point has a value whatever comes of it: nil if it fails, and then it logs one warning. -/
theorem eval_entry_call {a : Attempt} {u v : World σ} (hb : vs.builtin a.callee = .ok (.entry a.entry))
    (hargs : evalAll b host vs a.operands u = (.ok a.args, v))
    (h : b.tryDispatch host a.entry a.args (v.recorded a.action) = (a.outcome, w)) :
    eval b host vs a.call u = (.ok (a.value?.getD .nil), a.settled w) ∧
      (a.settled w).warnings = v.warnings ++ a.warning?.toList := by
  have hrun : invocation b host (.entry a.entry) a.callee a.operands a.span a.args v = (.ok a.value?, a.settled w) :=
    dispatch_attempt a h
  have hw : w.warnings = v.warnings := (seen_recorded_tryDispatch Action.overlooks_warning? h).trans
    (v.seen_push a.action _ _ rfl)
  refine ⟨?_, by rw [a.warnings_settled, hw]⟩
  rw [Attempt.call, eval_call_run, hb, hargs]
  simp only [hrun]
  rfl

/-! ## Runs -/

theorem exec_eq_error {s : Statement} (h : exec b host vs s w = (.error err, w')) :
    eval b host vs s.expr w = (.error err, w') := by
  cases s with
  | assign name value span => exact Op.bind_pure_eq_error h
  | call callee args span => exact Op.bind_pure_eq_error h

namespace Engine

/-- What ends a run of a script: a node at fault, in a statement that was reached with the variables of those before
it. -/
theorem atFault_of_run_error (hsink : host.NeverRefuses) {engine engine' : Engine σ} {name src : String}
    {ss : List Statement} (hp : parse src = .ok ss) (h : engine.run host name src w = ((.error err, engine'), w')) :
    ∃ before s after w₁ n u, ss = before ++ s :: after ∧
      engine.execAll host before (w.logged [.runningScript name ss.length]) = ((.ok (), engine'), w₁) ∧
      Arrives engine.bridge host engine'.bindings s.expr w₁ n u ∧
      AtFault engine.bridge host engine'.bindings n u err w' := by
  rw [run_of_parse_ok hp] at h
  rcases he : engine.execAll host ss (w.logged [.runningScript name ss.length]) with ⟨⟨e | ⟨⟩, engine₁⟩, w₁⟩
  · rw [he] at h
    cases h
    obtain ⟨-, before, s, after, w₁, hss, hstop⟩ := execAll_error he
    obtain ⟨n, u, ha, hf⟩ := atFault_of_eval_error hsink s.expr (exec_eq_error hstop.failed)
    exact ⟨before, s, after, w₁, n, u, hss, hstop.executed, ha, hf⟩
  · have hpass : (passOn host w₁).1 = .ok () := by
      have hflush := hsink.flush w₁.host
      rw [passOn, Op.mapError, Op.onHost]
      rcases hr : host.flush w₁.host with ⟨reason | ⟨⟩, s⟩
      · rw [hr] at hflush
        cases hflush
      · rfl
    rw [he] at h
    simp only [hpass] at h
    cases h

/-- A script without concatenations whose callees are builtins by their own names does not fail. -/
theorem run_ok_of_builtins (hsink : host.NeverRefuses) (engine : Engine σ) (name : String) {src : String}
    {ss : List Statement} (w : World σ) (hp : parse src = .ok ss)
    (hconcat : ∀ left right span, .concat left right span ∉ ss.flatMap Statement.nodes)
    (hcalls : ∀ callee args span, .call callee args span ∈ ss.flatMap Statement.nodes →
      callee ∈ Builtin.names ∧ callee ∉ ss.filterMap Statement.assigned? ∧ engine.bindings.find? callee = none) :
    (engine.run host name src w).1.1 = .ok () := by
  rcases hr : engine.run host name src w with ⟨⟨err | ⟨⟩, engine'⟩, w'⟩
  · obtain ⟨before, s, after, w₁, n, u, rfl, hbefore, ha, hf⟩ := atFault_of_run_error hsink hp hr
    have hn : n ∈ (before ++ s :: after).flatMap Statement.nodes :=
      List.mem_flatMap.2 ⟨s, List.mem_append_right _ List.mem_cons_self, s.nodes_expr ▸ ha.mem_nodes⟩
    have hunbound : ∀ callee args span, n = .call callee args span → engine'.bindings.find? callee = none := by
      rintro callee args span rfl
      obtain ⟨-, hassigned, hnone⟩ := hcalls callee args span hn
      rw [List.filterMap_append] at hassigned
      rw [execAll_find? hbefore fun h => hassigned (List.mem_append_left _ h), hnone]
    cases hf with
    | notCallable hv =>
      rw [hunbound _ _ _ rfl] at hv
      cases hv
    | unknownFunction hd hno =>
      cases hd with
      | itself => exact absurd (hcalls _ _ _ hn).1 hno
      | through hv =>
        rw [hunbound _ _ _ rfl] at hv
        cases hv
    | leftOperand => exact absurd hn (hconcat _ _ _)
    | rightOperand => exact absurd hn (hconcat _ _ _)
  · rfl

/-- **Only a script itself makes its run fail.** Where the sink takes everything, a run fails only because the text is no
script, or because it arrives at a node at fault. Each call of an entry point has a value: if the entry point fails, the
value is nil and one warning gives the reason and the entry point, otherwise there is no warning. What a run asks of the
bridge are the attempts of its calls in order, and the warnings it logs are those about the attempts that failed. A script
without concatenations whose callees are builtins by their own names never fails. -/
theorem run_fails_by_script_alone (engine : Engine σ) (host : Host σ) (hsink : host.NeverRefuses) (name src : String)
    (w : World σ) :
    (∀ err engine' w', engine.run host name src w = ((.error err, engine'), w') →
      (∃ fault, parse src = .error fault ∧ err = .ofFault fault) ∨
      ∃ before s after w₁ n u, parse src = .ok (before ++ s :: after) ∧
        engine.execAll host before (w.logged [.runningScript name (before ++ s :: after).length]) =
          ((.ok (), engine'), w₁) ∧
        Arrives engine.bridge host engine'.bindings s.expr w₁ n u ∧
        AtFault engine.bridge host engine'.bindings n u err w') ∧
    (∀ vs callee operands span entry args (u v : World σ), vs.builtin callee = .ok (.entry entry) →
      evalAll engine.bridge host vs operands u = (.ok args, v) →
      (∀ value v', engine.bridge.tryDispatch host entry args
          (v.recorded (.invoked (.entry entry) callee operands span)) = (.ok value, v') →
        eval engine.bridge host vs (.call callee operands span) u = (.ok (value.getD .nil), v') ∧
          v'.warnings = v.warnings) ∧
      ∀ cause v', engine.bridge.tryDispatch host entry args
          (v.recorded (.invoked (.entry entry) callee operands span)) = (.error cause, v') →
        ∃ w' warning, eval engine.bridge host vs (.call callee operands span) u = (.ok .nil, w') ∧
          w'.warnings = v.warnings ++ [warning] ∧ warning.message = "Error: " ++ cause.message ∧
          warning.fields = [⟨"entry", entry.name, true⟩]) ∧
    (∃ as, Attempted engine.bridge host w as (engine.run host name src w).2 ∧
      (engine.run host name src w).2.entryCalls = w.entryCalls ++ as.map Attempt.call ∧
      (engine.run host name src w).2.warnings = w.warnings ++ as.filterMap Attempt.warning?) ∧
    ∀ ss, parse src = .ok ss → (∀ left right span, .concat left right span ∉ ss.flatMap Statement.nodes) →
      (∀ callee args span, .call callee args span ∈ ss.flatMap Statement.nodes →
        callee ∈ Builtin.names ∧ callee ∉ ss.filterMap Statement.assigned? ∧ engine.bindings.find? callee = none) →
      (engine.run host name src w).1.1 = .ok () := by
  refine ⟨fun err engine' w' h => ?_, fun vs callee operands span entry args u v hb hargs => ⟨?_, ?_⟩, ?_,
    fun ss hp => run_ok_of_builtins hsink engine name w hp⟩
  · cases hp : parse src with
    | error fault =>
      rw [run_of_parse_error hp] at h
      cases h
      exact .inl ⟨fault, rfl, rfl⟩
    | ok ss =>
      obtain ⟨before, s, after, w₁, n, u, rfl, hrest⟩ := atFault_of_run_error hsink hp h
      exact .inr ⟨before, s, after, w₁, n, u, rfl, hrest⟩
  · intro value v' h
    obtain ⟨heval, hw⟩ := eval_entry_call (a := ⟨entry, callee, operands, span, args, .ok value⟩) hb hargs h
    exact ⟨heval, hw.trans (List.append_nil _)⟩
  · intro cause v' h
    obtain ⟨heval, hw⟩ := eval_entry_call (a := ⟨entry, callee, operands, span, args, .error cause⟩) hb hargs h
    exact ⟨_, _, heval, hw, rfl, rfl⟩
  · obtain ⟨-, as, has⟩ := engine.attempted_run host name src w
    exact ⟨as, has, has.entryCalls_eq, has.warnings_eq⟩

/-- A call that lacks even the name of a function does not end its script. -/
theorem run_ok_of_nameless_call :
    (Workbench.host {}).NeverRefuses ∧
      parse "print(call())" = .ok [.call "print" [.call "call" [] ⟨6, 12⟩] ⟨0, 13⟩] ∧
      (run (Workbench.host {}) { bridge := { symbols := fun _ => .chain [] } } "script" "print(call())"
        { memory := {}, host := {} }).1.1 = .ok () := by
  have hsink : (Workbench.host {}).NeverRefuses := ⟨fun _ _ => rfl, fun _ => rfl⟩
  refine ⟨hsink, rfl, (run_fails_by_script_alone { bridge := { symbols := fun _ => .chain [] } } (Workbench.host {}) hsink
    "script" "print(call())" { memory := {}, host := {} }).2.2.2
    [.call "print" [.call "call" [] ⟨6, 12⟩] ⟨0, 13⟩] rfl ?_ ?_⟩
  · simp [Statement.nodes, Expr.nodes, Expr.nodesAll]
  · intro callee args span h
    have hcallee : callee = "call" ∨ callee = "print" := by
      simp only [List.flatMap_cons, List.flatMap_nil, Statement.nodes, Expr.nodes, Expr.nodesAll, List.nil_append,
        List.append_nil, List.cons_append, List.mem_cons, Expr.call.injEq, List.not_mem_nil, or_false] at h
      exact h.imp And.left And.left
    refine ⟨?_, by simp [Statement.assigned?], rfl⟩
    rcases hcallee with rfl | rfl
    · decide
    · decide

end Engine

end Script

end SymbolBridge
