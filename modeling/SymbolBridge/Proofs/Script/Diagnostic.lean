import SymbolBridge.Proofs.Script.Faults
import SymbolBridge.Proofs.Script.Forward
import SymbolBridge.Proofs.Script.Position
import SymbolBridge.Proofs.Script.Spans

/-!
# What is shown of an error

A run fails with an error that points into its source. A fault of the text points at the character where the parser gave
up, or at the end (`marks_charSpan`); an error of the evaluation points at a call or a concatenation
(`failure_of_eval_error`), which was read between two cursors; and if only passing on the output fails, the error
points at the start. So the span never has to be cut to be shown, and it has a line and a column
(`Span.Marks.exists_shown`, `run_error_shown`).
-/

namespace SymbolBridge.Script

open Text (byteLength utf8ByteSize_eq_byteLength)

variable {σ : Type}

/-! ## Spans between characters -/

/-- The text of a span in a source, with the texts before and after it. -/
structure Span.Marks (s : Span) (src : String) (before text after : List Char) : Prop where
  source : src.toList = before ++ text ++ after
  start : s.start = byteLength before
  stop : s.stop = byteLength (before ++ text)

section

variable {src : String} {c d : Cursor} {s : Span} {before text after : List Char}

theorem Span.Marks.stop_le (h : s.Marks src before text after) : s.stop ≤ src.utf8ByteSize := by
  rw [h.stop, utf8ByteSize_eq_byteLength, h.source, Text.byteLength_append (before ++ text) after]
  exact Nat.le_add_right _ _

theorem Span.Marks.start_le_stop (h : s.Marks src before text after) : s.start ≤ s.stop := by
  rw [h.start, h.stop, Text.byteLength_append]
  exact Nat.le_add_right _ _

theorem marks_spanTo {l : List Char} (hc : (Cursor.ofSource src).Reaches c) (h : c.Spells l d) :
    ∃ before, (c.spanTo d).Marks src before l d.rest := by
  obtain ⟨before, hb⟩ := hc
  have hoffset : c.offset = byteLength before := hb.offset.trans (Nat.zero_add _)
  refine ⟨before, ?_, hoffset, ?_⟩
  · rw [List.append_assoc, ← h.rest]
    exact hb.rest
  · show d.offset = _
    rw [h.offset, hoffset, Text.byteLength_append]

/-- A cursor marks one character, or the end of the source. -/
theorem marks_charSpan (hc : (Cursor.ofSource src).Reaches c) :
    ∃ before text after, c.charSpan.Marks src before text after ∧ (text.length = 1 ∨ text = [] ∧ after = []) := by
  have hs : c.Spells (c.rest.take 1) (c.advance (c.rest.take 1)) := Cursor.spells_advance (List.take_prefix 1 _)
  obtain ⟨before, hm⟩ := marks_spanTo hc hs
  refine ⟨before, _, _, hm, ?_⟩
  cases hr : c.rest with
  | nil => exact .inr ⟨rfl, by rw [Cursor.rest_advance, hr]; rfl⟩
  | cons x cs => exact .inl rfl

/-- A report is shown in a source without a cut: its span lies in the source, between characters, the label covers the
span, and the headline says at which line and column the span starts. -/
structure Report.Shown (r : Report) (src : String) (before text after : List Char) (shown : Diagnostic) : Prop where
  diagnostic : r.diagnostic? src = some shown
  marks : r.span.Marks src before text after
  ordered : r.span.start ≤ r.span.stop
  inside : r.span.stop ≤ src.utf8ByteSize
  offset : shown.offset = r.span.start
  length : shown.length = r.span.stop - r.span.start
  position : Position.at? src r.span.start = some (.after before)
  headline : shown.headline = r.phase.name ++ " at " ++ (Position.after before).toText

/-- A span between characters is enough for a report to be shown. -/
theorem Span.Marks.exists_shown {r : Report} (h : r.span.Marks src before text after) :
    ∃ shown, r.Shown src before text after shown := by
  have hstart : min r.span.start src.utf8ByteSize = r.span.start :=
    Nat.min_eq_left (Nat.le_trans h.start_le_stop h.stop_le)
  have hlength : min r.span.length (src.utf8ByteSize - r.span.start) = r.span.stop - r.span.start :=
    Nat.min_eq_left (Nat.sub_le_sub_right h.stop_le _)
  have hp : Position.at? src r.span.start = some (.after before) := by
    rw [h.start]
    exact Position.at?_byteLength (h.source.trans (List.append_assoc _ _ _))
  have hd : r.diagnostic? src = some {
      headline := r.phase.name ++ " at " ++ (Position.after before).toText
      help := r.help?
      label := r.message
      offset := r.span.start
      length := r.span.stop - r.span.start } := by
    simp only [Report.diagnostic?, hstart, hlength, hp, Option.map_some]
  exact ⟨_, hd, h, h.start_le_stop, h.stop_le, rfl, rfl, hp, rfl⟩

end

/-! ## Where the evaluation points -/

/-- An error at a call or a concatenation among some nodes. -/
inductive PointsInto (xs : List Expr) : Error → Prop
  | call {callee : String} {args : List Expr} {span : Span} (cause : RuntimeError) :
      .call callee args span ∈ xs → PointsInto xs (.runtime cause span)
  | concat {left right : Expr} {span : Span} (cause : RuntimeError) :
      .concat left right span ∈ xs → PointsInto xs (.runtime cause span)

/-- What can go wrong at some nodes: a callee stands for no builtin, the sink refuses what a call prints, or an operand of
a concatenation has no text. -/
inductive Failure (vs : Variables) (xs : List Expr) : Error → Prop
  | callee {callee : String} {args : List Expr} {span : Span} {cause : RuntimeError} :
      .call callee args span ∈ xs → vs.builtin callee = .error cause → Failure vs xs (.runtime cause span)
  | output {callee : String} {args : List Expr} {span : Span} (reason : String) :
      .call callee args span ∈ xs → Failure vs xs (.runtime (.outputFailed reason) span)
  | operand {left right : Expr} {span : Span} (typeName : String) :
      .concat left right span ∈ xs → Failure vs xs (.runtime (.notConcatenable typeName) span)

theorem Failure.mono {vs : Variables} {xs ys : List Expr} {err : Error} (h : Failure vs xs err) (hsub : xs ⊆ ys) :
    Failure vs ys err := by
  cases h with
  | callee hx hb => exact .callee (hsub hx) hb
  | output reason hx => exact .output reason (hsub hx)
  | operand typeName hx => exact .operand typeName (hsub hx)

theorem Failure.pointsInto {vs : Variables} {xs : List Expr} {err : Error} (h : Failure vs xs err) :
    PointsInto xs err := by
  cases h with
  | callee hx _ => exact .call _ hx
  | output reason hx => exact .call _ hx
  | operand typeName hx => exact .concat _ hx

section

variable {b : Bridge σ} {host : Host σ} {vs : Variables}

theorem outputFailed_of_write_error {span : Span} : ∀ {pieces : List String} {w w' : World σ} {err : Error},
    write host span pieces w = (.error err, w') → ∃ reason, err = .runtime (.outputFailed reason) span
  | [], _, _, _, h => by cases h
  | piece :: rest, w, w', err, h => by
    rw [write_cons_run] at h
    split at h
    · exact outputFailed_of_write_error h
    · rcases hp : host.print piece w.host with ⟨reason | ⟨⟩, s⟩
      · rw [hp] at h
        cases h
        exact ⟨_, rfl⟩
      · rw [hp] at h
        exact outputFailed_of_write_error h

/-- Of the builtins only `print` can fail, when its text is refused. -/
theorem outputFailed_of_runBuiltin_error {builtin : Builtin} {span : Span} {values : List Value} {w w' : World σ}
    {err : Error} (h : runBuiltin b host span values builtin w = (.error err, w')) :
    ∃ reason, err = .runtime (.outputFailed reason) span := by
  cases builtin with
  | print => exact outputFailed_of_write_error (Op.bind_pure_eq_error h)
  | entry e =>
    rw [runBuiltin, Bridge.dispatch_run] at h
    split at h
    · cases h
    · cases h

mutual

/-- An expression that fails does so at a call or a concatenation in it. -/
theorem failure_of_eval_error : ∀ (e : Expr) {w w' : World σ} {err : Error},
    eval b host vs e w = (.error err, w') → Failure vs e.nodes err
  | .nil, _, _, _, h | .bool _, _, _, _, h | .number _, _, _, _, h | .str _, _, _, _, h | .var _ _, _, _, _, h => by
    rw [eval] at h
    cases h
  | .table items, w, w', err, h => by
    rw [eval] at h
    exact (failure_of_evalAll_error items (Op.bind_pure_eq_error h)).mono (List.subset_append_left _ _)
  | .call callee args span, w, w', err, h => by
    have hself : .call callee args span ∈ (Expr.call callee args span).nodes := Expr.self_mem_nodes _
    rw [eval] at h
    obtain hcallee | ⟨builtin, w₁, -, h⟩ := Op.bind_eq_error h
    · obtain ⟨cause, hb, rfl⟩ := atSpan_eq_error hcallee
      exact .callee hself hb
    obtain hargs | ⟨values, w₂, -, h⟩ := Op.bind_eq_error h
    · exact (failure_of_evalAll_error args hargs).mono (List.subset_append_left _ _)
    obtain hrecord | ⟨_, w₃, -, h⟩ := Op.bind_eq_error h
    · cases hrecord
    obtain ⟨reason, rfl⟩ := outputFailed_of_runBuiltin_error (Op.bind_pure_eq_error h)
    exact .output reason hself
  | .concat left right span, w, w', err, h => by
    have hself : .concat left right span ∈ (Expr.concat left right span).nodes := Expr.self_mem_nodes _
    have hoperand : ∀ {x : Value} {u u' : World σ}, atSpan span (operandText x) u = (.error err, u') →
        Failure vs (Expr.concat left right span).nodes err := by
      intro x u u' hx
      obtain ⟨cause, htext, rfl⟩ := atSpan_eq_error hx
      obtain ⟨-, rfl⟩ := operandText_eq_error htext
      exact .operand _ hself
    rw [eval] at h
    obtain hl | ⟨x, w₁, -, h⟩ := Op.bind_eq_error h
    · refine (failure_of_eval_error left hl).mono fun y hy => ?_
      exact List.mem_append_left _ (List.mem_append_left _ hy)
    obtain hr | ⟨y, w₂, -, h⟩ := Op.bind_eq_error h
    · refine (failure_of_eval_error right hr).mono fun y hy => ?_
      exact List.mem_append_left _ (List.mem_append_right _ hy)
    obtain hx | ⟨s, w₃, -, h⟩ := Op.bind_eq_error h
    · exact hoperand hx
    exact hoperand (Op.bind_pure_eq_error h)

theorem failure_of_evalAll_error : ∀ (es : List Expr) {w w' : World σ} {err : Error},
    evalAll b host vs es w = (.error err, w') → Failure vs (Expr.nodesAll es) err
  | [], _, _, _, h => by
    rw [evalAll] at h
    cases h
  | e :: es, w, w', err, h => by
    rw [evalAll] at h
    obtain he | ⟨v, w₁, -, h⟩ := Op.bind_eq_error h
    · exact (failure_of_eval_error e he).mono (List.subset_append_left _ _)
    · exact (failure_of_evalAll_error es (Op.bind_pure_eq_error h)).mono (List.subset_append_right _ _)

end

end

/-! ## Runs -/

/-- A node with a span was read between two cursors of its source. -/
theorem ReadsAll.exists_marks {src : String} {ss : List Statement} {x : Expr} {span : Span}
    (h : ReadsAll ss (Cursor.ofSource src)) (hx : x ∈ ss.flatMap Statement.nodes) (hspan : x.span? = some span) :
    ∃ before text after, span.Marks src before text after := by
  obtain ⟨s, hs, hx⟩ := List.mem_flatMap.1 hx
  obtain ⟨k, d, hk, hread⟩ := h.exists_reads s hs
  obtain ⟨m, q, hm, rfl, l, hl⟩ : ∃ m q, k.Reaches m ∧ span = m.spanTo q ∧ m.Reaches q := by
    have hlocated := hread.located x hx
    cases x with
    | var name _ =>
      cases hspan
      obtain ⟨m, q, hm, -, rfl, hl⟩ := hlocated
      exact ⟨m, q, hm, rfl, hl.reaches⟩
    | call callee args _ =>
      cases hspan
      obtain ⟨m, q, hm, -, rfl, hc⟩ := hlocated
      exact ⟨m, q, hm, rfl, hc.reaches⟩
    | concat left right _ =>
      cases hspan
      obtain ⟨m, q, hm, -, rfl, hc⟩ := hlocated
      exact ⟨m, q, hm, rfl, hc⟩
    | _ => cases hspan
  obtain ⟨before, hmarks⟩ := marks_spanTo (hk.trans hm) hl
  exact ⟨before, l, q.rest, hmarks⟩

namespace Engine

variable {host : Host σ} {engine engine' : Engine σ} {name src : String} {w w' : World σ} {err : Error}

/-- What fails in a run of a script: an expression of it, with the variables that are left, or passing on the output at
the end. -/
theorem failure_of_run_error {ss : List Statement} (hp : parse src = .ok ss)
    (h : engine.run host name src w = ((.error err, engine'), w')) :
    Failure engine'.bindings (ss.flatMap Statement.nodes) err ∨ ∃ w₁ reason,
      engine.execAll host ss (w.logged [.runningScript name ss.length]) = ((.ok (), engine'), w₁) ∧
      (host.flush w₁.host).1 = .error reason ∧ err = .runtime (.outputFailed reason) ⟨0, 0⟩ := by
  rw [run_of_parse_ok hp] at h
  rcases he : engine.execAll host ss (w.logged [.runningScript name ss.length]) with ⟨⟨e | ⟨⟩, engine₁⟩, w₁⟩
  · rw [he] at h
    cases h
    obtain ⟨-, before, s, after, w₁, rfl, hstop⟩ := execAll_error he
    refine .inl ((failure_of_eval_error s.expr (exec_eq_error hstop.failed)).mono fun x hx => ?_)
    rw [s.nodes_expr] at hx
    exact List.mem_flatMap.2 ⟨s, List.mem_append_right _ List.mem_cons_self, hx⟩
  · rw [he] at h
    have hpass : (passOn host w₁).1 = .error err := congrArg (fun r => r.1.1) h
    have hengine : engine₁ = engine' := congrArg (fun r => r.1.2) h
    rw [passOn, Op.mapError, Op.onHost] at hpass
    rcases hflush : host.flush w₁.host with ⟨reason | ⟨⟩, s⟩
    · rw [hflush] at hpass
      cases hpass
      exact .inr ⟨w₁, reason, by rw [hengine], by rw [hflush], rfl⟩
    · rw [hflush] at hpass
      cases hpass

/-- **An error of a run is shown where it is.** The span of the error lies in the source, between characters, and the
report shows it uncut, under the line and the column at which it starts. A fault of the text is at one character, or at
the end of the source; an error of the evaluation is at a call or a concatenation of the script, or, if only passing on
the output failed, at the start. -/
theorem run_error_shown (h : engine.run host name src w = ((.error err, engine'), w')) :
    ∃ report before text after shown, err.report? = some report ∧ report.Shown src before text after shown ∧
      ((∃ cause, err = .parse cause report.span ∧ (text.length = 1 ∨ text = [] ∧ after = [])) ∨
        ∃ cause ss, err = .runtime cause report.span ∧ parse src = .ok ss ∧
          ((∃ callee args, .call callee args report.span ∈ ss.flatMap Statement.nodes) ∨
            (∃ left right, .concat left right report.span ∈ ss.flatMap Statement.nodes) ∨
            ∃ w₁ reason, engine.execAll host ss (w.logged [.runningScript name ss.length]) = ((.ok (), engine'), w₁) ∧
              (host.flush w₁.host).1 = .error reason ∧ cause = .outputFailed reason ∧ report.span = ⟨0, 0⟩)) := by
  cases hp : parse src with
  | error fault =>
    rw [run_of_parse_error hp] at h
    cases h
    obtain ⟨before, text, after, hm, htext⟩ := marks_charSpan (reaches_of_parse_error hp)
    obtain ⟨shown, hs⟩ : ∃ shown, Report.Shown ⟨.parse, fault.cause.message, fault.place.charSpan⟩ src before text after
      shown := hm.exists_shown
    exact ⟨_, before, text, after, shown, rfl, hs, .inl ⟨fault.cause, rfl, htext⟩⟩
  | ok ss =>
    have hread := parse_eq_ok_iff.1 hp
    -- what is shown of an error of the evaluation, given the texts around its span
    have shown_of_marks : ∀ {cause : RuntimeError} {span : Span} {before text after : List Char},
        span.Marks src before text after →
        ∃ shown, Report.Shown ⟨.runtime, cause.message, span⟩ src before text after shown := fun hm => hm.exists_shown
    obtain hfailure | ⟨w₁, reason, he, hflush, rfl⟩ := failure_of_run_error hp h
    · cases hfailure.pointsInto with
      | call cause hx =>
        obtain ⟨before, text, after, hm⟩ := hread.exists_marks hx rfl
        obtain ⟨shown, hs⟩ := shown_of_marks hm
        exact ⟨_, before, text, after, shown, rfl, hs, .inr ⟨cause, ss, rfl, rfl, .inl ⟨_, _, hx⟩⟩⟩
      | concat cause hx =>
        obtain ⟨before, text, after, hm⟩ := hread.exists_marks hx rfl
        obtain ⟨shown, hs⟩ := shown_of_marks hm
        exact ⟨_, before, text, after, shown, rfl, hs, .inr ⟨cause, ss, rfl, rfl, .inr (.inl ⟨_, _, hx⟩)⟩⟩
    · obtain ⟨shown, hs⟩ := shown_of_marks (⟨rfl, rfl, rfl⟩ : Span.Marks ⟨0, 0⟩ src [] [] src.toList)
      exact ⟨_, [], [], src.toList, shown, rfl, hs,
        .inr ⟨_, ss, rfl, rfl, .inr (.inr ⟨w₁, reason, he, hflush, rfl, rfl⟩)⟩⟩

/-- A bracket that is missing after a character of two bytes. -/
theorem shown_missing_bracket :
    run (Workbench.host {}) { bridge := { symbols := fun _ => .chain [] } } "script" "f('é' 1)" { memory := {}, host := {} } =
        ((.error (.parse (.expected ')') ⟨7, 8⟩), { bridge := { symbols := fun _ => .chain [] } }),
          { memory := {}, host := {} }) ∧
      ∃ before text after shown,
        Report.Shown ⟨.parse, "expected ')'", ⟨7, 8⟩⟩ "f('é' 1)" before text after shown := by
  have htext : "f('é' 1)".toList = ['f', '(', '\'', 'é', '\'', ' ', '1', ')'] := by simp
  have hp : parse "f('é' 1)" = .error ⟨.expected ')', ⟨['1', ')'], 7⟩⟩ := by
    rw [parse, Cursor.ofSource, htext]
    rfl
  have hrun := @run_of_parse_error Workbench.State (Workbench.host {}) { bridge := { symbols := fun _ => .chain [] } } "script"
    _ _ hp { memory := {}, host := {} }
  obtain ⟨report, before, text, after, shown, hr, hs, -⟩ := run_error_shown hrun
  cases hr
  exact ⟨hrun, before, text, after, shown, hs⟩

end Engine

end SymbolBridge.Script
