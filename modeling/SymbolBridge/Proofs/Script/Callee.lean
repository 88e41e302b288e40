import SymbolBridge.Proofs.Script.Alike
import SymbolBridge.Proofs.Script.Bindings

/-!
# What a run reports of a callee

Over the variables that scripts leave, a callee that stands for no builtin is a name without a variable, or a variable
with a boolean, a number, a string or a table (`Variables.Sound.builtin_error`), and this is all that an error can report
of it (`Engine.explained_of_run_error`): no other message begins like the report of a call
(`exists_notCallable_of_reportsCallOf`). A variable that has been set to nil is as if it had never been assigned.
-/

namespace SymbolBridge.Script

variable {σ : Type}

/-! ## Messages about calls -/

/-- A text begins like the message for a call of a value of some type. -/
def ReportsCallOf (typeName text : String) : Prop :=
  ("attempt to call a " ++ typeName ++ " value").toList <+: text.toList

theorem ReportsCallOf.getElem? {typeName text : String} (h : ReportsCallOf typeName text) {i : Nat} {c : Char}
    (hc : "attempt to call a ".toList[i]? = some c) : text.toList[i]? = some c := by
  unfold ReportsCallOf at h
  rw [String.toList_append, String.toList_append, List.append_assoc] at h
  obtain ⟨rest, hrest⟩ := (List.prefix_append _ _).trans h
  rw [← hrest, List.getElem?_append_left (List.getElem?_eq_some_iff.1 hc).1]
  exact hc

/-- Two words before a blank, of which one text begins with the other, are the same. -/
theorem eq_of_leading_words : ∀ {s t xs ys : List Char}, ' ' ∉ s → ' ' ∉ t → s ++ ' ' :: xs <+: t ++ ' ' :: ys → s = t
  | [], [], _, _, _, _, _ => rfl
  | [], c :: _, _, _, _, ht, h => by
    have hc := (List.cons_prefix_cons.1 h).1
    exact absurd (hc ▸ List.mem_cons_self) ht
  | c :: _, [], _, _, hs, _, h => by
    have hc := (List.cons_prefix_cons.1 h).1
    exact absurd (hc ▸ List.mem_cons_self) hs
  | c :: s, d :: t, _, _, hs, ht, h => by
    obtain ⟨hc, hrest⟩ := List.cons_prefix_cons.1 h
    have hst : s = t :=
      eq_of_leading_words (fun hm => hs (List.mem_cons_of_mem _ hm)) (fun hm => ht (List.mem_cons_of_mem _ hm)) hrest
    rw [hc, hst]

theorem ReportsCallOf.eq_of_notCallable {typeName other callee : String} (ht : ' ' ∉ typeName.toList)
    (ho : ' ' ∉ other.toList) (h : ReportsCallOf typeName (RuntimeError.notCallable other callee).message) :
    typeName = other := by
  unfold ReportsCallOf RuntimeError.message at h
  have hvalue : " value".toList = ' ' :: "value".toList := rfl
  have hrest : " value ('".toList = ' ' :: "value ('".toList := rfl
  simp only [String.toList_append, List.append_assoc, List.prefix_append_right_inj, hvalue, hrest, List.cons_append] at h
  exact String.toList_inj.1 (eq_of_leading_words ht ho h)

theorem exists_notCallable_of_reportsCallOf {typeName : String} {cause : RuntimeError}
    (h : ReportsCallOf typeName cause.message) : ∃ other callee, cause = .notCallable other callee := by
  -- every other message is told from the report of a call by one of its characters
  cases cause with
  | notCallable other callee => exact ⟨other, callee, rfl⟩
  | unknownFunction name =>
    have ha := @ReportsCallOf.getElem? _ _ h 16 'a' rfl
    unfold RuntimeError.message at ha
    rw [String.toList_append, String.toList_append] at ha
    cases ha
  | notConcatenable operand =>
    have ha := @ReportsCallOf.getElem? _ _ h 12 'a' rfl
    unfold RuntimeError.message at ha
    rw [String.toList_append, String.toList_append] at ha
    cases ha
  | outputFailed reason =>
    have ha := @ReportsCallOf.getElem? _ _ h 0 'a' rfl
    unfold RuntimeError.message at ha
    rw [String.toList_append] at ha
    cases ha

theorem not_reportsCallOf_syntaxError {typeName : String} (cause : SyntaxError) :
    ¬ ReportsCallOf typeName cause.message := by
  intro h
  have ha := @ReportsCallOf.getElem? _ _ h 0 'a' rfl
  unfold SyntaxError.message at ha
  cases cause with
  | expected c =>
    dsimp only at ha
    rw [String.toList_append, String.toList_append] at ha
    cases ha
  | invalidEscape c =>
    dsimp only at ha
    rw [String.toList_append, String.toList_append] at ha
    cases ha
  | _ => cases ha

namespace Engine

variable {host : Host σ} {engine engine' : Engine σ} {name src : String} {w w' : World σ}

/-! ## What the errors of a run say -/

/-- An error of running a source is at a fault of its text, at a call whose callee has no variable and is no builtin, at
a call of a variable that holds a boolean, a number, a string or a table, or at neither a callee nor the text. -/
inductive Explained (src : String) (vs : Variables) : Error → Prop
  | syntaxFault {fault : SyntaxFault} : parse src = .error fault → Explained src vs (.ofFault fault)
  | unknownFunction {ss : List Statement} {callee : String} {args : List Expr} {span : Span} :
      parse src = .ok ss → .call callee args span ∈ ss.flatMap Statement.nodes → vs.find? callee = none →
      callee ∉ Builtin.names → Explained src vs (.runtime (.unknownFunction callee) span)
  | notCallable {ss : List Statement} {callee : String} {args : List Expr} {span : Span} {v : Value} :
      parse src = .ok ss → .call callee args span ∈ ss.flatMap Statement.nodes → vs.find? callee = some v →
      v.typeName ∈ Value.uncallableTypes → Explained src vs (.runtime (.notCallable v.typeName callee) span)
  | notConcatenable (typeName : String) (span : Span) : Explained src vs (.runtime (.notConcatenable typeName) span)
  | outputFailed (reason : String) (span : Span) : Explained src vs (.runtime (.outputFailed reason) span)

theorem explained_of_run_error {err : Error} (h : engine.bindings.Sound)
    (hrun : engine.run host name src w = ((.error err, engine'), w')) : Explained src engine'.bindings err := by
  cases hp : parse src with
  | error fault =>
    rw [run_of_parse_error hp] at hrun
    cases hrun
    exact .syntaxFault hp
  | ok ss =>
    have hsound : engine'.bindings.Sound := by
      have hs := sound_run host h name src w
      rw [hrun] at hs
      exact hs
    obtain hfailure | ⟨w₁, reason, -, -, rfl⟩ := failure_of_run_error hp hrun
    · cases hfailure with
      | callee hx hb =>
        obtain ⟨hnone, hname, rfl⟩ | ⟨v, hv, htype, rfl⟩ := hsound.builtin_error hb
        · exact .unknownFunction hp hx hnone hname
        · exact .notCallable hp hx hv htype
      | output reason hx => exact .outputFailed reason _
      | operand typeName hx => exact .notConcatenable typeName _
    · exact .outputFailed reason _

/-- A message that reports a call names one of four types. -/
theorem Explained.type_mem {vs : Variables} {err : Error} {typeName : String} (h : Explained src vs err)
    (ht : ' ' ∉ typeName.toList) (hr : ReportsCallOf typeName err.reason) : typeName ∈ Value.uncallableTypes := by
  cases h with
  | @syntaxFault fault _ => exact absurd hr (not_reportsCallOf_syntaxError fault.cause)
  | @notCallable ss callee args span v _ _ _ htype =>
    have hblank : ∀ t ∈ Value.uncallableTypes, ' ' ∉ t.toList := by decide
    rw [hr.eq_of_notCallable ht (hblank _ htype)]
    exact htype
  | _ =>
    obtain ⟨other, callee, hcause⟩ := exists_notCallable_of_reportsCallOf hr
    cases hcause

/-- **What scripts leave in variables.** In an engine that has run any scripts, wherever they stopped, no variable is nil,
and no variable holds a handle or a function that is no builtin, at any depth of its tables. A variable that holds a
function is called through. A run that fails over a callee has found a name without a variable or builtin, or a variable
that holds neither nil nor a function nor a handle, and never reports that one of these was called. A variable that is
assigned nil stands for what its name stands for in an engine without variables, and from then on no sequence of scripts
tells the engine from one where the name has no variable. -/
theorem scripts_leave_sound_variables (h : Reached σ engine) :
    engine.bindings.Sound ∧
    (∀ name target, engine.bindings.find? name = some (.function target) →
      ∃ builtin, Builtin.ofName? target = some builtin ∧ engine.bindings.builtin name = .ok builtin) ∧
    (∀ (host : Host σ) (name src : String) (w w' : World σ) (err : Error) (engine' : Engine σ),
      engine.run host name src w = ((.error err, engine'), w') → Explained src engine'.bindings err ∧
        ∀ typeName ∈ ["nil", "function", "userdata"], ¬ ReportsCallOf typeName err.reason) ∧
    ∀ (host : Host σ) (name : String) (value : Expr) (span : Span) (w w' : World σ) (vs : Variables),
      exec engine.bridge host engine.bindings (.assign name value span) w = (.ok vs, w') →
      eval engine.bridge host engine.bindings value w = (.ok .nil, w') →
      (∀ k, vs.find? k = if k = name then none else engine.bindings.find? k) ∧
      vs.evalName name = Variables.evalName {} name ∧ vs.builtin name = Variables.builtin {} name ∧
      (∀ builtin, Builtin.ofName? name = some builtin → vs.builtin name = .ok builtin) ∧
      ∀ other : Engine σ, other.bridge = engine.bridge →
        (∀ k, other.bindings.find? k = if k = name then none else engine.bindings.find? k) →
        ∀ (host : Host σ) (scripts : List (String × String)) (u : World σ),
          SameOutcome (Engine.runAll host ⟨engine.bridge, vs⟩ scripts u) (other.runAll host scripts u) := by
  refine ⟨h.sound, fun name target => h.sound.builtin_of_function, ?_, ?_⟩
  · intro host name src w w' err engine' hrun
    have hexplained := explained_of_run_error h.sound hrun
    have hother : ∀ t ∈ ["nil", "function", "userdata"], ' ' ∉ t.toList ∧ t ∉ Value.uncallableTypes := by decide
    refine ⟨hexplained, fun typeName ht hr => ?_⟩
    obtain ⟨hblank, hno⟩ := hother typeName ht
    exact hno (hexplained.type_mem hblank hr)
  · intro host name value span w w' vs hexec hnil
    obtain ⟨v, hv, rfl⟩ := exec_assign hexec
    obtain rfl : v = .nil := by
      rw [hnil] at hv
      cases hv
      rfl
    have hfind : ∀ k, (engine.bindings.set name .nil).find? k = if k = name then none else engine.bindings.find? k :=
      fun k => engine.bindings.find?_set name .nil k
    have hnone : (engine.bindings.set name .nil).find? name = Dictionary.find? ({} : Variables) name := by
      rw [hfind, if_pos rfl]
      rfl
    refine ⟨hfind, Variables.evalName_congr hnone, Variables.builtin_congr hnone, ?_, ?_⟩
    · intro builtin hb
      rw [Variables.builtin_of_denotes (.itself hnone), hb, Option.elim_some]
    · intro other hbridge hother host scripts u
      have halike : Alike ⟨engine.bridge, engine.bindings.set name .nil⟩ other :=
        ⟨hbridge.symm, fun k => (hfind k).trans (hother k).symm⟩
      exact halike.runAll host scripts u

/-- A function keeps its builtin under another name when its own name becomes a variable. -/
theorem renamed_print_is_called : ∃ engine : Engine Workbench.State, Reached Workbench.State engine ∧
    engine.bindings.find? "say" = some (.function "print") ∧
    engine.bindings.find? "print" = some (.number (.int 5)) ∧
    ∃ builtin, Builtin.ofName? "print" = some builtin ∧ engine.bindings.builtin "say" = .ok builtin := by
  have htext : "say = print; print = 5".toList = ['s', 'a', 'y', ' ', '=', ' ', 'p', 'r', 'i', 'n', 't', ';', ' ', 'p',
      'r', 'i', 'n', 't', ' ', '=', ' ', '5'] := by simp
  have hp : parse "say = print; print = 5" =
      .ok [.assign "say" (.var "print" ⟨6, 11⟩) ⟨0, 11⟩, .assign "print" (.number (.int 5)) ⟨13, 22⟩] := by
    rw [parse, Cursor.ofSource, htext]
    rfl
  let started : Engine Workbench.State := { bridge := { symbols := fun _ => .chain [] } }
  have hreached : Reached Workbench.State started := .started _ { memory := {}, host := {} }
  have hran := hreached.ran (Workbench.host {}) "script" "say = print; print = 5" { memory := {}, host := {} }
  rw [run_of_parse_ok hp] at hran
  exact ⟨_, hran, rfl, rfl, (scripts_leave_sound_variables hran).2.1 "say" "print" rfl⟩

end Engine

end SymbolBridge.Script
