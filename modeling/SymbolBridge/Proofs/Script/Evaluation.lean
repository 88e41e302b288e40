import SymbolBridge.Proofs.Bridge.Request
import SymbolBridge.Proofs.Script.Run

/-!
# The steps of an evaluation

What a callee stands for, and when it stands for no builtin (`Variables.builtin_eq_error`); when an operand has no text;
and what evaluating a node does to one world, in an equation for each kind of node (`eval_concat_run`; for calls,
`eval_call_run`). A statement changes no variable but the one it assigns (`Engine.execAll_find?`).
-/

namespace SymbolBridge

variable {σ : Type}

/-- A string or a number. -/
def Value.HasText (v : Value) : Prop := (∃ s, v = .str s) ∨ ∃ n, v = .number n

theorem Value.text?_eq_none_iff {v : Value} : v.text? = none ↔ ¬ v.HasText := by
  cases v <;> simp [Value.text?, Value.HasText]

theorem Builtin.ofName?_eq_none_iff {name : String} : Builtin.ofName? name = none ↔ name ∉ Builtin.names := by
  rw [ofName?, List.lookup_eq_none_iff, names, List.mem_map]
  constructor
  · rintro h ⟨p, hp, rfl⟩
    simpa using h p hp
  · intro h p hp
    simpa using fun hname : name = p.1 => h ⟨p, hp, hname.symm⟩

namespace Script

/-! ## Callees -/

namespace Variables

variable {vs : Variables} {callee name : String} {v : Value}

/-- What a callee stands for: itself, or the function that the variable of this name holds. -/
inductive Denotes (vs : Variables) (callee : String) : String → Prop
  | itself : vs.find? callee = none → Denotes vs callee callee
  | through {name : String} : vs.find? callee = some (.function name) → Denotes vs callee name

theorem builtin_of_denotes (h : vs.Denotes callee name) :
    vs.builtin callee = (Builtin.ofName? name).elim (.error (.unknownFunction name)) .ok := by
  cases h with
  | itself h => cases hb : Builtin.ofName? callee <;> simp [builtin, h, hb]
  | through h => cases hb : Builtin.ofName? name <;> simp [builtin, h, hb]

theorem builtin_of_unknown (h : vs.Denotes callee name) (hn : name ∉ Builtin.names) :
    vs.builtin callee = .error (.unknownFunction name) := by
  rw [builtin_of_denotes h, Builtin.ofName?_eq_none_iff.2 hn, Option.elim_none]

theorem builtin_of_notCallable (h : vs.find? callee = some v) (hv : ∀ name, v ≠ .function name) :
    vs.builtin callee = .error (.notCallable v.typeName callee) := by
  rw [builtin, h]
  cases v with
  | function name => exact absurd rfl (hv name)
  | _ => rfl

/-- A callee stands for no builtin if its variable holds no function, or if no builtin has the name it stands for. -/
theorem builtin_eq_error {cause : RuntimeError} (h : vs.builtin callee = .error cause) :
    (∃ v, vs.find? callee = some v ∧ (∀ name, v ≠ .function name) ∧ cause = .notCallable v.typeName callee) ∨
      ∃ name, vs.Denotes callee name ∧ name ∉ Builtin.names ∧ cause = .unknownFunction name := by
  have hdenotes : ∀ name, vs.Denotes callee name →
      ∃ name, vs.Denotes callee name ∧ name ∉ Builtin.names ∧ cause = .unknownFunction name := by
    intro name hd
    rw [builtin_of_denotes hd] at h
    cases hb : Builtin.ofName? name with
    | some b =>
      rw [hb] at h
      cases h
    | none =>
      rw [hb] at h
      cases h
      exact ⟨name, hd, Builtin.ofName?_eq_none_iff.1 hb, rfl⟩
  cases hv : vs.find? callee with
  | none => exact .inr (hdenotes callee (.itself hv))
  | some v =>
    by_cases hf : ∃ name, v = .function name
    · obtain ⟨name, rfl⟩ := hf
      exact .inr (hdenotes name (.through hv))
    · have hno : ∀ name, v ≠ .function name := fun name hname => hf ⟨name, hname⟩
      rw [builtin_of_notCallable hv hno] at h
      cases h
      exact .inl ⟨v, rfl, hno, rfl⟩

theorem find?_set (vs : Variables) (name : String) (v : Value) (k : String) :
    (vs.set name v).find? k = if k = name then (if v.isNil then none else some v) else vs.find? k := by
  unfold set
  by_cases hv : v.isNil
  · rw [if_pos hv, if_pos hv, Dictionary.find?_erase]
  · rw [if_neg hv, if_neg hv, Dictionary.find?_insert]

theorem find?_set_of_ne (vs : Variables) (v : Value) (h : callee ≠ name) :
    (vs.set name v).find? callee = vs.find? callee := by
  rw [find?_set, if_neg h]

end Variables

/-! ## Operands -/

theorem operandText_of_not_hasText {v : Value} (h : ¬ v.HasText) :
    operandText v = .error (.notConcatenable v.typeName) := by
  rw [operandText, Value.text?_eq_none_iff.2 h]

theorem operandText_eq_error {v : Value} {cause : RuntimeError} (h : operandText v = .error cause) :
    ¬ v.HasText ∧ cause = .notConcatenable v.typeName := by
  by_cases hv : v.HasText
  · obtain ⟨s, rfl⟩ | ⟨n, rfl⟩ := hv
    · cases h
    · cases h
  · rw [operandText_of_not_hasText hv] at h
    cases h
    exact ⟨hv, rfl⟩

theorem operandText_eq_ok {v : Value} {text : String} (h : operandText v = .ok text) : v.HasText := by
  by_cases hv : v.HasText
  · exact hv
  · rw [operandText_of_not_hasText hv] at h
    cases h

theorem atSpan_eq_error {α : Type} {span : Span} {r : Except RuntimeError α} {err : Error} {w w' : World σ}
    (h : atSpan span r w = (.error err, w')) : ∃ cause, r = .error cause ∧ err = .runtime cause span := by
  cases r with
  | ok a => cases h
  | error cause =>
    cases h
    exact ⟨cause, rfl, rfl⟩

/-! ## The steps of an evaluation -/

section

variable {b : Bridge σ} {host : Host σ} {vs : Variables} {w : World σ}

theorem eval_table_run (items : List Expr) : eval b host vs (.table items) w =
    ((evalAll b host vs items w).1.map .table, (evalAll b host vs items w).2) := by
  rw [eval, Op.bind_pure_run]

theorem eval_concat_run (left right : Expr) (span : Span) : eval b host vs (.concat left right span) w =
    match eval b host vs left w with
      | (.error e, w₁) => (.error e, w₁)
      | (.ok x, w₁) =>
        match eval b host vs right w₁ with
          | (.error e, w₂) => (.error e, w₂)
          | (.ok y, w₂) =>
            match operandText x, operandText y with
              | .ok s, .ok t => (.ok (.str (s ++ t)), w₂)
              | .error cause, _ => (.error (.runtime cause span), w₂)
              | .ok _, .error cause => (.error (.runtime cause span), w₂) := by
  rw [eval, Op.bind_run]
  rcases eval b host vs left w with ⟨e | x, w₁⟩
  · rfl
  · simp only [Op.bind_run]
    rcases eval b host vs right w₁ with ⟨e | y, w₂⟩
    · rfl
    · dsimp only
      cases operandText x with
      | error cause => rfl
      | ok s =>
        cases operandText y with
        | error cause => rfl
        | ok t => rfl

theorem evalAll_cons_run (e : Expr) (es : List Expr) : evalAll b host vs (e :: es) w =
    match eval b host vs e w with
      | (.error err, w₁) => (.error err, w₁)
      | (.ok v, w₁) => ((evalAll b host vs es w₁).1.map (v :: ·), (evalAll b host vs es w₁).2) := by
  rw [evalAll, Op.bind_run]
  rcases eval b host vs e w with ⟨err | v, w₁⟩
  · rfl
  · exact Op.bind_pure_run _ _ w₁

end

/-! ## Variables -/

section

variable {b : Bridge σ} {host : Host σ} {w w' : World σ}

theorem exec_find? {vs vs' : Variables} {s : Statement} {name : String}
    (h : exec b host vs s w = (.ok vs', w')) (hs : s.assigned? ≠ some name) : vs'.find? name = vs.find? name := by
  cases s with
  | assign target value span =>
    obtain ⟨v, -, rfl⟩ := exec_assign h
    exact vs.find?_set_of_ne v fun heq => hs (congrArg some heq.symm)
  | call callee args span => rw [exec_call h]

namespace Engine

/-- Statements that do not assign a variable leave it as it is. -/
theorem execAll_find? {name : String} : ∀ {ss : List Statement} {engine engine' : Engine σ} {r : Except Error Unit}
    {w w' : World σ}, engine.execAll host ss w = ((r, engine'), w') → name ∉ ss.filterMap Statement.assigned? →
    engine'.bindings.find? name = engine.bindings.find? name
  | [], _, _, _, _, _, h, _ => by
    cases h
    rfl
  | s :: ss, engine, engine', r, w, w', h, hname => by
    rw [List.mem_filterMap] at hname
    have hs : s.assigned? ≠ some name := fun hs => hname ⟨s, List.mem_cons_self, hs⟩
    have hss : name ∉ ss.filterMap Statement.assigned? := fun hss => by
      obtain ⟨t, ht, hn⟩ := List.mem_filterMap.1 hss
      exact hname ⟨t, List.mem_cons_of_mem s ht, hn⟩
    rw [execAll_cons] at h
    rcases he : exec engine.bridge host engine.bindings s w with ⟨e | bindings, w₁⟩
    · rw [he] at h
      cases h
      rfl
    · rw [he] at h
      exact (execAll_find? h hss).trans (exec_find? he hs)

end Engine

end

end Script

end SymbolBridge
