import SymbolBridge.Native.World

/-!
# Operations and their effects

An operation is a function on worlds; `Op.bind_run` runs two in sequence, and `Op.bind_eq_ok` and `Op.bind_eq_error` take
such a run apart. What a world has been through beyond logged
events is `World.effects`; two worlds that differ in logged events alone are `SameButLog`.
-/

namespace SymbolBridge

variable {σ ε α β : Type}

/-! ## Effects -/

def Action.isLogged : Action → Bool
  | .logged _ => true
  | _ => false

namespace World

/-- The world after some events have been logged. -/
def logged (w : World σ) (es : List Event) : World σ :=
  { w with journal := w.journal ++ (es.map Action.logged).toArray }

/-- What has been done in a world, log apart. -/
def effects (w : World σ) : List Action := w.journal.toList.filter (!·.isLogged)

/-- The same memory, state of the host and effects. -/
structure SameButLog (w w' : World σ) : Prop where
  memory : w'.memory = w.memory
  host : w'.host = w.host
  effects : w'.effects = w.effects

@[simp] theorem memory_logged (w : World σ) (es : List Event) : (w.logged es).memory = w.memory := rfl

@[simp] theorem host_logged (w : World σ) (es : List Event) : (w.logged es).host = w.host := rfl

@[simp] theorem effects_logged (w : World σ) (es : List Event) : (w.logged es).effects = w.effects := by
  have h : (es.map Action.logged).filter (!·.isLogged) = [] := by simp [Action.isLogged]
  simp [effects, logged, h]

theorem sameButLog_logged (w : World σ) (es : List Event) : w.SameButLog (w.logged es) :=
  ⟨rfl, rfl, effects_logged w es⟩

theorem SameButLog.symm {u v : World σ} (h : u.SameButLog v) : v.SameButLog u :=
  ⟨h.memory.symm, h.host.symm, h.effects.symm⟩

theorem SameButLog.trans {u v w : World σ} (h : u.SameButLog v) (h' : v.SameButLog w) : u.SameButLog w :=
  ⟨h'.memory.trans h.memory, h'.host.trans h.host, h'.effects.trans h.effects⟩

/-- The same action with the same effect on memory and the host. -/
theorem SameButLog.push {w w' : World σ} (h : w.SameButLog w') (a : Action) (memory : Memory) (host : σ) :
    World.SameButLog { memory := memory, host := host, journal := w.journal.push a }
      { memory := memory, host := host, journal := w'.journal.push a } := by
  have heffects := h.effects
  refine ⟨rfl, rfl, ?_⟩
  simp only [World.effects] at heffects ⊢
  simp [heffects]

end World

/-! ## Running operations -/

namespace Op

theorem pure_run (a : α) (w : World σ) : (pure a : Op σ ε α) w = (.ok a, w) := rfl

theorem throw_run (e : ε) (w : World σ) : (throw e : Op σ ε α) w = (.error e, w) := rfl

theorem state_bind_run {τ : Type} (x : StateM τ α) (f : α → StateM τ β) (t : τ) :
    (x >>= f) t = f (x t).1 (x t).2 := rfl

/-- The second operation runs where the first one succeeds. -/
theorem bind_run (x : Op σ ε α) (f : α → Op σ ε β) (w : World σ) :
    (x >>= f) w = match x w with
      | (.ok a, w') => f a w'
      | (.error e, w') => (.error e, w') := by
  have h : (x >>= f) w = ExceptT.bindCont f (x w).1 (x w).2 := rfl
  rw [h]
  rcases x w with ⟨_ | _, _⟩ <;> rfl

theorem log_run (e : Event) (w : World σ) : (Op.log e : Op σ ε Unit) w = (.ok (), w.logged [e]) := by
  simp [Op.log, Op.record, World.logged]

theorem logAll_run (es : List Event) (w : World σ) : (Op.logAll es : Op σ ε Unit) w = (.ok (), w.logged es) := rfl

theorem look_run (f : σ → α) (w : World σ) : (Op.look f : Op σ ε α) w = (.ok (f w.host), w) := rfl

theorem ofExcept_run (r : Except ε α) (w : World σ) : (Op.ofExcept r : Op σ ε α) w = (r, w) := rfl

/-- Applying a function to the value of an operation changes nothing about what it does. -/
theorem bind_pure_run (x : Op σ ε α) (f : α → β) (w : World σ) :
    (x >>= fun a => pure (f a)) w = ((x w).1.map f, (x w).2) := by
  rw [bind_run]
  rcases x w with ⟨e | a, w'⟩
  · rfl
  · rfl

/-- Two operations in sequence succeed only if both do. -/
theorem bind_eq_ok {x : Op σ ε α} {f : α → Op σ ε β} {c : β} {w w' : World σ}
    (h : (x >>= f) w = (.ok c, w')) : ∃ a w₁, x w = (.ok a, w₁) ∧ f a w₁ = (.ok c, w') := by
  rw [bind_run] at h
  rcases hx : x w with ⟨e | a, w₁⟩
  · rw [hx] at h
    cases h
  · rw [hx] at h
    exact ⟨a, w₁, rfl, h⟩

theorem pure_eq_ok_iff {a c : α} {w w' : World σ} : (pure a : Op σ ε α) w = (.ok c, w') ↔ a = c ∧ w = w' := by
  constructor
  · intro h
    cases h
    exact ⟨rfl, rfl⟩
  · rintro ⟨rfl, rfl⟩
    rfl

theorem bind_eq_ok_iff {x : Op σ ε α} {f : α → Op σ ε β} {c : β} {w w' : World σ} :
    (x >>= f) w = (.ok c, w') ↔ ∃ a w₁, x w = (.ok a, w₁) ∧ f a w₁ = (.ok c, w') := by
  refine ⟨bind_eq_ok, ?_⟩
  rintro ⟨a, w₁, hx, hf⟩
  rw [bind_run, hx]
  exact hf

/-- Two operations in sequence fail if the first one does, or if the second one does after it. -/
theorem bind_eq_error {x : Op σ ε α} {f : α → Op σ ε β} {e : ε} {w w' : World σ}
    (h : (x >>= f) w = (.error e, w')) :
    x w = (.error e, w') ∨ ∃ a w₁, x w = (.ok a, w₁) ∧ f a w₁ = (.error e, w') := by
  rw [bind_run] at h
  rcases hx : x w with ⟨e' | a, w₁⟩
  · rw [hx] at h
    cases h
    exact .inl rfl
  · rw [hx] at h
    exact .inr ⟨a, w₁, rfl, h⟩

/-- An operation fails exactly if it does not succeed. -/
theorem exists_error_iff {op : Op σ ε α} {w : World σ} :
    (∃ e w', op w = (.error e, w')) ↔ ∀ a w', op w ≠ (.ok a, w') := by
  constructor
  · rintro ⟨e, w', h⟩ a w₁ h'
    rw [h] at h'
    cases h'
  · intro h
    rcases hr : op w with ⟨e | a, w'⟩
    · exact ⟨e, w', rfl⟩
    · exact absurd hr (h a w')

theorem bind_pure_eq_ok {x : Op σ ε α} {f : α → β} {c : β} {w w' : World σ}
    (h : (x >>= fun a => pure (f a)) w = (.ok c, w')) : ∃ a, x w = (.ok a, w') ∧ c = f a := by
  obtain ⟨a, w₁, hx, hc⟩ := bind_eq_ok h
  cases hc
  exact ⟨a, hx, rfl⟩

theorem bind_pure_eq_error {x : Op σ ε α} {f : α → β} {e : ε} {w w' : World σ}
    (h : (x >>= fun a => pure (f a)) w = (.error e, w')) : x w = (.error e, w') := by
  obtain hx | ⟨a, w₁, -, hc⟩ := bind_eq_error h
  · exact hx
  · cases hc

theorem ofExcept_bind_run (r : Except ε α) (f : α → Op σ ε β) (w : World σ) :
    (ofExcept r >>= f) w = match r with
      | .ok a => f a w
      | .error e => (.error e, w) := by
  rw [bind_run, ofExcept_run]
  cases r with
  | error e => rfl
  | ok a => rfl

end Op

end SymbolBridge
