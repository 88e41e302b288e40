import SymbolBridge.Bridge.Basic

/-!
# What a signature has against a call

A call is `Mismatched` with the signature in force for its name if it has more arguments than parameters, an argument
that its parameter does not accept (the first one counts), or more arguments than there are slots, in this order.
`signatureFault?_eq_some_iff` says that the bridge finds exactly these faults. An accepted declaration puts its signature
in force and changes no other (`find?_of_declare`).
-/

namespace SymbolBridge

namespace Signature

/-- Every argument is accepted by the parameter in its place. -/
def Accepts (params : List ParamKind) (args : List Value) : Prop :=
  ∀ (i : Nat) (k : ParamKind) (v : Value), params[i]? = some k → args[i]? = some v → k.accepts v = true

theorem accepts_cons {k : ParamKind} {ks : List ParamKind} {v : Value} {vs : List Value} :
    Accepts (k :: ks) (v :: vs) ↔ k.accepts v = true ∧ Accepts ks vs := by
  constructor
  · intro h
    exact ⟨h 0 k v rfl rfl, fun i k' v' hk hv => h (i + 1) k' v' (by simpa using hk) (by simpa using hv)⟩
  · rintro ⟨h, hs⟩ i k' v' hk hv
    cases i with
    | zero =>
      obtain rfl := Option.some.inj hk
      obtain rfl := Option.some.inj hv
      exact h
    | succ i => exact hs i k' v' (by simpa using hk) (by simpa using hv)

/-- The argument at a place is the first one that its parameter does not accept. -/
structure RejectsAt (params : List ParamKind) (args : List Value) (i : Nat) (k : ParamKind) (v : Value) : Prop where
  param : params[i]? = some k
  argument : args[i]? = some v
  rejected : k.accepts v = false
  earlier : Accepts (params.take i) (args.take i)

theorem firstFault_eq_none_iff : ∀ {ks : List ParamKind} {vs : List Value} {place : Nat},
    firstFault place ks vs = none ↔ Accepts ks vs
  | [], _, _ => by simp [firstFault, Accepts]
  | _ :: _, [], _ => by simp [firstFault, Accepts]
  | k :: ks, v :: vs, place => by
    rw [accepts_cons]
    by_cases h : k.accepts v
    · simp [firstFault, h, @firstFault_eq_none_iff ks vs]
    · simp [firstFault, h]

theorem firstFault_eq_some_iff : ∀ {ks : List ParamKind} {vs : List Value} {place : Nat} {f : SignatureFault},
    firstFault place ks vs = some f ↔
      ∃ i k v, RejectsAt ks vs i k v ∧ f = .unacceptable (place + i) v.typeName k
  | [], vs, _, _ => by
    simp only [firstFault, reduceCtorEq, false_iff]
    rintro ⟨i, k, v, h, -⟩
    simpa using h.param
  | _ :: _, [], _, _ => by
    simp only [firstFault, reduceCtorEq, false_iff]
    rintro ⟨i, k, v, h, -⟩
    simpa using h.argument
  | k :: ks, v :: vs, place, f => by
    by_cases h : k.accepts v
    · rw [firstFault, if_pos h, @firstFault_eq_some_iff ks vs]
      constructor
      · rintro ⟨i, k', v', hr, rfl⟩
        refine ⟨i + 1, k', v', ⟨by simpa using hr.param, by simpa using hr.argument, hr.rejected, ?_⟩, ?_⟩
        · simpa [accepts_cons, h] using hr.earlier
        · rw [Nat.add_assoc, Nat.add_comm 1 i]
      · rintro ⟨i, k', v', hr, rfl⟩
        cases i with
        | zero =>
          obtain rfl := Option.some.inj hr.param
          obtain rfl := Option.some.inj hr.argument
          exact absurd h (by simp [hr.rejected])
        | succ i =>
          have he := hr.earlier
          simp only [List.take_succ_cons, accepts_cons] at he
          refine ⟨i, k', v', ⟨by simpa using hr.param, by simpa using hr.argument, hr.rejected, he.2⟩, ?_⟩
          rw [Nat.add_assoc, Nat.add_comm 1 i]
    · rw [firstFault, if_neg h, Option.some.injEq]
      constructor
      · rintro rfl
        exact ⟨0, k, v, ⟨rfl, rfl, by simpa using h, by simp [Accepts]⟩, rfl⟩
      · rintro ⟨i, k', v', hr, rfl⟩
        cases i with
        | zero =>
          obtain rfl := Option.some.inj hr.param
          obtain rfl := Option.some.inj hr.argument
          rfl
        | succ i =>
          have he := hr.earlier
          simp only [List.take_succ_cons, accepts_cons] at he
          exact absurd he.1 h

end Signature

namespace Bridge

/-- A declaration that is accepted puts its signature in force and does nothing else. -/
theorem declare_eq_ok {b b' : Bridge σ} {name : String} {signature : Signature}
    (h : b.declare name signature = .ok b') : signature.arity ≤ maxSlots ∧
      b' = { b with signatures := ⟨b.signatures.byName.insert name signature⟩ } := by
  unfold declare Signatures.declare at h
  by_cases ha : maxSlots < signature.arity
  · rw [if_pos ha] at h
    cases h
  · rw [if_neg ha] at h
    cases h
    exact ⟨Nat.le_of_not_lt ha, rfl⟩

theorem find?_of_declare {b b' : Bridge σ} {name : String} {signature : Signature}
    (h : b.declare name signature = .ok b') (k : String) :
    b'.signatures.find? k = if k = name then some signature else b.signatures.find? k := by
  rw [(declare_eq_ok h).2]
  exact Dictionary.find?_insert _ name signature k

/-- What the signature in force for a name, if there is one, has against some arguments. -/
inductive Mismatched (b : Bridge σ) (name : SymbolName) (args : List Value) : SignatureFault → Prop
  | tooMany {s : Signature} : b.signatures.find? name.text = some s → s.arity < args.length →
      Mismatched b name args (.tooManyArguments s.arity args.length)
  | unacceptable {s : Signature} {i : Nat} {k : ParamKind} {v : Value} : b.signatures.find? name.text = some s →
      args.length ≤ s.arity → Signature.RejectsAt s.params args i k v →
      Mismatched b name args (.unacceptable (i + 1) v.typeName k)
  | noRoom {s : Signature} : b.signatures.find? name.text = some s → args.length ≤ s.arity →
      Signature.Accepts s.params args → ArgumentVector.room b.config.maxArguments < args.length →
      Mismatched b name args (.noRoom args.length (ArgumentVector.room b.config.maxArguments))

theorem mismatched_of_signatureFault? {b : Bridge σ} {name : SymbolName} {args : List Value} {f : SignatureFault}
    (h : b.signatureFault? name args = some f) : b.Mismatched name args f := by
  unfold signatureFault? at h
  cases hs : b.signatures.find? name.text with
  | none => simp [hs] at h
  | some s =>
    simp only [hs, Signature.fault?] at h
    by_cases hl : s.arity < args.length
    · simp only [hl, ↓reduceIte, Option.some.injEq] at h
      exact h ▸ .tooMany hs hl
    · simp only [hl, ↓reduceIte] at h
      cases hf : Signature.firstFault 1 s.params args with
      | some g =>
        simp only [hf, Option.some.injEq] at h
        obtain ⟨i, k, v, hr, rfl⟩ := Signature.firstFault_eq_some_iff.1 hf
        rw [← h, Nat.add_comm 1 i]
        exact .unacceptable hs (by omega) hr
      | none =>
        simp only [hf] at h
        by_cases hr : ArgumentVector.room b.config.maxArguments < args.length
        · rw [if_pos hr, Option.some.injEq] at h
          exact h ▸ .noRoom hs (by omega) (Signature.firstFault_eq_none_iff.1 hf) hr
        · rw [if_neg hr] at h
          cases h

theorem signatureFault?_of_mismatched {b : Bridge σ} {name : SymbolName} {args : List Value} {f : SignatureFault}
    (h : b.Mismatched name args f) : b.signatureFault? name args = some f := by
  cases h with
  | tooMany hs hl => simp [signatureFault?, hs, Signature.fault?, hl]
  | @unacceptable s i k v hs hl hr =>
    have hf : Signature.firstFault 1 s.params args = some (.unacceptable (i + 1) v.typeName k) :=
      Signature.firstFault_eq_some_iff.2 ⟨i, k, v, hr, by rw [Nat.add_comm]⟩
    simp [signatureFault?, hs, Signature.fault?, Nat.not_lt.2 hl, hf]
  | @noRoom s hs hl ha hr =>
    have hf : Signature.firstFault 1 s.params args = none := Signature.firstFault_eq_none_iff.2 ha
    simp only [signatureFault?, hs, Signature.fault?, Nat.not_lt.2 hl, ↓reduceIte, hf, hr]

theorem signatureFault?_eq_some_iff {b : Bridge σ} {name : SymbolName} {args : List Value} {f : SignatureFault} :
    b.signatureFault? name args = some f ↔ b.Mismatched name args f :=
  ⟨mismatched_of_signatureFault?, signatureFault?_of_mismatched⟩

theorem signatureFault?_eq_none_iff {b : Bridge σ} {name : SymbolName} {args : List Value} :
    b.signatureFault? name args = none ↔ ∀ f, ¬ b.Mismatched name args f := by
  rw [Option.eq_none_iff_forall_ne_some]
  exact forall_congr' fun f => not_congr signatureFault?_eq_some_iff

end Bridge

end SymbolBridge
