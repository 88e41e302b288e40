import SymbolBridge.Proofs.Embedding.History
import SymbolBridge.Proofs.Symbol.Name

/-!
# Declared signatures over time

A signature is in force from its declaration to the next one for its name, whatever happens in between. While it is, a
call of a name that is kept as the declared one is refused if the signature objects to its arguments, and what is returned
is read as the signature says (`declared_signature_in_force`). A signature that is declared for a name that is not kept
whole is never looked at: no call goes differently for it (`Bridge.invoke_of_cut_declaration`), not even one of the very
name that was declared (`addition_goes_unchecked`).
-/

namespace SymbolBridge

variable {σ : Type}

/-- A signature has something against arguments for which there are some slots. -/
def Signature.Objects (s : Signature) (slots : Nat) (args : List Value) : Prop :=
  s.arity < args.length ∨ slots < args.length ∨ ¬ Signature.Accepts s.params args

namespace Bridge

variable {b : Bridge σ} {name : SymbolName} {s : Signature} {raw : String} {args : List Value}

theorem signatureFault?_of_objects (hs : b.signatures.find? name.text = some s)
    (h : s.Objects (min b.config.maxArguments maxSlots) args) : ∃ f, b.signatureFault? name args = some f := by
  rw [signatureFault?, hs]
  dsimp only
  cases hf : s.fault? args with
  | some f => exact ⟨f, rfl⟩
  | none =>
    rw [Signature.fault?] at hf
    split at hf
    · cases hf
    · rename_i harity
      have hroom : ArgumentVector.room b.config.maxArguments < args.length :=
        (h.resolve_left harity).resolve_right fun hno => hno (Signature.firstFault_eq_none_iff.1 hf)
      exact ⟨.noRoom args.length (ArgumentVector.room b.config.maxArguments), if_pos hroom⟩

/-- A call to which the signature of its name objects is not made. -/
theorem invoke_of_objects (host : Host σ) (w : World σ) (hn : SymbolName.ofText b.config.maxNameLength raw = .ok name)
    (hs : b.signatures.find? name.text = some s) (h : s.Objects (min b.config.maxArguments maxSlots) args) :
    ∃ f w', b.invoke host raw args w = (.error (.signatureMismatch name.text f), w') ∧ w.SameButLog w' := by
  obtain ⟨f, hf⟩ := signatureFault?_of_objects hs h
  exact ⟨f, _, invoke_of_mismatch w hn hf, w.sameButLog_logged _⟩

/-- A call that is made returns what the signature of its name makes of the word. -/
theorem invoke_returns (host : Host σ) {w w' : World σ} {n : Int64}
    (hn : SymbolName.ofText b.config.maxNameLength raw = .ok name) (hs : b.signatures.find? name.text = some s)
    (h : b.invoke host raw args w = (.ok n, w')) :
    ∃ (c : NativeCall) (word : Word), c.Made host w word w' ∧ n.toInt = s.returns.value word := by
  obtain ⟨c, word, -, -, hmade, hvalue⟩ := called_of_invoke hn h
  rw [hs] at hvalue
  exact ⟨c, word, hmade, hvalue⟩

/-- Of all signatures a call looks at the one of its name only. -/
theorem invoke_congr (host : Host σ) (w : World σ) {ss : Signatures}
    (h : ∀ name, SymbolName.ofText b.config.maxNameLength raw = .ok name →
      ss.find? name.text = b.signatures.find? name.text) :
    ({ b with signatures := ss } : Bridge σ).invoke host raw args w = b.invoke host raw args w := by
  cases hn : SymbolName.ofText b.config.maxNameLength raw with
  | error e =>
    rw [invoke_of_nameless w hn]
    exact invoke_of_nameless w hn
  | ok name =>
    have hfault : ({ b with signatures := ss } : Bridge σ).signatureFault? name args = b.signatureFault? name args := by
      simp only [signatureFault?, h name hn]
    have hreturns : ({ b with signatures := ss } : Bridge σ).returnKind name = b.returnKind name := by
      simp only [returnKind, h name hn]
    cases hf : b.signatureFault? name args with
    | some f =>
      rw [invoke_of_mismatch w hn hf]
      exact invoke_of_mismatch w hn (hfault.trans hf)
    | none =>
      cases hr : (b.symbols w.host).resolve b.config name .code with
      | error e =>
        rw [invoke_of_unresolved w hn hf hr]
        exact invoke_of_unresolved w hn (hfault.trans hf) hr
      | ok found =>
        rw [invoke_of_resolved w hn hf hr, ← hreturns]
        exact invoke_of_resolved w hn (hfault.trans hf) hr

/-- Declaring a name that is not kept whole changes no call. -/
theorem invoke_of_cut_declaration {b' : Bridge σ} {declared : String} (host : Host σ) (raw : String) (args : List Value)
    (w : World σ) (hcut : SymbolName.keep b.config.maxNameLength declared ≠ declared)
    (hdeclared : b.declare declared s = .ok b') : b'.invoke host raw args w = b.invoke host raw args w := by
  obtain ⟨-, rfl⟩ := declare_eq_ok hdeclared
  refine invoke_congr host w fun name hn => ?_
  have hne : name.text ≠ declared := fun heq => hcut (heq ▸ SymbolName.keep_of_ofText hn)
  exact (find?_of_declare hdeclared name.text).trans (if_neg hne)

end Bridge

namespace Embedding

/-- **Signatures are in force from their declaration on.** Take an accepted declaration and any steps after it that do
not declare its name anew. A call of a name that is kept as the declared one, directly or through the entry point, is
refused without a trace but the log if the signature objects to its arguments or they need more slots than there are; and
what a call returns is read as the signature says. A declaration that is refused changes nothing. -/
theorem declared_signature_in_force (host : Host σ) (s : Embedding σ) {declared raw : String} {signature : Signature}
    {bridge : Bridge σ} {later : List Step} (hdeclared : s.engine.bridge.declare declared signature = .ok bridge)
    (hlater : ∀ t ∈ later, ¬ t.Declares declared)
    (hkept : SymbolName.ofText s.engine.bridge.config.maxNameLength raw = .ok ⟨declared⟩) :
    let b := ((s.step host (.declare declared signature)).after host later).engine.bridge
    (∀ args (w : World σ), signature.Objects (min b.config.maxArguments maxSlots) args →
      (∃ f w', b.invoke host raw args w = (.error (.signatureMismatch declared f), w') ∧ w.SameButLog w') ∧
      ∀ v, v.text? = some raw → ∃ f w', b.tryDispatch host .call (v :: args) w =
        (.error (.signatureMismatch declared f), w') ∧ w.SameButLog w') ∧
    (∀ args (w w' : World σ), (∀ n, b.invoke host raw args w = (.ok n, w') →
        ∃ (c : Bridge.NativeCall) (word : Word), c.Made host w word w' ∧ n.toInt = signature.returns.value word) ∧
      ∀ v value, v.text? = some raw → b.tryDispatch host .call (v :: args) w = (.ok value, w') →
        ∃ (c : Bridge.NativeCall) (word : Word) (n : Int64), value = some (.number (.int n)) ∧ c.Made host w word w' ∧
          n.toInt = signature.returns.value word) ∧
    ∀ (s : Embedding σ) (name : String) (refused : Signature), maxSlots < refused.arity →
      (∃ f, s.engine.bridge.declare name refused = .error (.signatureMismatch name f)) ∧
        s.step host (.declare name refused) = s := by
  intro b
  have hstep : s.step host (.declare declared signature) = { s with engine.bridge := bridge } := by
    rw [step, hdeclared]
  have hn : SymbolName.ofText b.config.maxNameLength raw = .ok ⟨declared⟩ := by
    rw [config_after, config_step]
    exact hkept
  have hs : b.signatures.find? declared = some signature := by
    rw [find?_signatures_after host hlater, hstep]
    exact (Bridge.find?_of_declare hdeclared declared).trans (if_pos rfl)
  refine ⟨fun args w hobjects => ?_, fun args w w' => ⟨fun n h => Bridge.invoke_returns host hn hs h, ?_⟩, ?_⟩
  · obtain ⟨f, w', hrun, hlog⟩ := Bridge.invoke_of_objects host w hn hs hobjects
    refine ⟨⟨f, w', hrun, hlog⟩, fun v hv => ⟨f, w', ?_, hlog⟩⟩
    rw [Bridge.tryDispatch_call host hv, hrun]
    rfl
  · intro v value hv h
    rw [Bridge.tryDispatch_call host hv] at h
    rcases hrun : b.invoke host raw args w with ⟨e | n, w₁⟩
    · rw [hrun] at h
      cases h
    · rw [hrun] at h
      cases h
      obtain ⟨c, word, hmade, hvalue⟩ := Bridge.invoke_returns host hn hs hrun
      exact ⟨c, word, n, rfl, hmade, hvalue⟩
  · intro s name refused harity
    have hrefused : s.engine.bridge.declare name refused =
        .error (.signatureMismatch name (.tooManyParameters refused.arity maxSlots)) := by
      rw [Bridge.declare, Signatures.declare, if_pos harity]
      rfl
    exact ⟨⟨_, hrefused⟩, by rw [step, hrefused]⟩

/-- An embedding of the arena's addition under the name that is kept of `addition` in three bytes. -/
def adder : Embedding Workbench.State :=
  start ⟨[({} : Registry).define "add" Workbench.Function.add.address .code], [.registry 0]⟩
    { bridge := { symbols := fun _ => .chain [], config := { maxNameLength := 3 } } } { memory := {}, host := {} }

/-- A function of no parameters, declared under the name that is kept, refuses an argument. -/
theorem addition_refused_as_add : ∃ f w',
    (((adder.step (Workbench.host {}) (.declare "add" ⟨[], .word⟩)).after (Workbench.host {})
      [.declare "addition" ⟨[.any], .word⟩]).engine.bridge.invoke (Workbench.host {}) "addition" [.nil] adder.world) =
        (.error (.signatureMismatch "add" f), w') ∧ adder.world.SameButLog w' := by
  obtain ⟨bridge, hdeclared⟩ : ∃ bridge, adder.engine.bridge.declare "add" ⟨[], .word⟩ = .ok bridge := ⟨_, rfl⟩
  have hlater : ∀ t ∈ [Step.declare "addition" ⟨[.any], .word⟩], ¬ t.Declares "add" := by
    rintro t ht ⟨signature, rfl, -⟩
    simp at ht
  have hkept : SymbolName.ofText adder.engine.bridge.config.maxNameLength "addition" = .ok ⟨"add"⟩ := rfl
  exact ((declared_signature_in_force (Workbench.host {}) adder hdeclared hlater hkept).1 [.nil] adder.world
    (.inl (by decide))).1

/-- A function of no parameters, declared under a longer name than is kept, is called with two arguments: nothing is
checked. -/
theorem addition_goes_unchecked :
    (∃ bridge, adder.engine.bridge.declare "addition" ⟨[], .word⟩ = .ok bridge) ∧
      (⟨[], .word⟩ : Signature).Objects (min adder.engine.bridge.config.maxArguments maxSlots)
        [.number (.int 1), .number (.int 2)] ∧
      ((adder.step (Workbench.host {}) (.declare "addition" ⟨[], .word⟩)).engine.bridge.invoke (Workbench.host {})
        "addition" [.number (.int 1), .number (.int 2)] adder.world).1 = .ok 3 :=
  ⟨⟨_, rfl⟩, .inl (by decide), rfl⟩

end Embedding

end SymbolBridge
