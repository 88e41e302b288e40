import SymbolBridge.Proofs.Invoke.Signature
import SymbolBridge.Proofs.Invoke.Slots
import SymbolBridge.Proofs.Native.Effects
import SymbolBridge.Proofs.Symbol.Name
import SymbolBridge.Proofs.Symbol.Resolver

/-!
# Calling a function by its name

A call is refused, and then nothing but the log has changed, or exactly one native call is made
(`invoke_refused_or_called`). `Refused` gives the reasons in the order in which they count; `NativeCall.Prepared` says
what native code is given, and `NativeCall.Made` what becomes of the world. Both go by the symbol table and the allocator
as they stand in the state of the host where the call begins. Arguments for which a function without a signature has no
slot are as good as absent.
-/

namespace SymbolBridge.Bridge

variable {σ : Type}

/-! ## The ways a call can go -/

section

variable {b : Bridge σ} {host : Host σ} {raw : String} {args : List Value} {name : SymbolName} (w : World σ)

/-- The world when the name has been bounded, the arguments marshalled and the symbol looked up. -/
def lookedUp (b : Bridge σ) (raw : String) (args : List Value) (name : SymbolName) (w : World σ) : World σ :=
  ((w.logged (SymbolName.events b.config.maxNameLength raw)).logged
    (ArgumentVector.events b.config.maxArguments args)).logged ((b.symbols w.host).lookup b.config name .code).events

theorem sameButLog_lookedUp : w.SameButLog (b.lookedUp raw args name w) :=
  ((w.sameButLog_logged _).trans (World.sameButLog_logged _ _)).trans (World.sameButLog_logged _ _)

theorem invoke_of_nameless {e : BridgeError} (hn : SymbolName.ofText b.config.maxNameLength raw = .error e) :
    b.invoke host raw args w = (.error e, w.logged (SymbolName.events b.config.maxNameLength raw)) := by
  simp only [invoke, Bridge.name, Op.bind_run, Op.logAll_run, Op.ofExcept_run, hn]

theorem invoke_of_mismatch {f : SignatureFault} (hn : SymbolName.ofText b.config.maxNameLength raw = .ok name)
    (hf : b.signatureFault? name args = some f) : b.invoke host raw args w =
      (.error (.signatureMismatch name.text f), w.logged (SymbolName.events b.config.maxNameLength raw)) := by
  simp only [invoke, Bridge.name, Op.bind_run, Op.logAll_run, Op.ofExcept_run, hn, hf, Op.throw_run]

theorem invoke_of_unresolved {e : BridgeError} (hn : SymbolName.ofText b.config.maxNameLength raw = .ok name)
    (hf : b.signatureFault? name args = none) (hr : (b.symbols w.host).resolve b.config name .code = .error e) :
    b.invoke host raw args w = (.error e, b.lookedUp raw args name w) := by
  simp only [invoke, Bridge.name, resolve, Op.bind_run, Op.logAll_run, Op.look_run, Op.ofExcept_run, hn, hf,
    World.host_logged, hr]
  rfl

/-- The words and copies for the arguments of a call, where an allocator puts them. -/
def arguments (b : Bridge σ) (allocator : Allocator) (args : List Value) : ArgumentVector :=
  .ofValues b.config.numberWidth b.config.maxArguments args allocator

/-- What the native function gives back: a word, memory and the state of the host. -/
def nativeResult (b : Bridge σ) (host : Host σ) (address : Word) (args : List Value) (w : World σ) : Word × Memory × σ :=
  let arguments := b.arguments (host.allocator w.host) args
  host.call address arguments.slots { w.memory with copies := arguments.copies } w.host

theorem invoke_of_resolved {found : ResolvedSymbol} (hn : SymbolName.ofText b.config.maxNameLength raw = .ok name)
    (hf : b.signatureFault? name args = none) (hr : (b.symbols w.host).resolve b.config name .code = .ok found) :
    b.invoke host raw args w =
      (.ok ((b.returnKind name).interpret (b.nativeResult host found.entry.address args w).1),
        { memory := { (b.nativeResult host found.entry.address args w).2.1 with copies := [] }
          host := (b.nativeResult host found.entry.address args w).2.2
          journal := (((b.lookedUp raw args name w).logged
            [.invoking found.spelling.text (b.arguments (host.allocator w.host) args).length]).journal).push
              (.called found.entry.address (b.arguments (host.allocator w.host) args).slots) }) := by
  simp only [invoke, Bridge.name, resolve, Op.bind_run, Op.logAll_run, Op.look_run, Op.ofExcept_run, hn, hf,
    World.host_logged, hr, Op.pure_run, Op.log_run, Op.callNative]
  rfl

end

/-! ## What holds of every call -/

/-- The first reason that applies why a call is refused, with the symbol table as it stands in a state. -/
inductive Refused (b : Bridge σ) (state : σ) (raw : String) (args : List Value) : BridgeError → Prop
  | invalidName : SymbolName.keep b.config.maxNameLength raw = "" → Refused b state raw args .invalidName
  | signatureMismatch {name : SymbolName} {f : SignatureFault} :
      SymbolName.ofText b.config.maxNameLength raw = .ok name → b.Mismatched name args f →
      Refused b state raw args (.signatureMismatch name.text f)
  | functionNotFound {name : SymbolName} {last : Spelling} : SymbolName.ofText b.config.maxNameLength raw = .ok name →
      (∀ f, ¬ b.Mismatched name args f) → (∀ s ∈ b.config.spellings name, (b.symbols state).Misses .code s) →
      (b.config.spellings name).getLast? = some last → Refused b state raw args (.functionNotFound last.text)

/-- What native code is called with. -/
structure NativeCall where
  name : SymbolName
  target : ResolvedSymbol
  slots : Slots
  copies : List Region

namespace NativeCall

/-- A call is ready for a name and arguments, in a state: the name is the bounded one and resolves, its signature does
not object, and the slots hold the arguments that there is room for, each string with a copy of its own, and zeros after
them. -/
structure Prepared (c : NativeCall) (b : Bridge σ) (state : σ) (raw : String) (args : List Value) : Prop where
  bounded : SymbolName.ofText b.config.maxNameLength raw = .ok c.name
  matched : ∀ f, ¬ b.Mismatched c.name args f
  resolved : (b.symbols state).resolve b.config c.name .code = .ok c.target
  filled : ∀ i v, i < min b.config.maxArguments maxSlots → args[i]? = some v →
    ArgumentVector.Fills b.config.numberWidth c.copies (c.slots.word i) v
  blank : ∀ i, min args.length (min b.config.maxArguments maxSlots) ≤ i → c.slots.word i = 0
  copied : c.copies.map (·.bytes.toList) =
    (args.take (min b.config.maxArguments maxSlots)).filterMap Value.copied?
  own : (c.copies.map Region.base).Nodup
  /-- Native code finds each copy in memory, unless a copy before it is longer than the room kept for it. -/
  readable : ∀ (m : Memory) (i : Nat) (v : Value) (bytes : List UInt8), i < min b.config.maxArguments maxSlots →
    args[i]? = some v → v.copied? = some bytes →
    (∀ j < i, ∀ u bs, args[j]? = some u → u.copied? = some bs → bs.length ≤ copyRoom) →
    ∀ k byte, bytes[k]? = some byte →
      ({ m with copies := c.copies } : Memory).load? ((c.slots.word i).toNat + k) = some byte

/-- From `w` to `w'` the call has been made once: native code returned `word`, and memory and the host are as it left
them. -/
structure Made (c : NativeCall) (host : Host σ) (w : World σ) (word : Word) (w' : World σ) : Prop where
  word_eq : word = (host.call c.target.entry.address c.slots { w.memory with copies := c.copies } w.host).1
  memory : w'.memory =
    { (host.call c.target.entry.address c.slots { w.memory with copies := c.copies } w.host).2.1 with copies := [] }
  host : w'.host = (host.call c.target.entry.address c.slots { w.memory with copies := c.copies } w.host).2.2
  effects : w'.effects = w.effects ++ [.called c.target.entry.address c.slots]

end NativeCall

variable {b : Bridge σ} {raw : String} {args : List Value} {name : SymbolName}

theorem prepared_arguments {state : σ} {found : ResolvedSymbol} (allocator : Allocator)
    (hn : SymbolName.ofText b.config.maxNameLength raw = .ok name) (hf : b.signatureFault? name args = none)
    (hr : (b.symbols state).resolve b.config name .code = .ok found) :
    NativeCall.Prepared ⟨name, found, (b.arguments allocator args).slots, (b.arguments allocator args).copies⟩ b state raw
      args where
  bounded := hn
  matched := signatureFault?_eq_none_iff.1 hf
  resolved := hr
  filled _ _ hi hv := ArgumentVector.fills_word hi hv
  blank i hi := by
    rw [arguments, ArgumentVector.word_slots]
    split
    · rename_i h
      have hlen : args.length ≤ i := by unfold ArgumentVector.room at h; omega
      rw [List.getElem?_eq_none hlen]; rfl
    · rfl
  copied := ArgumentVector.bytes_copies _ _ _ _
  own := ArgumentVector.base_nodup _ _ _ _
  readable _ _ _ _ hi hv hb hshort _ _ hk := ArgumentVector.load?_copy hi hv hb hshort hk

/-- A call that goes through is made once. -/
theorem made_arguments (host : Host σ) (w : World σ) {found : ResolvedSymbol}
    (hn : SymbolName.ofText b.config.maxNameLength raw = .ok name) (hf : b.signatureFault? name args = none)
    (hr : (b.symbols w.host).resolve b.config name .code = .ok found) :
    NativeCall.Made ⟨name, found, (b.arguments (host.allocator w.host) args).slots,
        (b.arguments (host.allocator w.host) args).copies⟩ host w
      (b.nativeResult host found.entry.address args w).1 (b.invoke host raw args w).2 where
  word_eq := rfl
  memory := by rw [invoke_of_resolved w hn hf hr]; rfl
  host := by rw [invoke_of_resolved w hn hf hr]; rfl
  effects := by
    have hlog : ((b.lookedUp raw args name w).logged
        [.invoking found.spelling.text (b.arguments (host.allocator w.host) args).length]).effects = w.effects :=
      ((sameButLog_lookedUp w).trans (World.sameButLog_logged _ _)).effects
    rw [invoke_of_resolved w hn hf hr, ← hlog]
    simp [World.effects, Action.isLogged]

/-- Appended arguments that get no slot change nothing about what is passed. -/
theorem arguments_append (allocator : Allocator) (hroom : ArgumentVector.room b.config.maxArguments ≤ args.length)
    (extra : List Value) : b.arguments allocator (args ++ extra) = b.arguments allocator args := by
  rw [arguments, arguments, ArgumentVector.ofValues, ArgumentVector.kept, List.take_append_of_le_length hroom]
  rfl

theorem refused_or_called (b : Bridge σ) (host : Host σ) (raw : String) (args : List Value) (w : World σ) :
    (∃ e, b.Refused w.host raw args e ∧ (b.invoke host raw args w).1 = .error e ∧
        w.SameButLog (b.invoke host raw args w).2) ∨
      ∃ c : NativeCall, c.Prepared b w.host raw args ∧ ∃ word n, c.Made host w word (b.invoke host raw args w).2 ∧
        (b.invoke host raw args w).1 = .ok n ∧
        n.toInt = (((b.signatures.find? c.name.text).map Signature.returns).getD .word).value word := by
  cases hn : SymbolName.ofText b.config.maxNameLength raw with
  | error e =>
    obtain ⟨hk, rfl⟩ := SymbolName.ofText_eq_error_iff.1 hn
    rw [invoke_of_nameless w hn]
    exact .inl ⟨_, .invalidName hk, rfl, w.sameButLog_logged _⟩
  | ok name =>
    cases hf : b.signatureFault? name args with
    | some f =>
      rw [invoke_of_mismatch w hn hf]
      exact .inl ⟨_, .signatureMismatch hn (signatureFault?_eq_some_iff.1 hf), rfl, w.sameButLog_logged _⟩
    | none =>
      have hm := signatureFault?_eq_none_iff.1 hf
      cases hr : (b.symbols w.host).resolve b.config name .code with
      | error e =>
        obtain ⟨hmiss, last, hlast, rfl⟩ := SymbolTable.resolve_eq_error_iff.1 hr
        rw [invoke_of_unresolved w hn hf hr]
        exact .inl ⟨_, .functionNotFound hn hm hmiss hlast, rfl, sameButLog_lookedUp w⟩
      | ok found =>
        refine .inr ⟨_, prepared_arguments _ hn hf hr, _, _, made_arguments host w hn hf hr, ?_, toInt_interpret _ _⟩
        rw [invoke_of_resolved w hn hf hr]
        rfl

/-- A call that succeeds has been made, with the arguments prepared for it. -/
theorem called_of_invoke {host : Host σ} {w w' : World σ} {n : Int64}
    (hn : SymbolName.ofText b.config.maxNameLength raw = .ok name) (h : b.invoke host raw args w = (.ok n, w')) :
    ∃ (c : NativeCall) (word : Word), c.name = name ∧ c.Prepared b w.host raw args ∧ c.Made host w word w' ∧
      n.toInt = (((b.signatures.find? name.text).map Signature.returns).getD .word).value word := by
  obtain ⟨e, -, he, -⟩ | ⟨c, hc, word, m, hmade, hok, hvalue⟩ := refused_or_called b host raw args w
  · rw [h] at he
    cases he
  · obtain rfl : name = c.name := Except.ok.inj (hn.symm.trans hc.bounded)
    rw [h] at hmade hok
    obtain rfl : n = m := Except.ok.inj hok
    exact ⟨c, word, rfl, hc, hmade, hvalue⟩

/-- A function without a signature is called alike with more arguments than there are slots for. -/
theorem invoke_append {host : Host σ} (w : World σ) (extra : List Value)
    (hroom : ArgumentVector.room b.config.maxArguments ≤ args.length)
    (hnone : ∀ name, SymbolName.ofText b.config.maxNameLength raw = .ok name → b.signatures.find? name.text = none) :
    (b.invoke host raw (args ++ extra) w).1 = (b.invoke host raw args w).1 ∧
      (b.invoke host raw args w).2.SameButLog (b.invoke host raw (args ++ extra) w).2 := by
  cases hn : SymbolName.ofText b.config.maxNameLength raw with
  | error e =>
    rw [invoke_of_nameless w hn, invoke_of_nameless w hn]
    exact ⟨rfl, rfl, rfl, rfl⟩
  | ok name =>
    have hf : ∀ as, b.signatureFault? name as = none := fun as => by rw [signatureFault?, hnone name hn]
    cases hr : (b.symbols w.host).resolve b.config name .code with
    | error e =>
      rw [invoke_of_unresolved w hn (hf _) hr, invoke_of_unresolved w hn (hf _) hr]
      exact ⟨rfl, (sameButLog_lookedUp w).symm.trans (sameButLog_lookedUp w)⟩
    | ok found =>
      have he := arguments_append (host.allocator w.host) hroom extra
      have hm := made_arguments host w hn (hf args) hr
      have hm' := made_arguments host w hn (hf (args ++ extra)) hr
      rw [he] at hm'
      refine ⟨?_, hm'.memory.trans hm.memory.symm, hm'.host.trans hm.host.symm, hm'.effects.trans hm.effects.symm⟩
      rw [invoke_of_resolved w hn (hf _) hr, invoke_of_resolved w hn (hf _) hr, nativeResult, nativeResult, he]

/-- **Every call is refused for the first reason that applies, or is one native call.** A refused call changes nothing
but the log. Otherwise native code is called once, with the arguments in their slots, and the result is its word read
by the declared kind, or as a whole word if none is declared. Without a signature, arguments after those that there
are slots for change neither the result nor what is done. -/
theorem invoke_refused_or_called (b : Bridge σ) (host : Host σ) (raw : String) (args : List Value) (w : World σ) :
    ((∃ e, b.Refused w.host raw args e ∧ (b.invoke host raw args w).1 = .error e ∧
        w.SameButLog (b.invoke host raw args w).2) ∨
      ∃ c : NativeCall, c.Prepared b w.host raw args ∧ ∃ word n, c.Made host w word (b.invoke host raw args w).2 ∧
        (b.invoke host raw args w).1 = .ok n ∧
        n.toInt = (((b.signatures.find? c.name.text).map Signature.returns).getD .word).value word) ∧
    ∀ extra, min b.config.maxArguments maxSlots ≤ args.length →
      (∀ name, SymbolName.ofText b.config.maxNameLength raw = .ok name → b.signatures.find? name.text = none) →
      (b.invoke host raw (args ++ extra) w).1 = (b.invoke host raw args w).1 ∧
        (b.invoke host raw args w).2.SameButLog (b.invoke host raw (args ++ extra) w).2 := by
  exact ⟨refused_or_called b host raw args w, fun extra => invoke_append w extra⟩

end SymbolBridge.Bridge
