import SymbolBridge.Proofs.Bridge.Invoke
import SymbolBridge.Workbench.Host

/-!
# What a declaration guarantees

`ParamKind.Takes` lists the values that a parameter of a kind takes. `Signature.check` rejects exactly the arguments that
are too many or that a parameter does not take (`Signature.check_of_unfit`, `Signature.check_of_fit`), and a call that is
made behind a signature keeps every argument: `NativeCall.Keeps` says what is in the slots of such a call.
-/

namespace SymbolBridge

/-! ## Kinds of parameters -/

namespace ParamKind

inductive Takes : ParamKind → Value → Prop
  | any (v : Value) : Takes .any v
  | nil (k : ParamKind) : Takes k .nil
  | intOfBool (b : Bool) : Takes .int (.bool b)
  | intOfNumber (n : Number) : Takes .int (.number n)
  | bool (b : Bool) : Takes .bool (.bool b)
  | str (s : String) : Takes .str (.str s)
  | pointerOfNumber (n : Number) : Takes .pointer (.number n)
  | pointerOfStr (s : String) : Takes .pointer (.str s)

theorem accepts_iff_takes {k : ParamKind} {v : Value} : k.accepts v = true ↔ k.Takes v := by
  constructor
  · intro h
    cases k <;> cases v <;> first | constructor | cases h
  · intro h
    cases h with
    | nil k => cases k <;> rfl
    | _ => rfl

/-- A value without a form in a word is taken by a parameter of any value only. -/
theorem Takes.eq_any {k : ParamKind} {v : Value} (h : k.Takes v) (hv : v.isMarshallable = false) : k = .any := by
  cases h with
  | any => rfl
  | _ => cases hv

end ParamKind

namespace ArgumentVector

variable {width : Width} {copies : List Region} {w : Word} {v : Value}

theorem Fills.of_bool (h : Fills width copies w v) (hv : ParamKind.bool.Takes v) : w = 0 ∨ w = 1 := by
  cases hv with
  | nil => exact .inl h
  | bool b =>
    have hw : w.toNat = b.toNat := h
    cases b with
    | false => exact .inl (UInt64.toNat_inj.1 hw)
    | true => exact .inr (UInt64.toNat_inj.1 hw)

theorem Fills.of_unmarshallable (h : Fills width copies w v) (hv : v.isMarshallable = false) : w = 0 := by
  cases v with
  | table _ | function _ | handle _ => exact h
  | _ => cases hv

end ArgumentVector

/-! ## The check -/

namespace Signature

variable {s : Signature} {args : List Value}

/-- Arguments are too many for a signature, or one of them is not taken by its parameter. -/
def Unfit (s : Signature) (args : List Value) : Prop :=
  s.arity < args.length ∨
    ∃ (i : Nat) (k : ParamKind) (v : Value), s.params[i]? = some k ∧ args[i]? = some v ∧ ¬ k.Takes v

theorem accepts_of_fit (h : ¬ s.Unfit args) : Accepts s.params args := by
  intro i k v hk hv
  rw [ParamKind.accepts_iff_takes]
  by_contra hno
  exact h (.inr ⟨i, k, v, hk, hv, hno⟩)

theorem fault?_eq_none_iff : s.fault? args = none ↔ ¬ s.Unfit args := by
  constructor
  · rintro hnone (hlong | ⟨i, k, v, hk, hv, hno⟩)
    · rw [fault?, if_pos hlong] at hnone
      cases hnone
    · rw [fault?] at hnone
      split at hnone
      · cases hnone
      · exact hno (ParamKind.accepts_iff_takes.1 (firstFault_eq_none_iff.1 hnone i k v hk hv))
  · intro h
    rw [fault?, if_neg fun hlong => h (.inl hlong)]
    exact firstFault_eq_none_iff.2 (accepts_of_fit h)

theorem check_of_fit (name : String) (h : ¬ s.Unfit args) : s.check name args = .ok () := by
  rw [check, fault?_eq_none_iff.2 h]

theorem check_of_unfit (name : String) (h : s.Unfit args) :
    ∃ fault, s.check name args = .error (.signatureMismatch name fault) := by
  cases hf : s.fault? args with
  | none => exact absurd h (fault?_eq_none_iff.1 hf)
  | some fault => exact ⟨fault, by rw [check, hf]⟩

end Signature

namespace Bridge

variable {σ : Type} {b : Bridge σ} {raw : String} {args : List Value} {s : Signature}

/-- Arguments with which a signature is not mismatched fit it, and there are slots for them. -/
theorem fit_of_matched {name : SymbolName} (hs : b.signatures.find? name.text = some s)
    (h : ∀ f, ¬ b.Mismatched name args f) :
    ¬ s.Unfit args ∧ args.length ≤ min b.config.maxArguments maxSlots := by
  have hnone := signatureFault?_eq_none_iff.2 h
  simp only [signatureFault?, hs] at hnone
  split at hnone
  · cases hnone
  · rename_i hf
    refine ⟨Signature.fault?_eq_none_iff.1 hf, ?_⟩
    by_contra hlong
    have hroom : ArgumentVector.room b.config.maxArguments < args.length := Nat.lt_of_not_le hlong
    rw [if_pos hroom] at hnone
    cases hnone

namespace NativeCall

/-- A call behind a signature keeps its arguments: there are parameters and slots for all of them, each is in its slot
with zeros after the last, and no slot holds what the kind of its parameter does not allow. A value without a form in a
word is passed as zero, and stands for a parameter of any value. -/
structure Keeps (c : NativeCall) (s : Signature) (config : Config) (args : List Value) : Prop where
  fits : args.length ≤ min s.arity (min config.maxArguments maxSlots)
  placed : ∀ (i : Nat) (v : Value), args[i]? = some v →
    ArgumentVector.Fills config.numberWidth c.copies (c.slots.word i) v
  blank : ∀ i : Nat, args.length ≤ i → c.slots.word i = 0
  bool : ∀ i : Nat, s.params[i]? = some .bool → c.slots.word i = 0 ∨ c.slots.word i = 1
  str : ∀ i : Nat, s.params[i]? = some .str → c.slots.word i = 0 ∨ ∃ text, args[i]? = some (.str text) ∧
    ∃ r ∈ c.copies, r.base = (c.slots.word i).toNat ∧
      r.bytes.toList = Text.utf8Bytes (Text.beforeNul text.toList) ++ [0]
  int : ∀ (i : Nat) (v : Value), s.params[i]? = some .int → args[i]? = some v →
    v = .nil ∨ (∃ b, v = .bool b) ∨ ∃ n, v = .number n
  pointer : ∀ (i : Nat) (v : Value), s.params[i]? = some .pointer → args[i]? = some v →
    v = .nil ∨ (∃ n, v = .number n) ∨ ∃ text, v = .str text
  degraded : ∀ (i : Nat) (v : Value), args[i]? = some v → v.isMarshallable = false →
    s.params[i]? = some .any ∧ c.slots.word i = 0

theorem Prepared.keeps {c : NativeCall} {state : σ} (hc : c.Prepared b state raw args)
    (hs : b.signatures.find? c.name.text = some s) : c.Keeps s b.config args := by
  obtain ⟨hfit, hroom⟩ := fit_of_matched hs hc.matched
  have harity : args.length ≤ s.arity := Nat.le_of_not_lt fun hlong => hfit (.inl hlong)
  have hplaced : ∀ i v, args[i]? = some v →
      ArgumentVector.Fills b.config.numberWidth c.copies (c.slots.word i) v := by
    intro i v hv
    have hi : i < args.length := (List.getElem?_eq_some_iff.1 hv).1
    exact hc.filled i v (by omega) hv
  have hblank : ∀ i, args.length ≤ i → c.slots.word i = 0 := fun i hi => hc.blank i (by omega)
  have htakes : ∀ (i : Nat) (k : ParamKind) (v : Value), s.params[i]? = some k → args[i]? = some v → k.Takes v :=
    fun i k v hk hv => ParamKind.accepts_iff_takes.1 (Signature.accepts_of_fit hfit i k v hk hv)
  constructor
  case fits => exact Nat.le_min.2 ⟨harity, hroom⟩
  case placed => exact hplaced
  case blank => exact hblank
  case bool =>
    intro i hk
    cases hv : args[i]? with
    | none => exact .inl (hblank i (List.getElem?_eq_none_iff.1 hv))
    | some v => exact (hplaced i v hv).of_bool (htakes i _ v hk hv)
  case str =>
    intro i hk
    cases hv : args[i]? with
    | none => exact .inl (hblank i (List.getElem?_eq_none_iff.1 hv))
    | some v =>
      have hfills := hplaced i v hv
      cases htakes i _ v hk hv with
      | nil => exact .inl hfills
      | str text => exact .inr ⟨text, rfl, hfills⟩
  case int =>
    intro i v hk hv
    cases htakes i _ v hk hv with
    | nil => exact .inl rfl
    | intOfBool b => exact .inr (.inl ⟨b, rfl⟩)
    | intOfNumber n => exact .inr (.inr ⟨n, rfl⟩)
  case pointer =>
    intro i v hk hv
    cases htakes i _ v hk hv with
    | nil => exact .inl rfl
    | pointerOfNumber n => exact .inr (.inl ⟨n, rfl⟩)
    | pointerOfStr text => exact .inr (.inr ⟨text, rfl⟩)
  case degraded =>
    intro i v hv hno
    have hi : i < args.length := (List.getElem?_eq_some_iff.1 hv).1
    obtain ⟨k, hk⟩ : ∃ k, s.params[i]? = some k := ⟨_, List.getElem?_eq_getElem (Nat.lt_of_lt_of_le hi harity)⟩
    refine ⟨?_, (hplaced i v hv).of_unmarshallable hno⟩
    rw [hk, (htakes i k v hk hv).eq_any hno]

end NativeCall

/-- **Behind a declaration nothing is lost or degraded.** A call that succeeds under the signature of its name is one
native call with the arguments prepared for it, and it keeps them all as the signature declares; what it returns is read
as the signature says. Conversely, arguments are rejected by a signature exactly if they are too many or one of them is
not taken by its parameter. Every signature that is accepted is the one in force for its name. -/
theorem declared_call_keeps_arguments (host : Host σ) {name : SymbolName} {w w' : World σ} {n : Int64}
    (hn : SymbolName.ofText b.config.maxNameLength raw = .ok name) (hs : b.signatures.find? name.text = some s)
    (h : b.invoke host raw args w = (.ok n, w')) :
    (∃ (c : NativeCall) (word : Word), c.Prepared b w.host raw args ∧ c.Made host w word w' ∧
      n.toInt = s.returns.value word ∧ c.Keeps s b.config args) ∧
    (∀ (s : Signature) (called : String) (args : List Value),
      (s.Unfit args → ∃ fault, s.check called args = .error (.signatureMismatch called fault)) ∧
      (¬ s.Unfit args → s.check called args = .ok ())) ∧
    ∀ (b b' : Bridge σ) (declared : String) (s : Signature), b.declare declared s = .ok b' →
      b'.signatures.find? declared = some s := by
  refine ⟨?_, fun s called args => ⟨Signature.check_of_unfit called, Signature.check_of_fit called⟩, ?_⟩
  · obtain ⟨c, word, rfl, hc, hmade, hvalue⟩ := called_of_invoke hn h
    rw [hs] at hvalue
    exact ⟨c, word, hc, hmade, hvalue, hc.keeps hs⟩
  · intro b b' declared s hdeclared
    rw [find?_of_declare hdeclared, if_pos rfl]

/-- The function of the arena that records all of its slots, in a bridge with four of them. -/
def recorder : Bridge Workbench.State where
  symbols _ := (({} : Registry).define "record" Workbench.Function.record.address .code).table
  config := { maxArguments := 4 }

/-- A number, a text and a function fit their parameters, and the last parameter goes without an argument. -/
theorem recorder_keeps_arguments : ∃ b, recorder.declare "record" ⟨[.int, .str, .any, .bool], .word⟩ = .ok b ∧
    ∃ c : NativeCall, c.Keeps ⟨[.int, .str, .any, .bool], .word⟩ b.config
      [.number (.int 7), .str "a", .function "print"] := by
  obtain ⟨b, hdeclared⟩ : ∃ b, recorder.declare "record" ⟨[.int, .str, .any, .bool], .word⟩ = .ok b := ⟨_, rfl⟩
  have hb := (declare_eq_ok hdeclared).2
  have hn : SymbolName.ofText b.config.maxNameLength "record" = .ok ⟨"record"⟩ := by
    rw [hb]
    rfl
  have hs : b.signatures.find? "record" = some ⟨[.int, .str, .any, .bool], .word⟩ := by
    rw [hb]
    rfl
  have hrun : ∃ w', b.invoke (Workbench.host {}) "record" [.number (.int 7), .str "a", .function "print"]
      { memory := {}, host := {} } = (.ok 7, w') := by
    rw [hb]
    exact ⟨_, rfl⟩
  obtain ⟨w', hrun⟩ := hrun
  obtain ⟨⟨c, -, -, -, -, hkeeps⟩, -⟩ := declared_call_keeps_arguments (Workbench.host {}) hn hs hrun
  exact ⟨b, hdeclared, c, hkeeps⟩

end Bridge

end SymbolBridge
