import SymbolBridge.Bridge.Error
import SymbolBridge.Config.Basic
import SymbolBridge.Dictionary

/-!
# Signatures

A native function may be declared with the kinds of its parameters and of its result. A call may then pass fewer
arguments, which leaves zeros, but neither more nor values that a parameter does not accept.
-/

namespace SymbolBridge

structure Signature where
  params : List ParamKind
  returns : ReturnKind := .word
  deriving DecidableEq, Repr

namespace Signature

def arity (s : Signature) : Nat := s.params.length

/-- The first argument that its parameter does not accept; places count from `place`. -/
def firstFault (place : Nat) : List ParamKind → List Value → Option SignatureFault
  | k :: ks, v :: vs => if k.accepts v then firstFault (place + 1) ks vs else some (.unacceptable place v.typeName k)
  | _, _ => none

/-- What is wrong with some arguments. -/
def fault? (s : Signature) (args : List Value) : Option SignatureFault :=
  if s.arity < args.length then some (.tooManyArguments s.arity args.length) else firstFault 1 s.params args

/-- Whether some arguments suit a signature declared for a name. -/
def check (s : Signature) (name : String) (args : List Value) : Except BridgeError Unit :=
  match s.fault? args with
  | none => .ok ()
  | some fault => .error (.signatureMismatch name fault)

end Signature

/-- The signatures in force, by name. -/
structure Signatures where
  byName : Dictionary Signature := {}

namespace Signatures

def find? (ss : Signatures) (name : String) : Option Signature := ss.byName.find? name

/-- Puts a signature in force, if a call has the slots for it. -/
def declare (ss : Signatures) (name : String) (s : Signature) : Except BridgeError Signatures :=
  if maxSlots < s.arity then .error (.signatureMismatch name (.tooManyParameters s.arity maxSlots))
  else .ok ⟨ss.byName.insert name s⟩

end Signatures

end SymbolBridge
