import SymbolBridge.Config.Basic
import SymbolBridge.Journal.Event
import SymbolBridge.Native.Memory
import SymbolBridge.Text.Utf8

/-!
# Arguments as words

Each argument fills one slot: nil is zero, booleans zero and one, numbers their integer part at the configured width,
strings the address of a copy made for the call, which an `Allocator` gives. Other values have no form in a word and
degrade to zero. Slots without an argument are zero.
-/

namespace SymbolBridge

/-- The words of a native call. -/
abbrev Slots := Vector Word maxSlots

/-- The word in a slot, counted from zero. -/
def Slots.word (slots : Slots) (i : Nat) : Word := slots[i]?.getD 0

/-- A copy of a text for one call: its bytes and a zero after them. -/
structure StoredString where
  address : Word
  bytes : List UInt8
  deriving DecidableEq, Repr

/-- The copy of a text at an address: native code sees the text up to its first NUL. -/
def StoredString.ofText (address : Word) (text : String) : StoredString :=
  ⟨address, Text.utf8Bytes (Text.beforeNul text.toList) ++ [0]⟩

/-- The region of memory that holds a copy. -/
def StoredString.region (s : StoredString) : Region := ⟨s.address.toNat, s.bytes.toArray⟩

/-- The bytes that native code is given of an argument: those of a string up to its first NUL, and a zero. -/
def Value.copied? : Value → Option (List UInt8)
  | str s => some (Text.utf8Bytes (Text.beforeNul s.toList) ++ [0])
  | _ => none

/-- The bytes of a copy that never meet another one. -/
def copyRoom : Nat := 0x1000000000

/-- What gives the copies of the strings among some arguments their addresses, by slots. -/
structure Allocator where
  address : List Value → Nat → Word
  /-- As far as there is room for it, a copy lies apart from the copies made after it. -/
  apart : ∀ {args : List Value} {i j : Nat} {bytes later : List UInt8}, i < j → j < maxSlots →
    args[i]?.bind Value.copied? = some bytes → args[j]?.bind Value.copied? = some later →
    (address args i).toNat + min bytes.length copyRoom ≤ (address args j).toNat ∨
      (address args j).toNat + later.length ≤ (address args i).toNat

namespace Allocator

/-- Where the copies of `spaced` begin. -/
def spacedBase : Nat := 0x6a5f00000000

/-- The room for one copy after the other, whatever is copied. -/
def spacedAddress (slot : Nat) : Word := UInt64.ofNat (spacedBase + slot * copyRoom)

theorem toNat_spacedAddress {slot : Nat} (h : slot < maxSlots) :
    (spacedAddress slot).toNat = spacedBase + slot * copyRoom := by
  unfold maxSlots at h
  rw [spacedAddress, UInt64.toNat_ofNat_of_lt']
  unfold spacedBase copyRoom UInt64.size
  omega

/-- Gives each slot an address of its own, the same for every call. -/
def spaced : Allocator where
  address _ := spacedAddress
  apart {args i j bytes later} hij hj _ _ := by
    rw [toNat_spacedAddress hj, toNat_spacedAddress (Nat.lt_trans hij hj)]
    unfold copyRoom
    omega

end Allocator

/-- A word and the copy it points at, if it points at one. -/
structure Marshalled where
  word : Word
  string : Option StoredString := none
  deriving DecidableEq, Repr

namespace Value

/-- Whether a value has a form in a word. -/
def isMarshallable : Value → Bool
  | table _ | function _ | handle _ => false
  | _ => true

/-- The word of a value; a string is copied to an address. -/
def marshal (width : Width) (address : Word) : Value → Marshalled
  | bool b => ⟨if b then 1 else 0, none⟩
  | number n => ⟨width.narrow n.toInt64, none⟩
  | str s => ⟨address, some (.ofText address s)⟩
  | _ => ⟨0, none⟩

/-- What is logged of a value in a slot. -/
def marshalEvents (slot : Nat) (v : Value) : List Event :=
  (if v.isMarshallable then [] else [.unsupportedArgument v.typeName]) ++ [.argument slot v.typeName]

end Value

/-- The arguments of one call. -/
structure ArgumentVector where
  /-- The words of the arguments that are passed, in order. -/
  passed : List Marshalled
  deriving DecidableEq, Repr

namespace ArgumentVector

/-- The slots that arguments may fill under a limit. -/
def room (limit : Nat) : Nat := min limit maxSlots

/-- The arguments that are passed under a limit. -/
def kept (limit : Nat) (args : List Value) : List Value := args.take (room limit)

/-- The words of the arguments that are passed, with the copies where an allocator puts them. -/
def ofValues (width : Width) (limit : Nat) (args : List Value) (allocator : Allocator := .spaced) : ArgumentVector :=
  ⟨(kept limit args).mapIdx fun slot v => v.marshal width (allocator.address (kept limit args) slot)⟩

/-- The number of slots filled from arguments. -/
def length (a : ArgumentVector) : Nat := a.passed.length

def slots (a : ArgumentVector) : Slots := Vector.ofFn fun i => ((a.passed[i.val]?).map Marshalled.word).getD 0

def strings (a : ArgumentVector) : List StoredString := a.passed.filterMap Marshalled.string

/-- What is logged of the arguments of a call. -/
def events (limit : Nat) (args : List Value) : List Event :=
  (if room limit < args.length then [.extraArguments args.length (room limit)] else []) ++
    ((kept limit args).mapIdx fun slot v => v.marshalEvents slot).flatten

end ArgumentVector

end SymbolBridge
