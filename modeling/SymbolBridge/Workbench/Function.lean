import SymbolBridge.Invoke.Marshal
import SymbolBridge.Native.Memory

/-!
# Functions to call

Ten native functions over an arena of memory. They take their arguments from slots, ignore the rest, and tell the
address of a copied string from a number.
-/

namespace SymbolBridge.Workbench

/-! ## The arena -/

def arenaBase : Nat := 0x200000000000

def arenaSize : Nat := 4096

/-- Whether `length` bytes from an address on lie in the arena. -/
def inArena (address : Word) (length : Int) : Bool :=
  0 ≤ length && arenaBase ≤ address.toNat && (address.toNat : Int) + length ≤ arenaBase + arenaSize

/-- Whether a word is the address of a copied string. -/
def isString (m : Memory) (w : Word) : Bool := m.copies.any (·.base == w.toNat)

/-- A word as it is recorded: the text it points at, if it points at a copied string. -/
inductive Slot where
  | word (n : Int64)
  | text (s : String)
  deriving DecidableEq, Repr

def slot (m : Memory) (w : Word) : Slot :=
  if isString m w then .text ((String.fromUTF8? ⟨(m.text w.toNat).toArray⟩).getD "") else .word w.toInt64

/-! ## Functions -/

inductive Function where
  | add
  | identity
  | fourth
  | record
  | length
  | copy
  | fill
  | tick
  | base
  | answer
  deriving DecidableEq, Repr

namespace Function

def all : List Function := [add, identity, fourth, record, length, copy, fill, tick, base, answer]

def name : Function → String
  | add => "add"
  | identity => "identity"
  | fourth => "fourth"
  | record => "record"
  | length => "length"
  | copy => "copy"
  | fill => "fill"
  | tick => "tick"
  | base => "base"
  | answer => "answer"

def ofName? (name : String) : Option Function := all.find? (·.name == name)

def address (f : Function) : Word := UInt64.ofNat (0x10000000 + 64 * all.idxOf f)

def ofAddress? (address : Word) : Option Function := all.find? (·.address == address)

/-- The slots that a function takes. -/
def arguments (f : Function) (slots : Slots) : List Word :=
  match f with
  | add => slots.toList.take 2
  | identity | length => slots.toList.take 1
  | fourth => [Slots.word slots 3]
  | record => slots.toList
  | copy | fill => slots.toList.take 3
  | tick | base | answer => []

end Function

/-- The word for a call that a function refuses. -/
def refused : Word := 0 - 1

/-- The word for a string where a number is due. -/
def notNumber : Word := 0 - 2

/-- The sum of words, as a word. -/
def sum (ws : List Word) : Word := ws.foldl UInt64.add 0

/-- The bytes up to a zero or the end of the arena. -/
def textLength (m : Memory) (w : Word) : Word :=
  if isString m w then UInt64.ofNat (m.text w.toNat).length
  else if inArena w 1 then UInt64.ofNat (m.textBytes w.toNat (arenaBase + arenaSize - w.toNat)).length
  else refused

/-- Copies bytes into the arena, from it or from a string with its terminator. -/
def copyBytes (m : Memory) (target source length : Word) : Word × Memory :=
  let n := length.toInt64.toInt
  let bytes : Option (List UInt8) :=
    if isString m source then
      let text := m.text source.toNat ++ [0]
      if n < 0 then none else some (text.take n.toNat)
    else if inArena source n then m.loadAll? source.toNat n.toNat
    else none
  match bytes with
  | some bytes =>
    if inArena target bytes.length then (UInt64.ofNat bytes.length, m.storeAll target.toNat bytes) else (refused, m)
  | none => (refused, m)

/-- Fills bytes of the arena. -/
def fillBytes (m : Memory) (target byte length : Word) : Word × Memory :=
  let n := length.toInt64.toInt
  if inArena target n then (length, m.storeAll target.toNat (List.replicate n.toNat byte.toUInt8)) else (refused, m)

/-- Runs a function after `ticks` calls of `tick`: the returned word, memory, and the calls of `tick` so far. -/
def Function.run (f : Function) (slots : Slots) (m : Memory) (ticks : Nat) : Word × Memory × Nat :=
  let number (w : Word) : Word := if isString m w then notNumber else w
  let a := Slots.word slots 0
  let b := Slots.word slots 1
  let c := Slots.word slots 2
  match f with
  | .add => (if isString m a || isString m b then notNumber else a + b, m, ticks)
  | .identity => (number a, m, ticks)
  | .fourth => (number (Slots.word slots 3), m, ticks)
  | .record => (sum (slots.toList.filter (!isString m ·)), m, ticks)
  | .length => (textLength m a, m, ticks)
  | .copy =>
    let (w, m) := copyBytes m a b c
    (w, m, ticks)
  | .fill =>
    let (w, m) := fillBytes m a b c
    (w, m, ticks)
  | .tick => (UInt64.ofNat (ticks + 1), m, ticks + 1)
  | .base => (UInt64.ofNat arenaBase, m, ticks)
  | .answer => (42, m, ticks)

end SymbolBridge.Workbench
