import SymbolBridge.Native.Memory
import SymbolBridge.Invoke.Marshal
import SymbolBridge.Symbol.Table

/-!
# The running program's own symbols

Functions of the standard C library, which work on words and on memory, and variables of 32 bits. A table finds them
by name and knows code from data.
-/

namespace SymbolBridge

/-! ## Symbols -/

inductive LibraryFunction where
  | strlen
  | labs
  | atol
  | toupper
  | tolower
  | memcpy
  | memset
  | malloc
  | free
  deriving DecidableEq, Repr

namespace LibraryFunction

def all : List LibraryFunction := [strlen, labs, atol, toupper, tolower, memcpy, memset, malloc, free]

def name : LibraryFunction → String
  | strlen => "strlen"
  | labs => "labs"
  | atol => "atol"
  | toupper => "toupper"
  | tolower => "tolower"
  | memcpy => "memcpy"
  | memset => "memset"
  | malloc => "malloc"
  | free => "free"

def address (f : LibraryFunction) : Word := UInt64.ofNat (0x7e0000001000 + 64 * all.idxOf f)

end LibraryFunction

/-- A variable of 32 bits with its first value. -/
structure LibraryVariable where
  name : String
  value : Nat
  address : Word
  deriving DecidableEq, Repr

namespace LibraryVariable

def all : List LibraryVariable :=
  [⟨"optind", 1, 0x7e0000100000⟩, ⟨"opterr", 1, 0x7e0000100100⟩, ⟨"optopt", 63, 0x7e0000100200⟩,
    ⟨"error_message_count", 0, 0x7e0000100300⟩, ⟨"error_one_per_line", 0, 0x7e0000100400⟩]

def region (v : LibraryVariable) : Region := ⟨v.address.toNat, (Memory.littleEndian v.value 4).toArray⟩

end LibraryVariable

namespace Library

/-- All symbols with their entries. -/
def symbols : List (String × SymbolEntry) :=
  LibraryFunction.all.map (fun f => (f.name, ⟨f.address, some .code⟩)) ++
    LibraryVariable.all.map fun v => (v.name, ⟨v.address, some .data⟩)

/-- The table of the running program logs what it finds. -/
def table : SymbolTable where
  find name :=
    match symbols.lookup name with
    | some entry => ⟨some entry, [⟨name, entry.kind⟩]⟩
    | none => ⟨none, []⟩

/-- The memory of the variables when the program starts. -/
def regions : List Region := LibraryVariable.all.map LibraryVariable.region

/-! ## Functions -/

/-- The white space of the C locale. -/
def isSpace (b : UInt8) : Bool := b = 32 || (9 ≤ b && b ≤ 13)

def isDigit (b : UInt8) : Bool := 48 ≤ b && b ≤ 57

/-- The integer that a text starts with: white space, a sign or none, and digits. What lies outside 64 bits goes to the
nearest end. -/
def readLong (text : List UInt8) : Int64 :=
  let text := text.dropWhile isSpace
  let (negative, digits) := match text with
    | 45 :: rest => (true, rest)
    | 43 :: rest => (false, rest)
    | rest => (false, rest)
  let n : Nat := (digits.takeWhile isDigit).foldl (fun n b => 10 * n + (b.toNat - 48)) 0
  let n : Int := if negative then -(n : Int) else n
  clampToInt64 n

/-- A character in another case. The argument counts as 32 bits with a sign; below zero it is a character of 8 bits or,
at the end of input, stays what it is. -/
def changeCase (first last : Int) (shift : Int) (w : Word) : Word :=
  let c := w.toUInt32.toInt32.toInt
  let result :=
    if first ≤ c ∧ c ≤ last then c + shift
    else if -128 ≤ c ∧ c < -1 then c + 256
    else c
  (Int32.ofInt result).toUInt32.toUInt64

/-- The room between two blocks of the heap. -/
def heapAlignment : Nat := 16

def heapBase : Nat := 0x5c0000000000

/-- The memory there is. The heap refuses a request for more. -/
def heapLimit : Nat := 0x1000000000

/-- The bytes of a block that can hold something. -/
def heapBlockLimit : Nat := 0x1000000

/-- The outcome of a call: the returned word, memory, and the bytes of the heap in use. -/
structure Outcome where
  word : Word
  memory : Memory
  heap : Nat

/-- Runs a function on its slots. -/
def run (f : LibraryFunction) (slots : Slots) (m : Memory) (heap : Nat) : Outcome :=
  let a := Slots.word slots 0
  let b := Slots.word slots 1
  let c := Slots.word slots 2
  match f with
  | .strlen => ⟨UInt64.ofNat (m.text a.toNat).length, m, heap⟩
  | .labs => ⟨if a.toInt64 < 0 then 0 - a else a, m, heap⟩
  | .atol => ⟨(readLong (m.text a.toNat)).toUInt64, m, heap⟩
  | .toupper => ⟨changeCase 97 122 (-32) a, m, heap⟩
  | .tolower => ⟨changeCase 65 90 32 a, m, heap⟩
  | .memcpy =>
    let bytes := (List.range (min c.toNat m.size)).map fun i => (m.load? (b.toNat + i)).getD 0
    ⟨a, m.storeAll a.toNat bytes, heap⟩
  | .memset => ⟨a, m.storeAll a.toNat (List.replicate (min c.toNat m.size) b.toUInt8), heap⟩
  | .malloc =>
    if heapLimit < a.toNat then ⟨0, m, heap⟩
    else
      let size := min a.toNat heapBlockLimit
      let block : Region := ⟨heapBase + heap, Array.replicate size 0⟩
      ⟨UInt64.ofNat block.base, { m with regions := m.regions ++ [block] },
        heap + (size / heapAlignment + 1) * heapAlignment⟩
  | .free => ⟨0, m, heap⟩

/-- Runs the function at an address, if there is one. -/
def callAt? (address : Word) (slots : Slots) (m : Memory) (heap : Nat) : Option Outcome :=
  (LibraryFunction.all.find? (·.address == address)).map fun f => run f slots m heap

end Library

end SymbolBridge
