/-!
# Memory

Memory is made of regions of bytes at fixed addresses; the regions in `copies` live only while native code runs and come
first. A byte outside all regions reads as nothing, and storing there changes nothing. Numbers are stored with their low
byte first.
-/

namespace SymbolBridge

/-- Consecutive bytes from an address on. -/
structure Region where
  base : Nat
  bytes : Array UInt8
  deriving Repr

namespace Region

def covers (r : Region) (address : Nat) : Bool := r.base ≤ address && address < r.base + r.bytes.size

def load? (r : Region) (address : Nat) : Option UInt8 := r.bytes[address - r.base]?

def store (r : Region) (address : Nat) (byte : UInt8) : Region :=
  { r with bytes := r.bytes.setIfInBounds (address - r.base) byte }

/-- Stores a byte in the first of some regions that covers an address. -/
def storeFirst (address : Nat) (byte : UInt8) : List Region → List Region
  | [] => []
  | r :: rs => if r.covers address then r.store address byte :: rs else r :: storeFirst address byte rs

end Region

structure Memory where
  regions : List Region := []
  /-- Copies of arguments, for the length of one call. -/
  copies : List Region := []
  deriving Repr

namespace Memory

/-- The byte at an address. -/
def load? (m : Memory) (address : Nat) : Option UInt8 :=
  ((m.copies ++ m.regions).find? (·.covers address)).bind (·.load? address)

def store (m : Memory) (address : Nat) (byte : UInt8) : Memory :=
  if m.copies.any (·.covers address) then { m with copies := Region.storeFirst address byte m.copies }
  else { m with regions := Region.storeFirst address byte m.regions }

/-- Stores bytes from an address on. -/
def storeAll (m : Memory) (address : Nat) : List UInt8 → Memory
  | [] => m
  | b :: bs => (m.store address b).storeAll (address + 1) bs

/-- The `n` bytes from an address on, if all are in memory. -/
def loadAll? (m : Memory) (address : Nat) : Nat → Option (List UInt8)
  | 0 => some []
  | n + 1 => do
    let b ← m.load? address
    let bs ← m.loadAll? (address + 1) n
    return b :: bs

/-- The number in `n` bytes from an address on; bytes outside memory count as zero. -/
def loadNat (m : Memory) (address : Nat) : Nat → Nat
  | 0 => 0
  | n + 1 => ((m.load? address).getD 0).toNat + 256 * m.loadNat (address + 1) n

/-- The low `n` bytes of a number. -/
def littleEndian (value : Nat) : Nat → List UInt8
  | 0 => []
  | n + 1 => UInt8.ofNat value :: littleEndian (value / 256) n

/-- At most `n` bytes from an address on, up to a zero or the end of memory. -/
def textBytes (m : Memory) (address : Nat) : Nat → List UInt8
  | 0 => []
  | n + 1 =>
    match m.load? address with
    | none | some 0 => []
    | some b => b :: m.textBytes (address + 1) n

/-- The number of bytes in all regions, which bounds every text in memory. -/
def size (m : Memory) : Nat := (m.copies ++ m.regions).foldr (·.bytes.size + ·) 0

/-- The text at an address: its bytes up to a zero or the end of memory. -/
def text (m : Memory) (address : Nat) : List UInt8 := m.textBytes address m.size

end Memory

end SymbolBridge
