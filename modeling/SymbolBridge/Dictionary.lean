/-!
# Dictionaries in order of insertion

A dictionary maps texts to values and lists them in the order in which they were first inserted. Inserting again keeps
the place (`keys_insert`), erasing moves the rest up (`keys_erase`), and taking a key out erases it and gives back the value
that it had (`take_eq`).
-/

namespace SymbolBridge

structure Dictionary (α : Type) where
  entries : List (String × α) := []

namespace Dictionary

variable {α : Type}

/-- The first value under `key`. -/
def lookupEntry (key : String) : List (String × α) → Option α
  | [] => none
  | (k, v) :: rest => if k = key then some v else lookupEntry key rest

/-- The entries with the value of `key` replaced, or put at the end. -/
def putEntry (key : String) (value : α) : List (String × α) → List (String × α)
  | [] => [(key, value)]
  | (k, v) :: rest => if k = key then (key, value) :: rest else (k, v) :: putEntry key value rest

/-- The first value under `key`, and the entries under other keys. -/
def takeEntry (key : String) : List (String × α) → Option α × List (String × α)
  | [] => (none, [])
  | (k, v) :: rest =>
    let (value, others) := takeEntry key rest
    if k = key then (some v, others) else (value, (k, v) :: others)

/-- The value of a key. -/
def find? (d : Dictionary α) (key : String) : Option α := lookupEntry key d.entries

def contains (d : Dictionary α) (key : String) : Bool := (d.find? key).isSome

/-- The keys in order. -/
def keys (d : Dictionary α) : List String := d.entries.map (·.1)

def size (d : Dictionary α) : Nat := d.entries.length

def insert (d : Dictionary α) (key : String) (value : α) : Dictionary α := ⟨putEntry key value d.entries⟩

def erase (d : Dictionary α) (key : String) : Dictionary α := ⟨d.entries.filter (·.1 != key)⟩

/-- Takes a key out: the value that it had, and the dictionary without it. -/
def take (d : Dictionary α) (key : String) : Option α × Dictionary α :=
  let (value, entries) := takeEntry key d.entries
  (value, ⟨entries⟩)

theorem find?_insert (d : Dictionary α) (key : String) (value : α) (k : String) :
    (d.insert key value).find? k = if k = key then some value else d.find? k := by
  unfold find? insert
  induction d.entries with
  | nil => simp [putEntry, lookupEntry, eq_comm]
  | cons e es ih => grind [putEntry, lookupEntry]

theorem find?_erase (d : Dictionary α) (key k : String) :
    (d.erase key).find? k = if k = key then none else d.find? k := by
  unfold find? erase
  induction d.entries with
  | nil => simp [lookupEntry]
  | cons e es ih => grind [lookupEntry]

theorem mem_keys_iff (d : Dictionary α) (key : String) : key ∈ d.keys ↔ (d.find? key).isSome := by
  unfold keys find?
  induction d.entries with
  | nil => simp [lookupEntry]
  | cons e es ih => grind [lookupEntry]

theorem keys_insert (d : Dictionary α) (key : String) (value : α) :
    (d.insert key value).keys = if key ∈ d.keys then d.keys else d.keys ++ [key] := by
  unfold keys insert
  induction d.entries with
  | nil => simp [putEntry]
  | cons e es ih => grind [putEntry]

theorem keys_erase (d : Dictionary α) (key : String) : (d.erase key).keys = d.keys.filter (· != key) := by
  simp only [keys, erase, List.filter_map, Function.comp_def]

theorem take_eq (d : Dictionary α) (key : String) : d.take key = (d.find? key, d.erase key) := by
  have h : ∀ es : List (String × α), takeEntry key es = (lookupEntry key es, es.filter (·.1 != key)) := by
    intro es
    induction es with
    | nil => rfl
    | cons e es ih => by_cases he : e.1 = key <;> simp [takeEntry, lookupEntry, ih, he]
  simp only [take, h, find?, erase]

end Dictionary

end SymbolBridge
