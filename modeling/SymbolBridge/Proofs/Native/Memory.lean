import SymbolBridge.Native.Memory
import Mathlib.Data.Nat.ModEq

/-!
# What a store does to memory

A store changes the byte at its address and no other (`load?_store`), and keeps every byte in memory (`Live`). Hence the
bytes stored in a cell are read back (`loadNat_storeAll`), the bytes outside a cell stay as they are
(`load?_storeAll_of_outside`), and stores in cells that do not overlap can change places (`storeAll_comm`).
-/

namespace SymbolBridge

/-! ## Regions -/

namespace Region

variable {a x : Nat} {b : UInt8}

@[simp] theorem covers_store (r : Region) (a : Nat) (b : UInt8) (x : Nat) : (r.store a b).covers x = r.covers x := by
  have hsize : (r.store a b).bytes.size = r.bytes.size := Array.size_setIfInBounds
  rw [covers, hsize]
  rfl

theorem load?_store {r : Region} (ha : r.covers a) (hx : r.covers x) :
    (r.store a b).load? x = if x = a then some b else r.load? x := by
  simp only [covers, Bool.and_eq_true, decide_eq_true_eq] at ha hx
  simp only [load?, store, Array.getElem?_setIfInBounds]
  by_cases h : x = a
  · subst h
    have hlt : x - r.base < r.bytes.size := by omega
    simp [hlt]
  · have hne : a - r.base ≠ x - r.base := by omega
    simp [hne, h]

theorem isSome_load? {r : Region} (h : r.covers x) : (r.load? x).isSome := by
  simp only [covers, Bool.and_eq_true, decide_eq_true_eq] at h
  have hlt : x - r.base < r.bytes.size := by omega
  simp [load?, hlt]

theorem store_comm {r : Region} {a' : Nat} {b' : UInt8} (hne : a ≠ a') (ha : r.covers a) (ha' : r.covers a') :
    (r.store a b).store a' b' = (r.store a' b').store a b := by
  simp only [covers, Bool.and_eq_true, decide_eq_true_eq] at ha ha'
  have h : a - r.base ≠ a' - r.base := by omega
  simp only [store, Array.setIfInBounds_comm _ _ h]

/-- The byte that some regions have at an address. -/
def loadFirst? (rs : List Region) (x : Nat) : Option UInt8 := (rs.find? (·.covers x)).bind (·.load? x)

theorem loadFirst?_cons (r : Region) (rs : List Region) (x : Nat) :
    loadFirst? (r :: rs) x = if r.covers x then r.load? x else loadFirst? rs x := by
  by_cases h : r.covers x <;> simp [loadFirst?, h]

theorem loadFirst?_storeFirst : ∀ rs : List Region,
    loadFirst? (storeFirst a b rs) x = if x = a then (loadFirst? rs a).map fun _ => b else loadFirst? rs x
  | [] => by simp [storeFirst, loadFirst?]
  | r :: rs => by
    rw [storeFirst]
    by_cases ha : r.covers a
    · rw [if_pos ha, loadFirst?_cons, loadFirst?_cons, loadFirst?_cons, covers_store, if_pos ha]
      by_cases hx : r.covers x
      · obtain ⟨old, hold⟩ := Option.isSome_iff_exists.1 (isSome_load? ha)
        rw [if_pos hx, if_pos hx, load?_store ha hx, hold, Option.map_some]
      · have hne : x ≠ a := fun h => hx (h ▸ ha)
        rw [if_neg hx, if_neg hx, if_neg hne]
    · rw [if_neg ha, loadFirst?_cons, loadFirst?_cons, loadFirst?_cons, loadFirst?_storeFirst rs, if_neg ha]
      by_cases hx : r.covers x
      · have hne : x ≠ a := fun h => ha (h ▸ hx)
        rw [if_pos hx, if_pos hx, if_neg hne]
      · rw [if_neg hx, if_neg hx]

theorem any_covers_storeFirst : ∀ rs : List Region,
    (storeFirst a b rs).any (·.covers x) = rs.any (·.covers x)
  | [] => rfl
  | r :: rs => by
    rw [storeFirst]
    split
    · rw [List.any_cons, List.any_cons, covers_store]
    · rw [List.any_cons, List.any_cons, any_covers_storeFirst rs]

theorem storeFirst_comm {a a' : Nat} (b b' : UInt8) (hne : a ≠ a') : ∀ rs : List Region,
    storeFirst a' b' (storeFirst a b rs) = storeFirst a b (storeFirst a' b' rs)
  | [] => rfl
  | r :: rs => by
    have ih := storeFirst_comm b b' hne rs
    by_cases ha : r.covers a <;> by_cases ha' : r.covers a'
    · simp [storeFirst, ha, ha', store_comm hne ha ha']
    · simp [storeFirst, ha, ha']
    · simp [storeFirst, ha, ha']
    · simp [storeFirst, ha, ha', ih]

theorem storeFirst_append : ∀ rs rs' : List Region, storeFirst a b (rs ++ rs') =
    if rs.any (·.covers a) then storeFirst a b rs ++ rs' else rs ++ storeFirst a b rs'
  | [], _ => by simp
  | r :: rs, rs' => by
    by_cases ha : r.covers a
    · simp [storeFirst, ha]
    · simp only [List.cons_append, storeFirst, ha, storeFirst_append rs rs', List.any_cons, Bool.false_or,
        Bool.false_eq_true, if_false]
      split <;> rfl

end Region

namespace Memory

open Region (loadFirst? storeFirst)

variable {m : Memory} {a x n : Nat} {b : UInt8} {bs : List UInt8}

/-! ## Single bytes -/

theorem load?_eq (m : Memory) (x : Nat) : m.load? x = loadFirst? (m.copies ++ m.regions) x := rfl

theorem copies_append_regions_store (m : Memory) (a : Nat) (b : UInt8) :
    (m.store a b).copies ++ (m.store a b).regions = storeFirst a b (m.copies ++ m.regions) := by
  rw [Region.storeFirst_append, store]
  split <;> rfl

/-- A store replaces the byte at its address, if there is one, and no other. -/
theorem load?_store (m : Memory) (a : Nat) (b : UInt8) (x : Nat) :
    (m.store a b).load? x = if x = a then (m.load? a).map fun _ => b else m.load? x := by
  rw [load?_eq, copies_append_regions_store, Region.loadFirst?_storeFirst, ← load?_eq, ← load?_eq]

theorem store_comm {a a' : Nat} {b b' : UInt8} (hne : a ≠ a') :
    (m.store a b).store a' b' = (m.store a' b').store a b := by
  have hc := Region.storeFirst_comm b b' hne m.copies
  have hr := Region.storeFirst_comm b b' hne m.regions
  by_cases ha : m.copies.any (·.covers a) <;> by_cases ha' : m.copies.any (·.covers a') <;>
    simp only [store, ha, ha', Region.any_covers_storeFirst, hc, hr, if_true, if_false, Bool.false_eq_true]

/-! ## Cells -/

/-- All of some bytes from an address on are in memory. -/
def Live (m : Memory) (address n : Nat) : Prop := ∀ i < n, (m.load? (address + i)).isSome

/-- Whether an address is outside the `n` bytes from another one on. -/
def Outside (address n x : Nat) : Prop := x < address ∨ address + n ≤ x

theorem isSome_load?_store (m : Memory) (a : Nat) (b : UInt8) (x : Nat) :
    ((m.store a b).load? x).isSome = (m.load? x).isSome := by
  rw [load?_store]
  by_cases h : x = a
  · rw [if_pos h, h, Option.isSome_map]
  · rw [if_neg h]

theorem Live.store (h : m.Live x n) (a : Nat) (b : UInt8) : (m.store a b).Live x n := by
  intro i hi
  rw [isSome_load?_store]
  exact h i hi

theorem load?_storeAll_of_outside (hx : Outside a bs.length x) : (m.storeAll a bs).load? x = m.load? x := by
  induction bs generalizing a m with
  | nil => rfl
  | cons b bs ih =>
    simp only [Outside, List.length_cons] at hx ih
    rw [storeAll, ih (by omega), load?_store, if_neg (by omega)]

theorem load?_storeAll_add {i : Nat} (hlive : m.Live a bs.length) (hi : bs[i]? = some b) :
    (m.storeAll a bs).load? (a + i) = some b := by
  induction bs generalizing a m i with
  | nil => simp at hi
  | cons c bs ih =>
    rw [storeAll]
    cases i with
    | zero =>
      obtain ⟨old, hold⟩ := Option.isSome_iff_exists.1 (hlive 0 (by simp))
      have houtside : Outside (a + 1) bs.length (a + 0) := .inl (by omega)
      rw [load?_storeAll_of_outside houtside, load?_store, if_pos (Nat.add_zero a), ← Nat.add_zero a, hold]
      simpa using hi
    | succ i =>
      have hlive' : (m.store a c).Live (a + 1) bs.length := fun j hj => by
        have h := hlive (j + 1) (by simpa using hj)
        rwa [isSome_load?_store, Nat.add_assoc, Nat.add_comm 1 j]
      rw [Nat.add_comm i 1, ← Nat.add_assoc]
      exact ih hlive' (by simpa using hi)

theorem length_littleEndian (v : Nat) : ∀ n, (littleEndian v n).length = n
  | 0 => rfl
  | n + 1 => by rw [littleEndian, List.length_cons, length_littleEndian (v / 256) n]

/-- The number that a cell holds depends on the bytes of the cell alone. -/
theorem loadNat_congr {m' : Memory} (h : ∀ i < n, m.load? (a + i) = m'.load? (a + i)) :
    m.loadNat a n = m'.loadNat a n := by
  induction n generalizing a with
  | zero => rfl
  | succ n ih =>
    have hfirst := h 0 (by omega)
    rw [Nat.add_zero] at hfirst
    have hrest := @ih (a + 1) fun i hi => by
      have := h (i + 1) (by omega)
      rwa [Nat.add_assoc, Nat.add_comm 1 i]
    rw [loadNat, loadNat, hfirst, hrest]

theorem loadNat_of_littleEndian {v : Nat} (h : ∀ i < n, m.load? (a + i) = (littleEndian v n)[i]?) :
    m.loadNat a n = v % 256 ^ n := by
  induction n generalizing a v with
  | zero => simp [loadNat, Nat.mod_one]
  | succ n ih =>
    have hfirst := h 0 (by omega)
    rw [littleEndian, Nat.add_zero, List.getElem?_cons_zero] at hfirst
    have hrest := @ih (a + 1) (v / 256) fun i hi => by
      have := h (i + 1) (by omega)
      rw [littleEndian, List.getElem?_cons_succ] at this
      rwa [Nat.add_assoc, Nat.add_comm 1 i]
    have hsplit : v % 256 ^ (n + 1) = v % 256 + 256 * (v / 256 % 256 ^ n) := by rw [Nat.pow_succ', Nat.mod_mul]
    rw [loadNat, hfirst, hrest, hsplit, Option.getD_some, UInt8.toNat_ofNat']

/-- A number stored in a cell is read back up to what the cell has no room for. -/
theorem loadNat_storeAll (hlive : m.Live a n) (v : Nat) :
    (m.storeAll a (littleEndian v n)).loadNat a n = v % 256 ^ n := by
  refine loadNat_of_littleEndian fun i hi => ?_
  have hlen := length_littleEndian v n
  obtain ⟨b, hb⟩ : ∃ b, (littleEndian v n)[i]? = some b :=
    ⟨_, List.getElem?_eq_getElem (by omega)⟩
  rw [hb]
  exact load?_storeAll_add (by rwa [hlen]) hb

/-! ## Cells that do not overlap -/

/-- No byte is in both of two cells. -/
def Apart (a n a' n' : Nat) : Prop := a + n ≤ a' ∨ a' + n' ≤ a

theorem Apart.symm {a' n' : Nat} (h : Apart a n a' n') : Apart a' n' a n := Or.symm h

theorem Apart.outside {a' n' i : Nat} (h : Apart a n a' n') (hi : i < n') : Outside a n (a' + i) := by
  unfold Apart at h
  unfold Outside
  omega

theorem loadNat_storeAll_of_apart {a' n' : Nat} (h : Apart a bs.length a' n') :
    (m.storeAll a bs).loadNat a' n' = m.loadNat a' n' :=
  loadNat_congr fun _ hi => load?_storeAll_of_outside (h.outside hi)

theorem store_storeAll_comm (hx : Outside a bs.length x) :
    (m.store x b).storeAll a bs = (m.storeAll a bs).store x b := by
  induction bs generalizing a m with
  | nil => rfl
  | cons c bs ih =>
    simp only [Outside, List.length_cons] at hx ih
    have hne : x ≠ a := by omega
    rw [storeAll, storeAll, store_comm hne, ih (by omega)]

/-- Stores in cells that do not overlap can change places. -/
theorem storeAll_comm {a' : Nat} {bs' : List UInt8} (h : Apart a bs.length a' bs'.length) :
    (m.storeAll a bs).storeAll a' bs' = (m.storeAll a' bs').storeAll a bs := by
  induction bs generalizing a m with
  | nil => rfl
  | cons b bs ih =>
    have hrest : Apart (a + 1) bs.length a' bs'.length := by
      simp only [Apart, List.length_cons] at h ⊢
      omega
    have houtside : Outside a' bs'.length a := by
      simp only [Apart, Outside, List.length_cons] at h ⊢
      omega
    rw [storeAll, storeAll, ih hrest, store_storeAll_comm houtside]

end Memory

end SymbolBridge
