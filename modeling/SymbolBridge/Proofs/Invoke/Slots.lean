import SymbolBridge.Invoke.Marshal
import Mathlib.Data.List.Basic

/-!
# What is in the slots of a call

Numbers enter a slot cut to the configured width, with their sign (`toInt_narrow`), strings as the addresses that the
allocator gives to copies. Each string has a copy of its own (`base_nodup`), and native code that reads memory from the
word in the slot on finds the bytes of the text up to its first NUL and then a zero (`load?_copy`). `word_slots` says
what every slot holds.
-/

namespace SymbolBridge

/-! ## Numbers -/

/-- The integer of the width that is congruent to `n`, which has 64 bits. -/
def Width.cut (n : Int) : Width → Int
  | .native => n
  | .bits32 => n.bmod (pow2 32)

theorem toInt_narrow (width : Width) (n : Int64) : (width.narrow n).toInt64.toInt = width.cut n.toInt := by
  cases width with
  | native => simp [Width.narrow, Width.cut]
  | bits32 => simp [Width.narrow, Width.cut, pow2]

/-- The integer that a returned word stands for: all of its bits, or the lower half, with a sign. -/
def ReturnKind.value (w : Word) : ReturnKind → Int
  | .word => (w.toNat : Int).bmod (pow2 64)
  | .int32 => (w.toNat : Int).bmod (pow2 32)
  | .void => 0

theorem toInt_interpret (k : ReturnKind) (w : Word) : (k.interpret w).toInt = k.value w := by
  cases k with
  | word => exact BitVec.toInt_eq_toNat_bmod w.toBitVec
  | int32 =>
    have h : w.toUInt32.toInt32.toInt = (w.toUInt32.toNat : Int).bmod (pow2 32) :=
      BitVec.toInt_eq_toNat_bmod w.toUInt32.toBitVec
    rw [ReturnKind.interpret, Int32.toInt_toInt64, h, ReturnKind.value, UInt64.toNat_toUInt32, Int.natCast_emod]
    exact Int.emod_bmod _ _
  | void => rfl

/-! ## Copies -/

theorem Value.length_pos_of_copied? {v : Value} {bytes : List UInt8} (h : v.copied? = some bytes) : 0 < bytes.length := by
  cases v with
  | str s =>
    cases h
    simp
  | _ => cases h

theorem Region.load?_base_add (r : Region) (k : Nat) : r.load? (r.base + k) = r.bytes[k]? := by
  rw [Region.load?, Nat.add_sub_cancel_left]

theorem Region.covers_base_add {r : Region} {k : Nat} : r.covers (r.base + k) = true ↔ k < r.bytes.size := by
  simp [Region.covers]

/-- A byte of a copy that no copy before it covers. -/
theorem Memory.load?_of_copy {m : Memory} {before after : List Region} {r : Region} {k : Nat} {byte : UInt8}
    (hm : m.copies = before ++ r :: after) (hbefore : ∀ r' ∈ before, r'.covers (r.base + k) = false)
    (hk : r.bytes[k]? = some byte) : m.load? (r.base + k) = some byte := by
  have hnone : before.find? (·.covers (r.base + k)) = none := by simpa using hbefore
  have hcovers : r.covers (r.base + k) = true := Region.covers_base_add.2 (Array.getElem?_eq_some_iff.1 hk).1
  simp only [Memory.load?, hm, List.append_assoc, List.find?_append, hnone, List.cons_append, List.find?_cons,
    hcovers, Option.none_or, Option.bind_some, Region.load?_base_add, hk]

/-- The copy of some bytes at an address. -/
def copyAt (address : Word) (bytes : List UInt8) : Region := ⟨address.toNat, bytes.toArray⟩

/-- The regions in which strings are copied for a call. -/
def ArgumentVector.copies (a : ArgumentVector) : List Region := a.strings.map StoredString.region

theorem region_marshal (width : Width) (address : Word) (v : Value) :
    (v.marshal width address).string.map StoredString.region = v.copied?.map (copyAt address) := by
  cases v <;> rfl

namespace ArgumentVector

theorem room_le (limit : Nat) : room limit ≤ maxSlots := Nat.min_le_right _ _

theorem getElem?_kept (limit : Nat) (args : List Value) (i : Nat) :
    (kept limit args)[i]? = if i < room limit then args[i]? else none := List.getElem?_take

theorem kept_eq_some {limit : Nat} {args : List Value} {i : Nat} {v : Value} (h : (kept limit args)[i]? = some v) :
    i < room limit ∧ args[i]? = some v := by
  rw [getElem?_kept] at h
  exact Option.ite_none_right_eq_some.1 h

section

variable (width : Width) (limit : Nat) (args : List Value) (allocator : Allocator)

/-- The copy of some bytes for the argument in a slot. -/
def copyIn (slot : Nat) (bytes : List UInt8) : Region := copyAt (allocator.address (kept limit args) slot) bytes

theorem copies_ofValues : (ofValues width limit args allocator).copies =
    (kept limit args).zipIdx.filterMap fun p => p.1.copied?.map (copyIn limit args allocator p.2) := by
  simp only [copies, strings, ofValues, List.mapIdx_eq_zipIdx_map, List.filterMap_map, List.map_filterMap]
  exact List.filterMap_congr fun p _ => region_marshal width _ p.1

/-- There is one copy for every string, in the order of the arguments. -/
theorem bytes_copies : (ofValues width limit args allocator).copies.map (·.bytes.toList) =
    (kept limit args).filterMap Value.copied? := by
  calc (ofValues width limit args allocator).copies.map (·.bytes.toList)
      = (kept limit args).zipIdx.filterMap (Value.copied? ∘ Prod.fst) := by
        rw [copies_ofValues, List.map_filterMap]
        refine List.filterMap_congr fun p _ => ?_
        cases hv : p.1.copied? <;> simp [hv, copyIn, copyAt]
    _ = (kept limit args).filterMap Value.copied? := by
        rw [← List.filterMap_map, List.zipIdx_map_fst]

variable {limit args} in
/-- Of two copies the earlier one, as far as there is room for it, lies apart from the later one. -/
theorem copies_apart {i j : Nat} {v u : Value} {bytes later : List UInt8} (hij : i < j)
    (hi : (kept limit args)[i]? = some v) (hj : (kept limit args)[j]? = some u) (hv : v.copied? = some bytes)
    (hu : u.copied? = some later) :
    (copyIn limit args allocator i bytes).base + min bytes.length copyRoom ≤ (copyIn limit args allocator j later).base ∨
      (copyIn limit args allocator j later).base + later.length ≤ (copyIn limit args allocator i bytes).base := by
  have hroom : j < maxSlots := Nat.lt_of_lt_of_le (kept_eq_some hj).1 (room_le limit)
  exact allocator.apart hij hroom (by rw [hi, Option.bind_some, hv]) (by rw [hj, Option.bind_some, hu])

/-- No two strings share a copy. -/
theorem base_nodup : ((ofValues width limit args allocator).copies.map Region.base).Nodup := by
  have hlt : (kept limit args).zipIdx.Pairwise fun p q => p.2 < q.2 := by
    rw [← List.pairwise_map (f := Prod.snd) (R := (· < ·)), List.zipIdx_map_snd]
    exact List.pairwise_lt_range'
  have h := hlt.imp_of_mem fun {p q} hp hq hpq =>
    And.intro hpq (And.intro (List.mem_zipIdx_iff_getElem?.1 hp) (List.mem_zipIdx_iff_getElem?.1 hq))
  rw [copies_ofValues, List.Nodup, List.pairwise_map]
  refine h.filterMap _ ?_
  rintro ⟨v, i⟩ ⟨u, j⟩ ⟨hij, hi, hj⟩ r hr r' hr'
  simp only [Option.map_eq_some_iff] at hr hr'
  obtain ⟨bytes, hv, rfl⟩ := hr
  obtain ⟨later, hu, rfl⟩ := hr'
  -- A copy has a byte at least, so what is apart begins at different places.
  have hapart := copies_apart allocator hij hi hj hv hu
  have hbytes := Value.length_pos_of_copied? hv
  have hlater := Value.length_pos_of_copied? hu
  unfold copyRoom at hapart
  dsimp only at hapart ⊢
  omega

/-! ## Slots -/

theorem word_slots (i : Nat) : (ofValues width limit args allocator).slots.word i =
    if i < room limit then
      ((args[i]?).map fun v => (v.marshal width (allocator.address (kept limit args) i)).word).getD 0
    else 0 := by
  have hr := room_le limit
  by_cases hi : i < maxSlots
  · have hp : (ofValues width limit args allocator).passed[i]? =
        if i < room limit then (args[i]?).map fun v => v.marshal width (allocator.address (kept limit args) i)
        else none := by
      rw [ofValues, List.getElem?_mapIdx, getElem?_kept]
      split <;> rfl
    simp only [Slots.word, slots, Vector.getElem?_ofFn, hi, ↓reduceDIte, Option.getD_some, hp]
    split
    · simp [Function.comp_def]
    · rfl
  · rw [if_neg (by omega)]
    simp [Slots.word, slots, hi]

/-- What it means for a word to stand in the slot of an argument, with the strings of the call in `copies`. -/
def Fills (width : Width) (copies : List Region) (w : Word) : Value → Prop
  | .nil | .table _ | .function _ | .handle _ => w = 0
  | .bool b => w.toNat = b.toNat
  | .number n => w.toInt64.toInt = width.cut n.toInt64.toInt
  | .str s => ∃ r ∈ copies, r.base = w.toNat ∧ r.bytes.toList = Text.utf8Bytes (Text.beforeNul s.toList) ++ [0]

end

variable {width : Width} {limit : Nat} {args : List Value} {allocator : Allocator}

theorem word_slots_of_getElem? {i : Nat} {v : Value} (hi : i < room limit) (hv : args[i]? = some v) :
    (ofValues width limit args allocator).slots.word i =
      (v.marshal width (allocator.address (kept limit args) i)).word := by
  rw [word_slots, if_pos hi, hv]; rfl

/-- The copy of the string in a slot. -/
theorem copyIn_mem_copies {i : Nat} {v : Value} {bytes : List UInt8} (hi : i < room limit) (hv : args[i]? = some v)
    (hb : v.copied? = some bytes) :
    copyIn limit args allocator i bytes ∈ (ofValues width limit args allocator).copies := by
  rw [copies_ofValues, List.mem_filterMap]
  refine ⟨(v, i), ?_, by simp [hb]⟩
  rw [List.mem_zipIdx_iff_getElem?, getElem?_kept, if_pos hi]
  exact hv

/-- Every slot that an argument reaches holds the argument. -/
theorem fills_word {i : Nat} {v : Value} (hi : i < room limit) (hv : args[i]? = some v) :
    Fills width (ofValues width limit args allocator).copies ((ofValues width limit args allocator).slots.word i) v := by
  rw [word_slots_of_getElem? hi hv]
  cases v with
  | bool b => cases b <;> rfl
  | number n => exact toInt_narrow width n.toInt64
  | str s => exact ⟨_, copyIn_mem_copies hi hv rfl, rfl, rfl⟩
  | _ => rfl

/-- The slot of a double holds its integer part towards zero, as far as there are integers of 64 bits. -/
theorem Fills.double {copies : List Region} {w : Word} {x : Binary64} {negative : Bool} {m : Nat} {e : Int}
    (h : Fills width copies w (.number (.float x))) (hx : x.datum = .finite negative m e) :
    ∃ k, Binary64.IsFloor m e k ∧ w.toInt64.toInt = width.cut
      (max Int64.minValue.toInt (min (if negative then -(k : Int) else k) Int64.maxValue.toInt)) := by
  have hconversion := x.toInt_toInt64
  rw [hx] at hconversion
  obtain ⟨k, hk, hinteger⟩ := hconversion
  exact ⟨k, hk, hinteger ▸ h⟩

/-- The copies are in the order of the slots: those before the copy in a slot are in earlier slots. -/
theorem copies_split {i : Nat} {v : Value} {bytes : List UInt8} (hi : i < room limit) (hv : args[i]? = some v)
    (hb : v.copied? = some bytes) :
    ∃ before after, (ofValues width limit args allocator).copies =
        before ++ copyIn limit args allocator i bytes :: after ∧
      ∀ r ∈ before, ∃ j < i, ∃ u bs, (kept limit args)[j]? = some u ∧ u.copied? = some bs ∧
        r = copyIn limit args allocator j bs := by
  have hkept : (kept limit args)[i]? = some v := by rw [getElem?_kept, if_pos hi, hv]
  rw [copies_ofValues]
  generalize copyIn limit args allocator = copy
  generalize kept limit args = passed at hkept
  obtain ⟨hlen, hget⟩ := List.getElem?_eq_some_iff.1 hkept
  refine ⟨(passed.take i).zipIdx.filterMap fun p => p.1.copied?.map (copy p.2),
    ((passed.drop (i + 1)).zipIdx (i + 1)).filterMap fun p => p.1.copied?.map (copy p.2), ?_, ?_⟩
  · have hsplit : passed = passed.take i ++ v :: passed.drop (i + 1) := by
      rw [← hget, List.getElem_cons_drop, List.take_append_drop]
    have hmin : min i passed.length = i := Nat.min_eq_left (Nat.le_of_lt hlen)
    conv_lhs => rw [hsplit, List.zipIdx_append, List.filterMap_append, List.zipIdx_cons]
    simp [hb, hmin]
  · intro r hr
    obtain ⟨⟨u, j⟩, hm, hu⟩ := List.mem_filterMap.1 hr
    obtain ⟨bs, hbs, rfl⟩ := Option.map_eq_some_iff.1 hu
    have hj := List.mem_zipIdx_iff_getElem?.1 hm
    rw [List.getElem?_take] at hj
    obtain ⟨hji, hj⟩ := Option.ite_none_right_eq_some.1 hj
    exact ⟨j, hji, u, bs, hj, hbs, rfl⟩

/-- Native code finds the copy of a string in memory, unless a copy before it takes up more room than there is for
one. -/
theorem load?_copy {m : Memory} {i : Nat} {v : Value} {bytes : List UInt8} (hi : i < room limit)
    (hv : args[i]? = some v) (hb : v.copied? = some bytes)
    (hshort : ∀ j < i, ∀ u bs, args[j]? = some u → u.copied? = some bs → bs.length ≤ copyRoom)
    {k : Nat} {byte : UInt8} (hk : bytes[k]? = some byte) :
    ({ m with copies := (ofValues width limit args allocator).copies } : Memory).load?
      (((ofValues width limit args allocator).slots.word i).toNat + k) = some byte := by
  have hw : ((ofValues width limit args allocator).slots.word i).toNat =
      (copyIn limit args allocator i bytes).base := by
    rw [word_slots_of_getElem? hi hv]
    cases v with
    | str s => rfl
    | _ => cases hb
  have hkept : (kept limit args)[i]? = some v := by rw [getElem?_kept, if_pos hi, hv]
  obtain ⟨before, after, hsplit, hbefore⟩ := @copies_split width _ _ allocator _ _ _ hi hv hb
  rw [hw]
  refine Memory.load?_of_copy hsplit ?_ (by simpa [copyIn, copyAt] using hk)
  intro r hr
  obtain ⟨j, hj, u, bs, hu, hbs, rfl⟩ := hbefore r hr
  have hapart := copies_apart allocator hj hu hkept hbs hb
  have hroom := hshort j hj u bs (kept_eq_some hu).2 hbs
  have hlt : k < bytes.length := (List.getElem?_eq_some_iff.1 hk).1
  have hsize : (copyIn limit args allocator j bs).bytes.size = bs.length := List.size_toArray
  rw [Nat.min_eq_left hroom] at hapart
  simp only [Region.covers, hsize, Bool.and_eq_false_iff, decide_eq_false_iff_not]
  omega

end ArgumentVector

end SymbolBridge
