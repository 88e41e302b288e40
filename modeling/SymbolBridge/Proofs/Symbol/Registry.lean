import Mathlib.Data.List.Induction
import Mathlib.Data.List.Nodup
import Mathlib.Order.Bounds.Basic
import Mathlib.Order.Nat
import SymbolBridge.Proofs.Symbol.Table

/-!
# Registries over time

A host defines and removes names in any order; `ofEdits` makes these edits in an empty registry. A definition stands if the
name is not removed after it (`standing`). What a registry holds under a name is the last definition that stands
(`find?_ofEdits`), and it lists its names in the order of their first definitions that stand (`names_ofEdits`): the later
ones take no new place. `holds_what_stands` puts this together.
-/

namespace SymbolBridge.Registry

/-! ## Edits -/

/-- A change that a host makes to a registry. -/
inductive Edit where
  | define (name : String) (address : Word) (kind : SymbolKind)
  | remove (name : String)
  deriving DecidableEq, Repr

namespace Edit

/-- What an edit defines a name as, if it does; the null address defines nothing. -/
def given? (name : String) : Edit → Option SymbolEntry
  | define defined address kind => if name = defined ∧ address ≠ 0 then some ⟨address, some kind⟩ else none
  | remove _ => none

/-- A definition has an address and a category. -/
theorem exists_of_given?_eq_some {t : Edit} {name : String} {e : SymbolEntry} (h : t.given? name = some e) :
    e.address ≠ 0 ∧ ∃ kind, e.kind = some kind := by
  cases t with
  | define defined address kind =>
    obtain ⟨⟨-, haddress⟩, he⟩ := Option.ite_none_right_eq_some.1 h
    cases he
    exact ⟨haddress, kind, rfl⟩
  | remove removed => cases h

end Edit

def edit (r : Registry) : Edit → Registry
  | .define name address kind => r.define name address kind
  | .remove name => r.remove name

/-- The registry that some edits make of another one. -/
def after (r : Registry) (edits : List Edit) : Registry := edits.foldl edit r

/-- The registry that some edits make of an empty one. -/
def ofEdits (edits : List Edit) : Registry := ({} : Registry).after edits

theorem after_append (r : Registry) (edits later : List Edit) : r.after (edits ++ later) = (r.after edits).after later :=
  List.foldl_append

theorem ofEdits_concat (edits : List Edit) (t : Edit) : ofEdits (edits ++ [t]) = (ofEdits edits).edit t :=
  after_append {} edits [t]

/-! ## One edit -/

section

variable (r : Registry) (name : String)

theorem find?_edit (t : Edit) :
    (r.edit t).find? name = if t = .remove name then none else (t.given? name).or (r.find? name) := by
  cases t with
  | define defined address kind =>
    rw [edit, find?_define, Edit.given?]
    split <;> simp
  | remove removed =>
    rw [edit, find?_remove, Edit.given?, Option.none_or]
    simp only [Edit.remove.injEq, eq_comm]

theorem mem_names_iff : name ∈ r.names ↔ (r.find? name).isSome := r.symbols.mem_keys_iff name

/-- A definition gives a name the last place, unless it has a place already. -/
theorem names_define (address : Word) (kind : SymbolKind) :
    (r.define name address kind).names = if address = 0 ∨ name ∈ r.names then r.names else r.names ++ [name] := by
  rw [define]
  by_cases ha : address = 0
  · simp [ha]
  · simpa [ha, names] using r.symbols.keys_insert name _

/-- The names without the removed one keep their order. -/
theorem names_remove : (r.remove name).names = r.names.filter (· != name) := r.symbols.keys_erase name

theorem size_eq_length : r.size = r.names.length := (List.length_map ..).symm

theorem isEmpty_iff : r.isEmpty = true ↔ r.size = 0 := by
  rw [isEmpty, List.isEmpty_iff, size, Dictionary.size, List.length_eq_zero_iff]

end

theorem nodup_edit {r : Registry} (h : r.names.Nodup) (t : Edit) : (r.edit t).names.Nodup := by
  cases t with
  | define name address kind =>
    rw [edit, names_define]
    split
    · exact h
    · rename_i hno
      rw [← List.concat_eq_append, List.nodup_concat]
      exact ⟨fun hmem => hno (.inr hmem), h⟩
  | remove name =>
    rw [edit, names_remove]
    exact h.filter _

/-! ## What stands of the edits -/

/-- The places of the edits that define a name and after which it is not removed. -/
def standing (edits : List Edit) (name : String) : Set Nat :=
  {i | (∃ t e, edits[i]? = some t ∧ t.given? name = some e) ∧ ∀ j, i < j → edits[j]? ≠ some (.remove name)}

variable {edits : List Edit} {name : String}

theorem lt_length_of_standing {i : Nat} (h : i ∈ standing edits name) : i < edits.length := by
  obtain ⟨⟨t, e, ht, -⟩, -⟩ := h
  exact (List.getElem?_eq_some_iff.1 ht).1

theorem standing_nil : standing [] name = ∅ := by
  refine Set.eq_empty_iff_forall_notMem.2 fun i hi => ?_
  exact Nat.not_lt_zero i (lt_length_of_standing hi)

/-- An edit of a history that has one more is that one, or an edit from before. -/
theorem getElem?_concat_eq_some_iff {t u : Edit} {i : Nat} :
    (edits ++ [t])[i]? = some u ↔ edits[i]? = some u ∨ i = edits.length ∧ t = u := by
  rw [List.getElem?_append]
  split
  · rename_i hi
    have hne : i ≠ edits.length := Nat.ne_of_lt hi
    simp [hne]
  · rename_i hi
    rw [List.getElem?_singleton, List.getElem?_eq_none (Nat.le_of_not_lt hi)]
    simp only [Option.ite_none_right_eq_some, Option.some.injEq, reduceCtorEq, false_or]
    constructor
    · rintro ⟨hzero, rfl⟩
      exact ⟨by omega, rfl⟩
    · rintro ⟨rfl, rfl⟩
      exact ⟨Nat.sub_self _, rfl⟩

/-- What one more edit leaves standing: nothing of a name that it removes, else what stood before, and the edit itself if
it is a definition. -/
theorem mem_standing_concat {t : Edit} {i : Nat} : i ∈ standing (edits ++ [t]) name ↔
    t ≠ .remove name ∧ (i ∈ standing edits name ∨ i = edits.length ∧ ∃ e, t.given? name = some e) := by
  constructor
  · rintro ⟨⟨u, e, hu, he⟩, hkept⟩
    have hkept' : ∀ j, i < j → edits[j]? ≠ some (.remove name) := fun j hj hr =>
      hkept j hj (getElem?_concat_eq_some_iff.2 (.inl hr))
    rcases getElem?_concat_eq_some_iff.1 hu with hu | ⟨rfl, rfl⟩
    · have hi : i < edits.length := lt_length_of_standing ⟨⟨u, e, hu, he⟩, hkept'⟩
      refine ⟨fun ht => ?_, .inl ⟨⟨u, e, hu, he⟩, hkept'⟩⟩
      exact hkept edits.length hi (getElem?_concat_eq_some_iff.2 (.inr ⟨rfl, ht⟩))
    · refine ⟨?_, .inr ⟨rfl, e, he⟩⟩
      rintro rfl
      cases he
  · rintro ⟨ht, hi | ⟨rfl, e, he⟩⟩
    · obtain ⟨⟨u, e, hu, he⟩, hkept⟩ := hi
      refine ⟨⟨u, e, getElem?_concat_eq_some_iff.2 (.inl hu), he⟩, fun j hj hr => ?_⟩
      rcases getElem?_concat_eq_some_iff.1 hr with hr | ⟨-, hr⟩
      · exact hkept j hj hr
      · exact ht hr
    · refine ⟨⟨t, e, getElem?_concat_eq_some_iff.2 (.inr ⟨rfl, rfl⟩), he⟩, fun j hj hr => ?_⟩
      have hlt := (List.getElem?_eq_some_iff.1 hr).1
      rw [List.length_append, List.length_singleton] at hlt
      omega

/-! ## What a registry holds -/

/-- An edit that defines a name is the last one that stands. -/
theorem isGreatest_standing_concat (edits : List Edit) {t : Edit} {e : SymbolEntry} (he : t.given? name = some e) :
    IsGreatest (standing (edits ++ [t]) name) edits.length := by
  have ht : t ≠ .remove name := by
    rintro rfl
    cases he
  refine ⟨mem_standing_concat.2 ⟨ht, .inr ⟨rfl, e, he⟩⟩, fun i hi => ?_⟩
  rcases (mem_standing_concat.1 hi).2 with hi | ⟨rfl, -⟩
  · exact Nat.le_of_lt (lt_length_of_standing hi)
  · exact Nat.le_refl _

/-- What stands of a name is the same after an edit that neither defines nor removes it. -/
theorem standing_concat_of_given?_eq_none {t : Edit} (ht : t ≠ .remove name) (he : t.given? name = none) :
    standing (edits ++ [t]) name = standing edits name := by
  ext i
  rw [mem_standing_concat]
  simp [ht, he]

theorem standing_concat_remove : standing (edits ++ [.remove name]) name = ∅ := by
  refine Set.eq_empty_iff_forall_notMem.2 fun i hi => ?_
  exact (mem_standing_concat.1 hi).1 rfl

/-- The last definition of a name that stands makes it what it is. -/
def LastStanding (edits : List Edit) (name : String) (e : SymbolEntry) : Prop :=
  ∃ i t, IsGreatest (standing edits name) i ∧ edits[i]? = some t ∧ t.given? name = some e

theorem find?_ofEdits (edits : List Edit) (name : String) (e : SymbolEntry) :
    (ofEdits edits).find? name = some e ↔ LastStanding edits name e := by
  induction edits using List.reverseRecOn with
  | nil =>
    refine ⟨fun h => (by cases h), ?_⟩
    rintro ⟨i, t, -, ht, -⟩
    simp at ht
  | append_singleton edits t ih =>
    rw [ofEdits_concat, find?_edit]
    by_cases ht : t = .remove name
    · subst ht
      rw [if_pos rfl]
      refine ⟨fun h => (by cases h), ?_⟩
      rintro ⟨i, -, ⟨hi, -⟩, -⟩
      rw [standing_concat_remove] at hi
      cases hi
    · rw [if_neg ht]
      cases he : t.given? name with
      | some e' =>
        have hlast : (edits ++ [t])[edits.length]? = some t := List.getElem?_concat_length
        have hgreatest := isGreatest_standing_concat edits he
        rw [Option.some_or, Option.some.injEq]
        constructor
        · rintro rfl
          exact ⟨edits.length, t, hgreatest, hlast, he⟩
        · rintro ⟨i, u, hi, hu, he'⟩
          obtain rfl := hi.unique hgreatest
          obtain rfl := Option.some.inj (hlast.symm.trans hu)
          exact Option.some.inj (he.symm.trans he')
      | none =>
        rw [Option.none_or, ih, LastStanding, LastStanding, standing_concat_of_given?_eq_none ht he]
        refine exists_congr fun i => exists_congr fun u => and_congr_right fun hi => and_congr_left' ?_
        have hlt := lt_length_of_standing hi.1
        rw [List.getElem?_append_left hlt]

/-- A name is not held exactly if none of its definitions stands. -/
theorem find?_ofEdits_eq_none_iff : (ofEdits edits).find? name = none ↔ standing edits name = ∅ := by
  induction edits using List.reverseRecOn with
  | nil => exact iff_of_true rfl standing_nil
  | append_singleton edits t ih =>
    rw [ofEdits_concat, find?_edit]
    by_cases ht : t = .remove name
    · subst ht
      exact iff_of_true (if_pos rfl) standing_concat_remove
    · rw [if_neg ht]
      cases he : t.given? name with
      | some e =>
        refine iff_of_false (by simp) fun hempty => ?_
        have hmem := (isGreatest_standing_concat edits he).1
        rw [hempty] at hmem
        cases hmem
      | none => rw [Option.none_or, ih, standing_concat_of_given?_eq_none ht he]

/-! ## The order of the names -/

theorem nodup_ofEdits (edits : List Edit) : (ofEdits edits).names.Nodup := by
  induction edits using List.reverseRecOn with
  | nil => exact List.nodup_nil
  | append_singleton edits t ih =>
    rw [ofEdits_concat]
    exact nodup_edit ih t

/-- The first definition of one name that stands comes before that of another one. -/
def StandsBefore (edits : List Edit) (name name' : String) : Prop :=
  ∃ i j, IsLeast (standing edits name) i ∧ IsLeast (standing edits name') j ∧ i < j

theorem isLeast_standing_concat {t : Edit} {i : Nat} (ht : t ≠ .remove name) (h : IsLeast (standing edits name) i) :
    IsLeast (standing (edits ++ [t]) name) i := by
  refine ⟨mem_standing_concat.2 ⟨ht, .inl h.1⟩, fun j hj => ?_⟩
  rcases (mem_standing_concat.1 hj).2 with hj | ⟨rfl, -⟩
  · exact h.2 hj
  · exact Nat.le_of_lt (lt_length_of_standing h.1)

/-- A name that was not held stands from its definition on. -/
theorem isLeast_standing_of_new {t : Edit} {e : SymbolEntry} (he : t.given? name = some e)
    (hnone : (ofEdits edits).find? name = none) : IsLeast (standing (edits ++ [t]) name) edits.length := by
  refine ⟨(isGreatest_standing_concat edits he).1, fun j hj => ?_⟩
  rcases (mem_standing_concat.1 hj).2 with hj | ⟨rfl, -⟩
  · rw [find?_ofEdits_eq_none_iff.1 hnone] at hj
    cases hj
  · exact Nat.le_refl _

theorem exists_isLeast_standing (h : name ∈ (ofEdits edits).names) : ∃ i, IsLeast (standing edits name) i := by
  have hsome : ∃ i, i ∈ standing edits name := by
    by_contra hno
    have hnone : (ofEdits edits).find? name = none :=
      find?_ofEdits_eq_none_iff.2 (Set.eq_empty_iff_forall_notMem.2 fun i hi => hno ⟨i, hi⟩)
    rw [mem_names_iff, hnone] at h
    cases h
  classical
  exact ⟨_, Nat.isLeast_find hsome⟩

/-- An edit that removes neither of two names leaves their order. -/
theorem standsBefore_concat {t : Edit} {name' : String} (ht : t ≠ .remove name) (ht' : t ≠ .remove name')
    (h : StandsBefore edits name name') : StandsBefore (edits ++ [t]) name name' := by
  obtain ⟨i, j, hi, hj, hij⟩ := h
  exact ⟨i, j, isLeast_standing_concat ht hi, isLeast_standing_concat ht' hj, hij⟩

/-- A registry lists its names in the order of their first definitions that stand. -/
theorem names_ofEdits (edits : List Edit) : (ofEdits edits).names.Pairwise (StandsBefore edits) := by
  induction edits using List.reverseRecOn with
  | nil => exact List.Pairwise.nil
  | append_singleton edits t ih =>
    rw [ofEdits_concat]
    cases t with
    | define name address kind =>
      have hkept : (ofEdits edits).names.Pairwise (StandsBefore (edits ++ [.define name address kind])) :=
        ih.imp fun h => standsBefore_concat (by simp) (by simp) h
      rw [edit, names_define]
      split
      · exact hkept
      · rename_i hnew
        rw [not_or] at hnew
        have he : (Edit.define name address kind).given? name = some ⟨address, some kind⟩ := by
          simp [Edit.given?, hnew.1]
        have hnone : (ofEdits edits).find? name = none := by simpa [mem_names_iff] using hnew.2
        refine List.pairwise_append.2 ⟨hkept, List.pairwise_singleton _ _, fun m hm n hn => ?_⟩
        obtain rfl := List.mem_singleton.1 hn
        obtain ⟨i, hi⟩ := exists_isLeast_standing hm
        exact ⟨i, edits.length, isLeast_standing_concat (by simp) hi, isLeast_standing_of_new he hnone,
          lt_length_of_standing hi.1⟩
    | remove name =>
      rw [edit, names_remove]
      refine (ih.sublist List.filter_sublist).imp_of_mem fun hm hn h => ?_
      have hother : ∀ {m : String}, m ∈ (ofEdits edits).names.filter (· != name) → Edit.remove name ≠ .remove m := by
        intro m hm heq
        cases heq
        simp at hm
      exact standsBefore_concat (hother hm) (hother hn) h

/-- **A registry holds what stands of its edits.** Under a name it holds the last definition that stands, and nothing if
none does. It lists the names that it holds, each once, in the order of their first definitions that stand: defining a name
anew leaves it in its place, and removing one leaves the others in their order. It counts them, and what the removal of a
name gives back is what has been found under it. -/
theorem holds_what_stands (edits : List Edit) :
    let r := ofEdits edits
    (∀ name e, r.find? name = some e ↔ LastStanding edits name e) ∧
    (∀ name, r.find? name = none ↔ standing edits name = ∅) ∧
    r.names.Nodup ∧
    (∀ name, name ∈ r.names ↔ (r.find? name).isSome) ∧
    r.names.Pairwise (StandsBefore edits) ∧
    (∀ name address kind, (ofEdits (edits ++ [.define name address kind])).names =
      if address = 0 ∨ name ∈ r.names then r.names else r.names ++ [name]) ∧
    (∀ name, (ofEdits (edits ++ [.remove name])).names = r.names.filter (· != name)) ∧
    r.size = r.names.length ∧ (r.isEmpty = true ↔ r.size = 0) ∧
    ∀ name, r.withdraw name = (r.find? name, ofEdits (edits ++ [.remove name])) := by
  intro r
  refine ⟨find?_ofEdits edits, fun name => find?_ofEdits_eq_none_iff, nodup_ofEdits edits, r.mem_names_iff,
    names_ofEdits edits, fun name address kind => ?_, fun name => ?_, r.size_eq_length, r.isEmpty_iff, fun name => ?_⟩
  · rw [ofEdits_concat]
    exact names_define r name address kind
  · rw [ofEdits_concat]
    exact names_remove r name
  · rw [ofEdits_concat]
    exact r.withdraw_eq name

/-- A name that is defined anew keeps its place, and one that is removed in between does not. -/
example : (ofEdits [.define "a" 1 .code, .define "b" 2 .data, .define "a" 3 .data]).names = ["a", "b"] ∧
    (ofEdits [.define "a" 1 .code, .define "b" 2 .data, .remove "a", .define "a" 3 .data]).names = ["b", "a"] := by
  decide

end SymbolBridge.Registry
