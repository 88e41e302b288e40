import SymbolBridge.Toml.Document

/-!
# The root table of a document

Lines that assign values to different bare keys become the entries of the root table in the order of the lines
(`Entries.addLines_assignments`). No line takes a key out of it again, so that a key which was assigned to before the
first header stays one of its keys (`Entries.mem_keys_of_addLines`).
-/

namespace SymbolBridge.Toml.Entries

open Dictionary (lookupEntry putEntry)

/-- The keys of a table in order. -/
def keys (es : Entries) : List String := Dictionary.keys ⟨es⟩

section

variable {es es' : Entries} {k key : String} {node : Node}

theorem lookupEntry_eq_none_iff : lookupEntry k es = none ↔ k ∉ keys es := by
  rw [keys, Dictionary.mem_keys_iff, Option.not_isSome_iff_eq_none]
  rfl

theorem putEntry_of_notMem (h : k ∉ keys es) : putEntry k node es = es ++ [(k, node)] := by
  induction es with
  | nil => rfl
  | cons e es ih =>
    simp only [keys, Dictionary.keys, List.map_cons, List.mem_cons, not_or] at h
    rw [putEntry, if_neg (Ne.symm h.1), ih h.2, List.cons_append]

theorem mem_keys_putEntry : k ∈ keys (putEntry key node es) ↔ k ∈ keys es ∨ k = key := by
  have h := Dictionary.keys_insert ⟨es⟩ key node
  simp only [Dictionary.insert] at h
  rw [keys, h]
  split
  · next hmem =>
    refine ⟨.inl, ?_⟩
    rintro (h | rfl)
    · exact h
    · exact hmem
  · rw [List.mem_append, List.mem_singleton]
    rfl

end

/-! ## One line -/

section

variable {es es' : Entries} {k : String} {ks path : List String} {v : Value} {change : Entries → Option Entries}

/-- A path is defined by putting one entry, under the first of its keys. -/
theorem exists_putEntry_of_define (h : define v (k :: ks) es = some es') : ∃ node, es' = putEntry k node es := by
  cases ks with
  | nil =>
    rw [define] at h
    split at h
    · exact ⟨_, (Option.some.inj h).symm⟩
    · cases h
  | cons l ks =>
    rw [define] at h
    · split at h
      · obtain ⟨inner, -, rfl⟩ := Option.map_eq_some_iff.1 h
        exact ⟨_, rfl⟩
      · obtain ⟨inner, -, rfl⟩ := Option.map_eq_some_iff.1 h
        exact ⟨_, rfl⟩
      · cases h
    · simp

/-- A header puts one entry, under the first of its keys, if it opens its table so at a path of one key. -/
theorem exists_putEntry_of_openPath {openLast : String → Entries → Option Entries}
    (hlast : ∀ {k es es'}, openLast k es = some es' → ∃ node, es' = putEntry k node es)
    (h : openPath openLast (k :: ks) es = some es') : ∃ node, es' = putEntry k node es := by
  cases ks with
  | nil => exact hlast h
  | cons l ks =>
    rw [openPath] at h
    · split at h
      · obtain ⟨inner, -, rfl⟩ := Option.map_eq_some_iff.1 h
        exact ⟨_, rfl⟩
      · obtain ⟨inner, -, rfl⟩ := Option.map_eq_some_iff.1 h
        exact ⟨_, rfl⟩
      · obtain ⟨elements, -, rfl⟩ := Option.map_eq_some_iff.1 h
        exact ⟨_, rfl⟩
      · cases h
    · simp

theorem exists_putEntry_of_openTable (h : openTable k es = some es') : ∃ node, es' = putEntry k node es := by
  unfold openTable at h
  split at h
  · exact ⟨_, (Option.some.inj h).symm⟩
  · exact ⟨_, (Option.some.inj h).symm⟩
  · cases h

theorem exists_putEntry_of_openElement (h : openElement k es = some es') : ∃ node, es' = putEntry k node es := by
  unfold openElement at h
  split at h
  · exact ⟨_, (Option.some.inj h).symm⟩
  · exact ⟨_, (Option.some.inj h).symm⟩
  · cases h

theorem define_singleton (h : k ∉ keys es) : define v [k] es = some (es ++ [(k, .value v)]) := by
  rw [define, lookupEntry_eq_none_iff.2 h, putEntry_of_notMem h]

theorem mem_keys_of_define (h : define v [k] es = some es') : k ∈ keys es' := by
  obtain ⟨node, rfl⟩ := exists_putEntry_of_define h
  exact mem_keys_putEntry.2 (.inr rfl)

theorem keys_subset_define (h : define v path es = some es') : keys es ⊆ keys es' := by
  cases path with
  | nil => cases h
  | cons k ks =>
    obtain ⟨node, rfl⟩ := exists_putEntry_of_define h
    exact fun _ hmem => mem_keys_putEntry.2 (.inl hmem)

theorem keys_subset_openPath {openLast : String → Entries → Option Entries}
    (hlast : ∀ {k es es'}, openLast k es = some es' → ∃ node, es' = putEntry k node es)
    (h : openPath openLast path es = some es') : keys es ⊆ keys es' := by
  cases path with
  | nil => cases h
  | cons k ks =>
    obtain ⟨node, rfl⟩ := exists_putEntry_of_openPath hlast h
    exact fun _ hmem => mem_keys_putEntry.2 (.inl hmem)

theorem keys_subset_within (hchange : ∀ {es es'}, change es = some es' → keys es ⊆ keys es')
    (h : within change path es = some es') : keys es ⊆ keys es' := by
  cases path with
  | nil => exact hchange h
  | cons k ks =>
    rw [within] at h
    split at h
    · obtain ⟨inner, -, rfl⟩ := Option.map_eq_some_iff.1 h
      exact fun _ hmem => mem_keys_putEntry.2 (.inl hmem)
    · obtain ⟨elements, -, rfl⟩ := Option.map_eq_some_iff.1 h
      exact fun _ hmem => mem_keys_putEntry.2 (.inl hmem)
    · cases h

end

/-! ## All lines -/

section

variable {es es' : Entries} {k : String} {path : List String} {v : Value} {ls more : List Line}
  {kvs : List (String × Value)}

theorem keys_subset_addLines (h : addLines path es ls = some es') : keys es ⊆ keys es' := by
  induction ls generalizing path es with
  | nil =>
    obtain rfl := Option.some.inj h
    exact List.Subset.refl _
  | cons l ls ih =>
    cases l with
    | header header =>
      obtain ⟨next, hnext, hrest⟩ := Option.bind_eq_some_iff.1 h
      exact List.Subset.trans (keys_subset_openPath exists_putEntry_of_openTable hnext) (ih hrest)
    | element header =>
      obtain ⟨next, hnext, hrest⟩ := Option.bind_eq_some_iff.1 h
      exact List.Subset.trans (keys_subset_openPath exists_putEntry_of_openElement hnext) (ih hrest)
    | assign key v =>
      obtain ⟨next, hnext, hrest⟩ := Option.bind_eq_some_iff.1 h
      exact List.Subset.trans (keys_subset_within keys_subset_define hnext) (ih hrest)

/-- Lines that assign values to bare keys. -/
def assignments (kvs : List (String × Value)) : List Line := kvs.map fun (k, v) => .assign [k] v

/-- The entries of values under their keys. -/
def ofValues (kvs : List (String × Value)) : Entries := kvs.map fun (k, v) => (k, .value v)

theorem addLines_assignments (h : (keys es ++ kvs.map (·.1)).Nodup) :
    addLines [] es (assignments kvs) = some (es ++ ofValues kvs) := by
  induction kvs generalizing es with
  | nil => simp [assignments, ofValues, addLines]
  | cons kv kvs ih =>
    obtain ⟨k, v⟩ := kv
    have hfresh : k ∉ keys es := fun hmem => (List.nodup_append.1 h).2.2 k hmem k (by simp) rfl
    have hnodup : (keys (es ++ [(k, .value v)]) ++ kvs.map (·.1)).Nodup := by
      simpa [keys, Dictionary.keys] using h
    show (define v [k] es).bind (addLines [] · (assignments kvs)) = _
    rw [define_singleton hfresh, Option.bind_some, ih hnodup, List.append_assoc]
    rfl

theorem mem_keys_of_addLines (h : addLines [] es (assignments kvs ++ .assign [k] v :: more) = some es') :
    k ∈ keys es' := by
  induction kvs generalizing es with
  | nil =>
    obtain ⟨next, hnext, hrest⟩ := Option.bind_eq_some_iff.1 h
    exact keys_subset_addLines hrest (mem_keys_of_define hnext)
  | cons kv kvs ih =>
    obtain ⟨next, -, hrest⟩ := Option.bind_eq_some_iff.1 h
    exact ih hrest

end

end SymbolBridge.Toml.Entries
