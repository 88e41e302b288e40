import SymbolBridge.Proofs.Symbol.Registry
import SymbolBridge.Proofs.Symbol.Resolver

/-!
# Chained tables as one table

Tables in a chain answer one after the other until one has an entry (`find_chain_append`), so a chain may be nested in a
chain or spelled out (`chain_leaves`), and what a name resolves to depends on nothing but the entries of its spellings
(`resolve_congr`). A chain of registries is one registry, in which the entries of the last are defined first and those of
the first last (`chain_eq_merge`). `chain_resolves_as_merge` puts this together.
-/

namespace SymbolBridge

/-! ## Findings one after the other -/

namespace Finding

/-- A finding, and another one where it has no entry. -/
def orElse (f g : Finding) : Finding :=
  match f.entry with
  | some _ => f
  | none => ⟨g.entry, f.sightings ++ g.sightings⟩

theorem entry_orElse (f g : Finding) : (f.orElse g).entry = f.entry.or g.entry := by
  rw [orElse]
  cases h : f.entry with
  | some e => simp [h]
  | none => rfl

theorem orElse_empty (f : Finding) : f.orElse ⟨none, []⟩ = f := by
  obtain ⟨entry, sightings⟩ := f
  cases entry with
  | some e => rfl
  | none => simp [orElse]

theorem empty_orElse (f : Finding) : orElse ⟨none, []⟩ f = f := rfl

theorem orElse_assoc (f g h : Finding) : (f.orElse g).orElse h = f.orElse (g.orElse h) := by
  obtain ⟨entry, sightings⟩ := f
  obtain ⟨entry', sightings'⟩ := g
  cases entry with
  | some e => rfl
  | none =>
    cases entry' with
    | some e => rfl
    | none => simp [orElse]

end Finding

namespace SymbolTable

/-! ## Chains -/

/-- Two tables that answer alike are one. -/
theorem eq_of_find {t t' : SymbolTable} (h : ∀ name, t.find name = t'.find name) : t = t' := by
  obtain ⟨find⟩ := t
  obtain ⟨find'⟩ := t'
  exact congrArg SymbolTable.mk (funext h)

theorem find_chain_cons (t : SymbolTable) (ts : List SymbolTable) (name : String) :
    (chain (t :: ts)).find name = (t.find name).orElse ((chain ts).find name) := by
  cases h : (t.find name).entry with
  | none => simp only [chain, chain.go, Finding.orElse, h]
  | some e => simp only [chain, chain.go, Finding.orElse, h]

theorem find_chain_append (ts us : List SymbolTable) (name : String) :
    (chain (ts ++ us)).find name = ((chain ts).find name).orElse ((chain us).find name) := by
  induction ts with
  | nil => exact (Finding.empty_orElse _).symm
  | cons t ts ih => rw [List.cons_append, find_chain_cons, find_chain_cons, ih, Finding.orElse_assoc]

/-- Tables that are chained, and chained again with others. -/
inductive Nesting where
  | leaf (t : SymbolTable)
  | node (parts : List Nesting)

namespace Nesting

mutual

/-- The table that a nesting is. -/
def table : Nesting → SymbolTable
  | leaf t => t
  | node parts => chain (tables parts)

def tables : List Nesting → List SymbolTable
  | [] => []
  | n :: ns => n.table :: tables ns

end

mutual

/-- The tables in a nesting that are not chained from others, in order. -/
def leaves : Nesting → List SymbolTable
  | leaf t => [t]
  | node parts => leavesAll parts

def leavesAll : List Nesting → List SymbolTable
  | [] => []
  | n :: ns => n.leaves ++ leavesAll ns

end

end Nesting

mutual

/-- A nesting answers like the chain of its leaves. -/
theorem chain_leaves : ∀ n : Nesting, chain n.leaves = n.table
  | .leaf t => by
    apply eq_of_find
    intro name
    rw [Nesting.leaves, Nesting.table, find_chain_cons]
    exact Finding.orElse_empty _
  | .node parts => by rw [Nesting.leaves, Nesting.table, chain_leavesAll parts]

theorem chain_leavesAll : ∀ ns : List Nesting, chain (Nesting.leavesAll ns) = chain (Nesting.tables ns)
  | [] => rfl
  | n :: ns => by
    apply eq_of_find
    intro name
    rw [Nesting.leavesAll, Nesting.tables, find_chain_append, find_chain_cons, chain_leaves n, chain_leavesAll ns]

end

/-! ## Resolving -/

theorem symbol_firstServing_congr {t t' : SymbolTable} (want : SymbolKind) : ∀ {ss : List Spelling},
    (∀ s ∈ ss, (t.find s.text).entry = (t'.find s.text).entry) →
    (t.firstServing want ss).symbol = (t'.firstServing want ss).symbol
  | [], _ => rfl
  | s :: ss, h => by
    obtain ⟨hs, hss⟩ := List.forall_mem_cons.1 h
    have ih := symbol_firstServing_congr want hss
    simp only [firstServing, hs]
    cases (t'.find s.text).entry with
    | none => exact ih
    | some e =>
      dsimp only
      split
      · rfl
      · exact ih

/-- What a name resolves to depends on the entries of its spellings alone. -/
theorem resolve_congr {t t' : SymbolTable} {c : Config} {name : SymbolName} (want : SymbolKind)
    (h : ∀ s ∈ c.spellings name, (t.find s.text).entry = (t'.find s.text).entry) :
    t.resolve c name want = t'.resolve c name want := by
  rw [resolve, resolve, lookup, lookup, symbol_firstServing_congr want h]

/-- A table that holds no spelling of a name can be left out anywhere in a chain. -/
theorem resolve_chain_of_absent {before after : List SymbolTable} {t : SymbolTable} {c : Config} {name : SymbolName}
    (want : SymbolKind) (h : ∀ s ∈ c.spellings name, (t.find s.text).entry = none) :
    (chain (before ++ t :: after)).resolve c name want = (chain (before ++ after)).resolve c name want := by
  apply resolve_congr
  intro s hs
  simp only [find_chain_append, find_chain_cons, Finding.entry_orElse, h s hs, Option.none_or]

end SymbolTable

/-! ## Registries in one -/

theorem Dictionary.lookupEntry_of_mem {α : Type} {key : String} {value : α} : ∀ {es : List (String × α)},
    (es.map (·.1)).Nodup → (key, value) ∈ es → lookupEntry key es = some value
  | [], _, h => by cases h
  | (k, v) :: es, hnodup, h => by
    rw [List.map_cons, List.nodup_cons] at hnodup
    rcases List.mem_cons.1 h with heq | h
    · cases heq
      exact if_pos rfl
    · have hne : k ≠ key := fun heq => hnodup.1 (List.mem_map.2 ⟨(key, value), h, heq.symm⟩)
      rw [lookupEntry, if_neg hne, lookupEntry_of_mem hnodup.2 h]

namespace Registry

/-- The definition of a name as what it is. -/
def definition? (name : String) (e : SymbolEntry) : Option Edit := e.kind.map (.define name e.address)

/-- Definitions of all that a registry holds, in its order. -/
def definitions (r : Registry) : List Edit := r.symbols.entries.filterMap fun (name, e) => definition? name e

/-- One registry for several: all entries of the last are defined, then those of the one before it, up to the first. -/
def merge (rs : List Registry) : Registry := ofEdits (rs.reverse.flatMap definitions)

variable {name : String}

/-- What a registry has been given it holds in front of what it held. -/
theorem find?_after_definitions : ∀ {es : List (String × SymbolEntry)} (r : Registry), (es.map (·.1)).Nodup →
    (∀ k e, (k, e) ∈ es → e.address ≠ 0 ∧ ∃ kind, e.kind = some kind) →
    (r.after (es.filterMap fun (k, e) => definition? k e)).find? name =
      (Dictionary.lookupEntry name es).or (r.find? name)
  | [], _, _, _ => rfl
  | (k, ⟨address, kind⟩) :: es, r, hnodup, hdefined => by
    rw [List.map_cons, List.nodup_cons] at hnodup
    obtain ⟨haddress, kind, rfl⟩ := hdefined k _ List.mem_cons_self
    have ih := find?_after_definitions (r.edit (.define k address kind)) hnodup.2 fun k e h =>
      hdefined k e (List.mem_cons_of_mem _ h)
    have hnone : Dictionary.lookupEntry k es = none := by
      have hmem := (Dictionary.mem_keys_iff ⟨es⟩ k).not.1 hnodup.1
      simpa [Dictionary.find?] using hmem
    have hfirst : r.after (((k, ⟨address, some kind⟩) :: es).filterMap fun (k, e) => definition? k e) =
        (r.edit (.define k address kind)).after (es.filterMap fun (k, e) => definition? k e) := rfl
    rw [hfirst, ih, find?_edit, if_neg (by simp), Edit.given?, Dictionary.lookupEntry]
    by_cases hk : k = name
    · subst hk
      simp [haddress, hnone]
    · simp [hk, Ne.symm hk]

theorem find?_after_definitions_ofEdits (r : Registry) (edits : List Edit) :
    (r.after (ofEdits edits).definitions).find? name = ((ofEdits edits).find? name).or (r.find? name) := by
  apply find?_after_definitions r (nodup_ofEdits edits)
  intro k e h
  have hfind : (ofEdits edits).find? k = some e := Dictionary.lookupEntry_of_mem (nodup_ofEdits edits) h
  obtain ⟨-, t, -, -, ht⟩ := (find?_ofEdits edits k e).1 hfind
  exact Edit.exists_of_given?_eq_some ht

/-- Of several registries in one, the first that holds a name decides. -/
theorem find?_merge (name : String) : ∀ histories : List (List Edit),
    (merge (histories.map ofEdits)).find? name = (histories.map ofEdits).findSome? (·.find? name)
  | [] => rfl
  | edits :: histories => by
    have ih := find?_merge name histories
    have hlast : merge ((edits :: histories).map ofEdits) =
        (merge (histories.map ofEdits)).after (ofEdits edits).definitions := by
      rw [merge, merge, ofEdits, ofEdits, ← after_append]
      simp
    rw [hlast, find?_after_definitions_ofEdits, ih, List.map_cons, List.findSome?_cons]
    cases (ofEdits edits).find? name <;> rfl

theorem find_table (r : Registry) (name : String) : r.table.find name = ⟨r.find? name, []⟩ := rfl

theorem find_chain_tables (name : String) : ∀ rs : List Registry,
    (SymbolTable.chain (rs.map table)).find name = ⟨rs.findSome? (·.find? name), []⟩
  | [] => rfl
  | r :: rs => by
    rw [List.map_cons, SymbolTable.find_chain_cons, find_chain_tables name rs, find_table, List.findSome?_cons]
    cases r.find? name <;> rfl

/-- A chain of registries is one registry. -/
theorem chain_eq_merge (histories : List (List Edit)) :
    SymbolTable.chain ((histories.map ofEdits).map table) = (merge (histories.map ofEdits)).table := by
  apply SymbolTable.eq_of_find
  intro name
  rw [find_chain_tables, find_table, find?_merge]

end Registry

namespace SymbolTable

/-- **A chain resolves names as one table.** Against a chain of registries, however they came about, a name resolves as
against the one registry in which the entries of the last have been defined first and those of the first last, be it to a
symbol or to an error, and with the same log. A chain within chains answers like the chain of all its tables. And a table
that holds no spelling of a name can be added anywhere, also within chains, without a difference to what the name resolves
to. -/
theorem chain_resolves_as_merge (histories : List (List Registry.Edit)) (c : Config) (name : SymbolName)
    (want : SymbolKind) :
    let rs := histories.map Registry.ofEdits
    (chain (rs.map Registry.table)).resolve c name want = (Registry.merge rs).table.resolve c name want ∧
    (chain (rs.map Registry.table)).lookup c name want = (Registry.merge rs).table.lookup c name want ∧
    (∀ (n : Nesting) (key : String), (chain n.leaves).find key = n.table.find key) ∧
    (∀ (before after : List SymbolTable) (t : SymbolTable), (∀ s ∈ c.spellings name, (t.find s.text).entry = none) →
      (chain (before ++ t :: after)).resolve c name want = (chain (before ++ after)).resolve c name want) ∧
    ∀ (n n' : Nesting) (before after : List SymbolTable) (t : SymbolTable), n.leaves = before ++ after →
      n'.leaves = before ++ t :: after → (∀ s ∈ c.spellings name, (t.find s.text).entry = none) →
      n'.table.resolve c name want = n.table.resolve c name want := by
  intro rs
  have hmerge : chain (rs.map Registry.table) = (Registry.merge rs).table := Registry.chain_eq_merge histories
  refine ⟨by rw [hmerge], by rw [hmerge], fun n key => by rw [chain_leaves], fun before after t h => ?_, ?_⟩
  · exact resolve_chain_of_absent want h
  · intro n n' before after t hn hn' h
    rw [← chain_leaves n, ← chain_leaves n', hn, hn']
    exact resolve_chain_of_absent want h

end SymbolTable

end SymbolBridge
