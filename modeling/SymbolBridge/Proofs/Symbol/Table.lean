import SymbolBridge.Symbol.Table

/-!
# What tables hold

A chain gives the entry of the first of its tables that has one (`SymbolTable.chain_entry`). A registry holds what was
defined last under a name, unless it has been removed since (`Registry.find?_define`, `Registry.find?_remove`).
-/

namespace SymbolBridge

namespace SymbolTable

/-- The entry of a chain is that of the first table with an entry. -/
theorem chain_entry {α : Type} (table : α → SymbolTable) {name : String} {e : SymbolEntry} : ∀ {sources : List α},
    ((chain (sources.map table)).find name).entry = some e → ∃ before source after,
      sources = before ++ source :: after ∧ (∀ x ∈ before, ((table x).find name).entry = none) ∧
      ((table source).find name).entry = some e
  | [], h => by cases h
  | x :: xs, h => by
    cases hx : ((table x).find name).entry with
    | some e' =>
      have he : ((chain ((x :: xs).map table)).find name).entry = some e' := by
        simp only [chain, List.map_cons, chain.go, hx]
      obtain rfl := Option.some.inj (he.symm.trans h)
      exact ⟨[], x, xs, rfl, List.forall_mem_nil _, hx⟩
    | none =>
      have hrest : ((chain (xs.map table)).find name).entry = some e := by
        simpa only [chain, List.map_cons, chain.go, hx] using h
      obtain ⟨before, source, after, rfl, hbefore, hsource⟩ := chain_entry table hrest
      exact ⟨x :: before, source, after, rfl, List.forall_mem_cons.2 ⟨hx, hbefore⟩, hsource⟩

theorem withoutKinds_entry {t : SymbolTable} {name : String} {e : SymbolEntry}
    (h : (t.withoutKinds.find name).entry = some e) :
    ∃ e', (t.find name).entry = some e' ∧ e'.address = e.address := by
  obtain ⟨e', he', rfl⟩ := Option.map_eq_some_iff.1 h
  exact ⟨e', he', rfl⟩

end SymbolTable

namespace Registry

theorem find?_define (r : Registry) (name : String) (address : Word) (kind : SymbolKind) (k : String) :
    (r.define name address kind).find? k =
      if k = name ∧ address ≠ 0 then some ⟨address, some kind⟩ else r.find? k := by
  unfold define
  by_cases ha : address = 0
  · simp [ha]
  · simp only [ha, ↓reduceIte, find?, Dictionary.find?_insert, ne_eq, not_false_eq_true, and_true]

theorem find?_remove (r : Registry) (name k : String) :
    (r.remove name).find? k = if k = name then none else r.find? k :=
  Dictionary.find?_erase r.symbols name k

end Registry

end SymbolBridge
