import SymbolBridge.Symbol.Resolver

/-!
# What names are resolved to

A lookup gives nothing exactly if no spelling of the name has an entry that serves (`resolve_eq_error_iff`); the error
names the spelling that is tried last. What it gives otherwise is the table's entry for a spelling of the name, and serves
(`resolve_eq_ok`); the spellings are the plain and the decorated one (`Config.Spells`).
-/

namespace SymbolBridge.SymbolTable

variable {t : SymbolTable} {want : SymbolKind}

/-- No entry under a spelling may be used as a symbol of a category. -/
def Misses (t : SymbolTable) (want : SymbolKind) (s : Spelling) : Prop :=
  ∀ e, (t.find s.text).entry = some e → e.serves want = false

theorem firstServing_eq_none_iff : ∀ {ss : List Spelling},
    (t.firstServing want ss).symbol = none ↔ ∀ s ∈ ss, t.Misses want s
  | [] => by simp [firstServing]
  | s :: ss => by
    rw [List.forall_mem_cons, ← @firstServing_eq_none_iff ss, firstServing, Misses]
    cases he : (t.find s.text).entry with
    | none => simp
    | some e => by_cases hs : e.serves want <;> simp [hs]

theorem spellings_ne_nil (c : Config) (name : SymbolName) : c.spellings name ≠ [] := by
  unfold Config.spellings
  cases c.decorationChar? with
  | none => simp
  | some mark => cases c.lookupOrder <;> simp

/-- A name fails to resolve exactly if no spelling of it serves. -/
theorem resolve_eq_error_iff {c : Config} {name : SymbolName} {e : BridgeError} :
    t.resolve c name want = .error e ↔ (∀ s ∈ c.spellings name, t.Misses want s) ∧
      ∃ last, (c.spellings name).getLast? = some last ∧ e = .notFound last.text want := by
  obtain ⟨last, hlast⟩ : ∃ last, (c.spellings name).getLast? = some last :=
    ⟨_, List.getLast?_eq_some_getLast (spellings_ne_nil c name)⟩
  rw [← firstServing_eq_none_iff, resolve, lookup]
  cases hs : (t.firstServing want (c.spellings name)).symbol with
  | none => simp [hlast, eq_comm]
  | some found => simp

theorem firstServing_eq_some : ∀ {ss : List Spelling} {found : ResolvedSymbol},
    (t.firstServing want ss).symbol = some found →
      found.spelling ∈ ss ∧ (t.find found.spelling.text).entry = some found.entry ∧ found.entry.serves want = true
  | [], _, h => by cases h
  | s :: ss, found, h => by
    have hrest : (t.firstServing want ss).symbol = some found → found.spelling ∈ s :: ss ∧
        (t.find found.spelling.text).entry = some found.entry ∧ found.entry.serves want = true := fun h =>
      (firstServing_eq_some h).imp_left (List.mem_cons_of_mem s)
    rw [firstServing] at h
    cases he : (t.find s.text).entry with
    | none => exact hrest (by simpa [he] using h)
    | some e =>
      by_cases hs : e.serves want
      · obtain rfl : ⟨s, e⟩ = found := by simpa [he, hs] using h
        exact ⟨List.mem_cons_self, he, hs⟩
      · exact hrest (by simpa [he, hs] using h)

/-- A name is resolved to the entry of one of its spellings, which serves. -/
theorem resolve_eq_ok {c : Config} {name : SymbolName} {found : ResolvedSymbol}
    (h : t.resolve c name want = .ok found) : found.spelling ∈ c.spellings name ∧
      (t.find found.spelling.text).entry = some found.entry ∧ found.entry.serves want = true := by
  rw [resolve, lookup] at h
  cases hs : (t.firstServing want (c.spellings name)).symbol with
  | none =>
    rw [hs] at h
    cases h
  | some s =>
    rw [hs] at h
    cases h
    exact firstServing_eq_some hs

end SymbolBridge.SymbolTable

namespace SymbolBridge

/-- The spellings of the name that is kept of a text: plain, and with the decoration if there is one. -/
inductive Config.Spells (c : Config) (raw : String) : String → Prop
  | plain {name : SymbolName} : SymbolName.ofText c.maxNameLength raw = .ok name → Spells c raw name.text
  | decorated {name : SymbolName} {mark : Char} : SymbolName.ofText c.maxNameLength raw = .ok name →
      c.decorationChar? = some mark → Spells c raw (mark.toString ++ name.text)

/-- The spellings of a name are its text and, if there is a decoration, the text with the mark in front. -/
theorem Config.mem_spellings {c : Config} {name : SymbolName} {s : Spelling} (h : s ∈ c.spellings name) :
    s = ⟨name.text, false⟩ ∨ ∃ mark, c.decorationChar? = some mark ∧ s = ⟨mark.toString ++ name.text, true⟩ := by
  unfold Config.spellings at h
  cases hd : c.decorationChar? with
  | none => exact .inl (by simpa [hd] using h)
  | some mark =>
    have hmark : s = ⟨name.text, false⟩ ∨ s = ⟨mark.toString ++ name.text, true⟩ := by
      cases ho : c.lookupOrder with
      | undecoratedFirst => simpa [hd, ho] using h
      | decoratedFirst => simpa [hd, ho, or_comm] using h
    exact hmark.imp_right fun heq => ⟨mark, rfl, heq⟩

theorem Config.spells_of_mem {c : Config} {raw : String} {name : SymbolName} {s : Spelling}
    (hn : SymbolName.ofText c.maxNameLength raw = .ok name) (h : s ∈ c.spellings name) : c.Spells raw s.text := by
  obtain rfl | ⟨mark, hd, rfl⟩ := Config.mem_spellings h
  · exact .plain hn
  · exact .decorated hn hd

theorem SymbolEntry.serves_iff {e : SymbolEntry} {want : SymbolKind} :
    e.serves want = true ↔ e.kind = none ∨ e.kind = some want := by
  unfold SymbolEntry.serves
  cases e.kind with
  | none => simp
  | some kind => simp

end SymbolBridge
