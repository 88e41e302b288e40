import SymbolBridge.Proofs.Symbol.Resolver

/-!
# Which spelling of a name wins

A name may be spelled plain and, if there is a decoration, decorated (`Config.Spelled`), and the configuration says
which of the two is tried first (`Config.Precedes`). A name resolves to the spelling that serves and that no other
serving one precedes (`SymbolTable.resolve_eq_ok_iff`). Where no spelling serves, the error names the one that precedes
no other (`SymbolTable.resolve_eq_error_iff_spelled`). So the order of lookup decides between two spellings that serve
and nothing else, and a decoration only adds a way to resolve (`SymbolTable.resolves_to_first_serving`).
-/

namespace SymbolBridge

/-! ## Spellings in their order -/

namespace Config

variable {c : Config} {name : SymbolName} {s s' : Spelling}

/-- A name may be spelled as it is, and with the decoration in front if there is one. -/
inductive Spelled (c : Config) (name : SymbolName) : Spelling → Prop
  | plain : Spelled c name ⟨name.text, false⟩
  | decorated {mark : Char} : c.decorationChar? = some mark → Spelled c name ⟨mark.toString ++ name.text, true⟩

/-- The first spelling is tried before the second. -/
def Precedes (c : Config) (s s' : Spelling) : Prop :=
  match c.lookupOrder with
  | .undecoratedFirst => s.decorated = false ∧ s'.decorated = true
  | .decoratedFirst => s.decorated = true ∧ s'.decorated = false

theorem Precedes.asymm (h : c.Precedes s s') : ¬ c.Precedes s' s := by
  unfold Precedes at h ⊢
  cases ho : c.lookupOrder <;> simp_all

/-- Of two spellings of a name, one is tried before the other. -/
theorem Spelled.eq_or_precedes (h : c.Spelled name s) (h' : c.Spelled name s') :
    s = s' ∨ c.Precedes s s' ∨ c.Precedes s' s := by
  unfold Precedes
  cases h with
  | plain =>
    cases h' with
    | plain => exact .inl rfl
    | decorated _ => cases c.lookupOrder <;> simp
  | decorated hd =>
    cases h' with
    | plain => cases c.lookupOrder <;> simp
    | decorated hd' =>
      rw [hd] at hd'
      cases hd'
      exact .inl rfl

theorem mem_spellings_iff : s ∈ c.spellings name ↔ c.Spelled name s := by
  constructor
  · intro h
    obtain rfl | ⟨mark, hd, rfl⟩ := mem_spellings h
    · exact .plain
    · exact .decorated hd
  · intro h
    unfold spellings
    cases h with
    | plain => cases c.decorationChar? <;> cases c.lookupOrder <;> simp
    | decorated hd =>
      rw [hd]
      cases c.lookupOrder <;> simp

/-- The spellings of a name stand in the order in which they are tried. -/
theorem pairwise_spellings (c : Config) (name : SymbolName) : (c.spellings name).Pairwise c.Precedes := by
  unfold spellings Precedes
  cases c.decorationChar? with
  | none => simp
  | some mark => cases c.lookupOrder <;> simp

/-- The last spelling is the one that precedes no other. -/
theorem getLast?_spellings_eq_some_iff :
    (c.spellings name).getLast? = some s ↔ c.Spelled name s ∧ ∀ s', c.Spelled name s' → ¬ c.Precedes s s' := by
  have hlast : ∀ last, (c.spellings name).getLast? = some last →
      c.Spelled name last ∧ ∀ s', c.Spelled name s' → ¬ c.Precedes last s' := by
    intro last hlast
    obtain ⟨front, hfront⟩ := List.getLast?_eq_some_iff.1 hlast
    have hsorted := c.pairwise_spellings name
    rw [hfront, List.pairwise_append] at hsorted
    refine ⟨mem_spellings_iff.1 (List.mem_of_getLast? hlast), fun s' hs' hlt => ?_⟩
    rw [← mem_spellings_iff, hfront, List.mem_append, List.mem_singleton] at hs'
    rcases hs' with hs' | rfl
    · exact hlt.asymm (hsorted.2.2 s' hs' last List.mem_cons_self)
    · exact hlt.asymm hlt
  refine ⟨hlast s, fun ⟨hs, hmax⟩ => ?_⟩
  obtain ⟨last, hl⟩ : ∃ last, (c.spellings name).getLast? = some last :=
    ⟨_, List.getLast?_eq_some_getLast (List.ne_nil_of_mem (mem_spellings_iff.2 hs))⟩
  obtain ⟨hspelled, hmax'⟩ := hlast last hl
  obtain rfl | hlt | hlt := hs.eq_or_precedes hspelled
  · exact hl
  · exact absurd hlt (hmax last hspelled)
  · exact absurd hlt (hmax' s hs)

/-- Another order of lookup leaves a name the spellings it has. -/
theorem spelled_lookupOrder {order : LookupOrder} :
    Spelled { c with lookupOrder := order } name s ↔ c.Spelled name s := by
  constructor
  · rintro (_ | hd)
    · exact .plain
    · exact .decorated hd
  · rintro (_ | hd)
    · exact .plain
    · exact .decorated hd

end Config

/-! ## The spelling that wins -/

namespace SymbolTable

variable {t : SymbolTable} {c : Config} {name : SymbolName} {want : SymbolKind} {found : ResolvedSymbol}

/-- The table holds an entry under a spelling that may be used as a symbol of a category: its own category is that one
or is not known. -/
def Serves (t : SymbolTable) (want : SymbolKind) (s : Spelling) (e : SymbolEntry) : Prop :=
  (t.find s.text).entry = some e ∧ (e.kind = none ∨ e.kind = some want)

theorem misses_iff {s : Spelling} : t.Misses want s ↔ ∀ e, ¬ t.Serves want s e := by
  simp only [Misses, Serves, ← SymbolEntry.serves_iff, not_and, Bool.not_eq_true]

/-- The symbol under one spelling, if its entry serves. -/
def pick (t : SymbolTable) (want : SymbolKind) (s : Spelling) : Option ResolvedSymbol :=
  ((t.find s.text).entry.filter (·.serves want)).map (⟨s, ·⟩)

theorem pick_eq_some_iff {s : Spelling} :
    t.pick want s = some found ↔ s = found.spelling ∧ t.Serves want found.spelling found.entry := by
  obtain ⟨spelling, entry⟩ := found
  simp only [pick, Option.map_eq_some_iff, Option.filter_eq_some_iff, SymbolEntry.serves_iff, ResolvedSymbol.mk.injEq,
    Serves]
  constructor
  · rintro ⟨e, ⟨he, hs⟩, rfl, rfl⟩
    exact ⟨rfl, he, hs⟩
  · rintro ⟨rfl, he, hs⟩
    exact ⟨entry, ⟨he, hs⟩, rfl, rfl⟩

theorem pick_eq_none_iff {s : Spelling} : t.pick want s = none ↔ ∀ e, ¬ t.Serves want s e := by
  simp only [Option.eq_none_iff_forall_ne_some, ne_eq, pick_eq_some_iff, not_and]
  constructor
  · exact fun h e => h ⟨s, e⟩ rfl
  · rintro h found rfl
    exact h found.entry

/-- Of some spellings in a row, the first that serves is taken. -/
theorem symbol_firstServing (t : SymbolTable) (want : SymbolKind) : ∀ ss : List Spelling,
    (t.firstServing want ss).symbol = ss.findSome? (t.pick want)
  | [] => rfl
  | s :: ss => by
    have ih := symbol_firstServing t want ss
    rw [firstServing, List.findSome?_cons, pick]
    cases (t.find s.text).entry with
    | none => exact ih
    | some e => cases hs : e.serves want <;> simp [hs, ih, Option.filter_some]

/-- A name resolves to the spelling that serves, if no serving one is tried before. -/
theorem resolve_eq_ok_iff : t.resolve c name want = .ok found ↔
    c.Spelled name found.spelling ∧ t.Serves want found.spelling found.entry ∧
      ∀ s, c.Spelled name s → c.Precedes s found.spelling → ∀ e, ¬ t.Serves want s e := by
  have hresolve : t.resolve c name want = .ok found ↔ (c.spellings name).findSome? (t.pick want) = some found := by
    rw [resolve, lookup, symbol_firstServing]
    cases (c.spellings name).findSome? (t.pick want) <;> simp
  have hsorted := c.pairwise_spellings name
  rw [hresolve, List.findSome?_eq_some_iff]
  constructor
  · rintro ⟨before, s, after, hsplit, hpick, hbefore⟩
    obtain ⟨rfl, hserves⟩ := pick_eq_some_iff.1 hpick
    rw [hsplit, List.pairwise_append, List.pairwise_cons] at hsorted
    refine ⟨Config.mem_spellings_iff.1 (hsplit ▸ List.mem_append_right _ List.mem_cons_self), hserves,
      fun s hs hlt => ?_⟩
    rw [← Config.mem_spellings_iff, hsplit, List.mem_append, List.mem_cons] at hs
    rcases hs with hs | rfl | hs
    · exact pick_eq_none_iff.1 (hbefore s hs)
    · exact absurd hlt hlt.asymm
    · exact absurd hlt (hsorted.2.1.1 s hs).asymm
  · rintro ⟨hs, hserves, hfirst⟩
    obtain ⟨before, after, hsplit⟩ := List.append_of_mem (Config.mem_spellings_iff.2 hs)
    rw [hsplit, List.pairwise_append] at hsorted
    refine ⟨before, found.spelling, after, hsplit, pick_eq_some_iff.2 ⟨rfl, hserves⟩, fun s hmem => ?_⟩
    have hspelled : c.Spelled name s := Config.mem_spellings_iff.1 (hsplit ▸ List.mem_append_left _ hmem)
    exact pick_eq_none_iff.2 (hfirst s hspelled (hsorted.2.2 s hmem _ List.mem_cons_self))

/-- Where no spelling serves, the error names the one that is tried last. -/
theorem resolve_eq_error_iff_spelled {err : BridgeError} : t.resolve c name want = .error err ↔
    (∀ s e, c.Spelled name s → ¬ t.Serves want s e) ∧
      ∃ last, (c.Spelled name last ∧ ∀ s, c.Spelled name s → ¬ c.Precedes last s) ∧
        err = .notFound last.text want := by
  simp only [resolve_eq_error_iff, Config.mem_spellings_iff, Config.getLast?_spellings_eq_some_iff, misses_iff]
  exact and_congr_left fun _ => ⟨fun h s e hs => h s hs e, fun h s hs e => h s e hs⟩

/-- A name resolves if one of its spellings serves. -/
theorem exists_resolve_iff :
    (∃ found, t.resolve c name want = .ok found) ↔ ∃ s e, c.Spelled name s ∧ t.Serves want s e := by
  constructor
  · rintro ⟨found, h⟩
    obtain ⟨hs, hserves, -⟩ := resolve_eq_ok_iff.1 h
    exact ⟨found.spelling, found.entry, hs, hserves⟩
  · rintro ⟨s, e, hs, hserves⟩
    cases hr : t.resolve c name want with
    | ok found => exact ⟨found, rfl⟩
    | error err => exact absurd hserves ((resolve_eq_error_iff_spelled.1 hr).1 s e hs)

/-- Both spellings of a name serve. -/
def BothServe (t : SymbolTable) (c : Config) (name : SymbolName) (want : SymbolKind) : Prop :=
  ∃ mark, c.decorationChar? = some mark ∧ (∃ e, t.Serves want ⟨name.text, false⟩ e) ∧
    ∃ e, t.Serves want ⟨mark.toString ++ name.text, true⟩ e

/-- One spelling has one entry, so two symbols of a name have two spellings. -/
theorem bothServe_of_ne {found' : ResolvedSymbol} (hs : c.Spelled name found.spelling)
    (hs' : c.Spelled name found'.spelling) (h : t.Serves want found.spelling found.entry)
    (h' : t.Serves want found'.spelling found'.entry) (hne : found ≠ found') : t.BothServe c name want := by
  obtain ⟨s, e⟩ := found
  obtain ⟨s', e'⟩ := found'
  have hspelling : s ≠ s' := by
    rintro rfl
    exact hne (congrArg (ResolvedSymbol.mk s) (Option.some.inj (h.1.symm.trans h'.1)))
  cases hs with
  | plain =>
    cases hs' with
    | plain => exact absurd rfl hspelling
    | decorated hd => exact ⟨_, hd, ⟨e, h⟩, ⟨e', h'⟩⟩
  | decorated hd =>
    cases hs' with
    | plain => exact ⟨_, hd, ⟨e', h'⟩, ⟨e, h⟩⟩
    | decorated hd' =>
      rw [hd] at hd'
      cases hd'
      exact absurd rfl hspelling

/-- Another order of lookup resolves a name to another symbol only where it has two that serve. -/
theorem bothServe_of_resolve_ne {order : LookupOrder} (h : (t.resolve c name want).toOption ≠
    (t.resolve { c with lookupOrder := order } name want).toOption) : t.BothServe c name want := by
  have hiff : (∃ found, t.resolve { c with lookupOrder := order } name want = .ok found) ↔
      ∃ found, t.resolve c name want = .ok found := by
    simp only [exists_resolve_iff, Config.spelled_lookupOrder]
  cases hr : t.resolve c name want with
  | error err =>
    cases hr' : t.resolve { c with lookupOrder := order } name want with
    | error err' =>
      rw [hr, hr'] at h
      exact absurd rfl h
    | ok found' =>
      obtain ⟨found, hok⟩ := hiff.1 ⟨found', hr'⟩
      rw [hr] at hok
      cases hok
  | ok found =>
    obtain ⟨found', hr'⟩ := hiff.2 ⟨found, hr⟩
    obtain ⟨hs, hserves, -⟩ := resolve_eq_ok_iff.1 hr
    obtain ⟨hs', hserves', -⟩ := resolve_eq_ok_iff.1 hr'
    rw [Config.spelled_lookupOrder] at hs'
    refine bothServe_of_ne hs hs' hserves hserves' fun heq => h ?_
    rw [hr, hr', heq]

/-- **Which symbol a name resolves to.** A name resolves exactly if one of its spellings serves, and it does so to the
first of those that serve. Otherwise the error is that of a function or of a symbol, and it names the last spelling.
Another order of lookup never changes whether a name resolves, and it changes to which symbol only where both spellings
serve. And a name that resolves without a decoration does so with any. -/
theorem resolves_to_first_serving (t : SymbolTable) (c : Config) (name : SymbolName) (want : SymbolKind) :
    ((∃ found, t.resolve c name want = .ok found) ↔ ∃ s e, c.Spelled name s ∧ t.Serves want s e) ∧
    (∀ found, t.resolve c name want = .ok found ↔
      c.Spelled name found.spelling ∧ t.Serves want found.spelling found.entry ∧
        ∀ s, c.Spelled name s → c.Precedes s found.spelling → ∀ e, ¬ t.Serves want s e) ∧
    (∀ err, t.resolve c name want = .error err ↔
      (∀ s e, c.Spelled name s → ¬ t.Serves want s e) ∧
        ∃ last, (c.Spelled name last ∧ ∀ s, c.Spelled name s → ¬ c.Precedes last s) ∧
          err = match want with
            | .code => .functionNotFound last.text
            | .data => .symbolNotFound last.text) ∧
    (∀ order, ((∃ found, t.resolve { c with lookupOrder := order } name want = .ok found) ↔
        ∃ found, t.resolve c name want = .ok found) ∧
      ((t.resolve c name want).toOption ≠ (t.resolve { c with lookupOrder := order } name want).toOption →
        t.BothServe c name want)) ∧
    ∀ bare : Config, bare.decorationChar? = none →
      (∃ found, t.resolve bare name want = .ok found) → ∃ found, t.resolve c name want = .ok found := by
  refine ⟨exists_resolve_iff, fun _ => resolve_eq_ok_iff, fun err => ?_, fun order => ⟨?_, bothServe_of_resolve_ne⟩,
    fun bare hbare => ?_⟩
  · rw [resolve_eq_error_iff_spelled]
    cases want <;> rfl
  · simp only [exists_resolve_iff, Config.spelled_lookupOrder]
  · simp only [exists_resolve_iff]
    rintro ⟨s, e, hs, hserves⟩
    cases hs with
    | plain => exact ⟨_, e, .plain, hserves⟩
    | decorated hd =>
      rw [hbare] at hd
      cases hd

/-- Where neither spelling serves, another order of lookup makes the error name the other one. -/
theorem order_changes_named_spelling :
    (chain []).resolve {} ⟨"f"⟩ .code = .error (.functionNotFound "_f") ∧
    (chain []).resolve { lookupOrder := .decoratedFirst } ⟨"f"⟩ .code = .error (.functionNotFound "f") ∧
    ¬ (chain []).BothServe {} ⟨"f"⟩ .code := by
  have hmark : Config.decorationChar? {} = some '_' := by simp [Config.decorationChar?]
  have hmark' : Config.decorationChar? { lookupOrder := .decoratedFirst } = some '_' := by simp [Config.decorationChar?]
  refine ⟨?_, ?_, ?_⟩
  · simp only [resolve, lookup, Config.spellings, hmark]
    rfl
  · simp only [resolve, lookup, Config.spellings, hmark']
    rfl
  · rintro ⟨_, -, ⟨e, he, -⟩, -⟩
    cases he

end SymbolTable

end SymbolBridge
