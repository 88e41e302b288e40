import SymbolBridge.Proofs.Bridge.Invoke
import SymbolBridge.Proofs.Bridge.Silent
import SymbolBridge.Proofs.Bridge.Variables

/-!
# What a bridge reaches

Native code is called at an address, and a global is read or overwritten at one: these are the targets of a world. A
request reaches at most one target (`serve_reaches`), at an address that the table has for the request's name at that
moment, in the state of the host where the request is served, under the plain or the decorated spelling, and not as a symbol of another category (`Request.LeadsTo`).
-/

namespace SymbolBridge

variable {σ : Type}

/-- An address reached as a symbol of a category. -/
structure Target where
  kind : SymbolKind
  address : Word
  deriving DecidableEq, Repr

/-- What an action reaches. -/
def Action.target? : Action → Option Target
  | .called address _ => some ⟨.code, address⟩
  | .loaded address _ => some ⟨.data, address⟩
  | .stored address _ => some ⟨.data, address⟩
  | _ => none

/-- The targets that have been reached in a world, in order. -/
def World.targets (w : World σ) : List Target := w.seen Action.target?

namespace World

variable {w w' : World σ}

theorem targets_eq_effects (w : World σ) : w.targets = w.effects.filterMap Action.target? := by
  rw [targets, seen, effects, List.filterMap_filter]
  refine List.filterMap_congr fun a _ => ?_
  cases a <;> rfl

theorem targets_of_effects {as : List Action} (h : w'.effects = w.effects ++ as) :
    w'.targets = w.targets ++ as.filterMap Action.target? := by
  rw [targets_eq_effects, targets_eq_effects, h, List.filterMap_append]

theorem SameButLog.targets (h : w.SameButLog w') : w'.targets = w.targets := by
  rw [targets_eq_effects, targets_eq_effects, h.effects]

end World

/-- A table has a symbol at an address under a spelling, and does not know it to be of another category. -/
def SymbolTable.Offers (t : SymbolTable) (spelling : String) (target : Target) : Prop :=
  ∃ e, (t.find spelling).entry = some e ∧ e.address = target.address ∧ (e.kind = none ∨ e.kind = some target.kind)

namespace Bridge

variable {b : Bridge σ}

/-- The name that a request looks up, and the category of symbol it wants. -/
def Request.subject? : Request → Option (String × SymbolKind)
  | .call name _ => some (name, .code)
  | .get name => some (name, .data)
  | .set name _ => some (name, .data)
  | .line _ => none

/-- The table of a bridge, as it stands in a state, offers a target under a spelling of the name that a request looks
up. -/
def Request.LeadsTo (r : Request) (b : Bridge σ) (state : σ) (target : Target) : Prop :=
  ∃ raw spelling, r.subject? = some (raw, target.kind) ∧ b.config.Spells raw spelling ∧
    (b.symbols state).Offers spelling target

theorem leadsTo_of_resolve {r : Request} {state : σ} {raw : String} {want : SymbolKind} {name : SymbolName}
    {found : ResolvedSymbol} (hr : r.subject? = some (raw, want))
    (hn : SymbolName.ofText b.config.maxNameLength raw = .ok name)
    (hf : (b.symbols state).resolve b.config name want = .ok found) :
    r.LeadsTo b state ⟨want, found.entry.address⟩ := by
  obtain ⟨hmem, hfind, hserves⟩ := SymbolTable.resolve_eq_ok hf
  exact ⟨raw, _, hr, Config.spells_of_mem hn hmem, found.entry, hfind, rfl, SymbolEntry.serves_iff.1 hserves⟩

theorem leadsTo_of_names {r : Request} {state : σ} {raw : String} {c : GlobalCell}
    (hr : r.subject? = some (raw, .data)) (hc : b.Names state raw c) : r.LeadsTo b state ⟨.data, c.address⟩ := by
  obtain ⟨name, found, hn, hf, rfl⟩ := hc
  exact leadsTo_of_resolve hr hn hf

/-- A request reaches one target at most, which its name leads to. -/
theorem serve_reaches (b : Bridge σ) (host : Host σ) (r : Request) (w : World σ) :
    ∃ reached : Option Target, (r.serve b host w).2.targets = w.targets ++ reached.toList ∧
      ∀ target ∈ reached, r.LeadsTo b w.host target := by
  have hnone : w.SameButLog (r.serve b host w).2 → ∃ reached : Option Target,
      (r.serve b host w).2.targets = w.targets ++ reached.toList ∧ ∀ target ∈ reached, r.LeadsTo b w.host target := fun h =>
    ⟨none, by rw [h.targets]; exact (List.append_nil _).symm, fun target ht => by cases ht⟩
  cases r with
  | call raw args =>
    rw [Request.serve, Op.bind_pure_run] at hnone ⊢
    rcases refused_or_called b host raw args w with ⟨e, -, -, hsame⟩ | ⟨c, hc, word, -, hmade, -⟩
    · exact hnone hsame
    · refine ⟨some ⟨.code, c.target.entry.address⟩, World.targets_of_effects hmade.effects, fun target ht => ?_⟩
      obtain rfl := Option.mem_some.1 ht
      exact leadsTo_of_resolve rfl hc.bounded hc.resolved
  | get raw =>
    rw [Request.serve, Op.bind_pure_run] at hnone ⊢
    by_cases hn : ∃ c, b.Names w.host raw c
    · obtain ⟨c, hc⟩ := hn
      refine ⟨some ⟨.data, c.address⟩, World.targets_of_effects (getVariable_of_names hc).2.effects,
        fun target ht => ?_⟩
      obtain rfl := Option.mem_some.1 ht
      exact leadsTo_of_names rfl hc
    · exact hnone (getVariable_of_nameless (not_exists.1 hn)).2
  | set raw v =>
    rw [Request.serve, Op.bind_pure_run] at hnone ⊢
    by_cases hn : ∃ c, b.Names w.host raw c
    · obtain ⟨c, hc⟩ := hn
      refine ⟨some ⟨.data, c.address⟩, World.targets_of_effects (setVariable_of_names hc v).2.effects,
        fun target ht => ?_⟩
      obtain rfl := Option.mem_some.1 ht
      exact leadsTo_of_names rfl hc
    · exact hnone (setVariable_of_nameless (not_exists.1 hn) v).2
  | line prompt =>
    rw [Request.serve, Op.bind_pure_run] at hnone ⊢
    exact ⟨none, (List.append_nil _).symm, fun target ht => by cases ht⟩

end Bridge

end SymbolBridge
