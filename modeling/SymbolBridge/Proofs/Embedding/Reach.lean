import SymbolBridge.Proofs.Embedding.History

/-!
# What an embedded bridge reaches over time

A step of an embedding asks the bridge for some requests (`Embedding.Asks`), which are served one after the other
(`Served`); memory and targets are touched by serving them and by nothing else. Every target that is reached is held by
the tables at this very step, under a spelling of the name that the request looks up, and not as a symbol of another
category. What a registry offers there it has held before or has been defined since, so a name whose spellings are
removed or defined elsewhere no longer leads to its old address through them (`reaches_what_tables_hold`).
-/

namespace SymbolBridge

open Workbench (Tables TableSource)
open Bridge (Request)
open Script (Attempt Attempted)

variable {σ : Type}

/-! ## Requests in sequence -/

/-- From one world to another no memory was changed and no target was reached. -/
structure World.Untouched (w w' : World σ) : Prop where
  memory : w'.memory = w.memory
  targets : w'.targets = w.targets

theorem World.Untouched.refl (w : World σ) : w.Untouched w := ⟨rfl, rfl⟩

theorem World.Untouched.trans {u v w : World σ} (h : u.Untouched v) (h' : v.Untouched w) : u.Untouched w :=
  ⟨h'.memory.trans h.memory, h'.targets.trans h.targets⟩

theorem World.Idle.untouched {w w' : World σ} (h : w.Idle w') : w.Untouched w' := ⟨h.memory, h.targets⟩

theorem World.untouched_logged (w : World σ) (es : List Event) : w.Untouched (w.logged es) :=
  ⟨rfl, (w.sameButLog_logged es).targets⟩

/-- Some requests are served one after the other, each reaching a target that its name leads to then, or none. -/
inductive Served (b : Bridge σ) (host : Host σ) : World σ → List (Request × Option Target) → World σ → Prop where
  | nil {w w' : World σ} : w.Untouched w' → Served b host w [] w'
  | cons {w u w' : World σ} {r : Request} {reached : Option Target} {trail : List (Request × Option Target)} :
      w.Untouched u → (r.serve b host u).2.targets = u.targets ++ reached.toList →
      (∀ target ∈ reached, r.LeadsTo b u.host target) →
      Served b host (r.serve b host u).2 trail w' → Served b host w ((r, reached) :: trail) w'

variable {b : Bridge σ} {host : Host σ} {u v w w' : World σ} {trail : List (Request × Option Target)}

theorem Served.of_untouched (h : u.Untouched v) (h' : Served b host v trail w) : Served b host u trail w := by
  cases h' with
  | nil h' => exact .nil (h.trans h')
  | cons h' hreached hleads hrest => exact .cons (h.trans h') hreached hleads hrest

theorem Served.targets_eq (h : Served b host w trail w') :
    w'.targets = w.targets ++ trail.filterMap Prod.snd := by
  induction h with
  | nil h => rw [h.targets, List.filterMap_nil, List.append_nil]
  | @cons w u w' r reached trail h hreached _ _ ih =>
    have hcons : ((r, reached) :: trail).filterMap Prod.snd = reached.toList ++ trail.filterMap Prod.snd := by
      cases reached <;> rfl
    rw [ih, hreached, h.targets, hcons, List.append_assoc]

/-- Every target of some served requests is one that the name of its request led to in some state. -/
theorem Served.exists_leadsTo (h : Served b host w trail w') {r : Request} {target : Target}
    (hmem : (r, some target) ∈ trail) : ∃ state, r.LeadsTo b state target := by
  induction h with
  | nil => cases hmem
  | cons _ _ hleads _ ih =>
    rcases List.mem_cons.1 hmem with heq | hmem
    · cases heq
      exact ⟨_, hleads target rfl⟩
    · exact ih hmem

/-- A request is served before what comes after it. -/
theorem exists_served_cons (r : Request) (hu : w.Untouched u)
    (hrest : Served b host (r.serve b host u).2 trail w') :
    ∃ reached, Served b host w ((r, reached) :: trail) w' := by
  obtain ⟨reached, hreached, hleads⟩ := Bridge.serve_reaches b host r u
  exact ⟨reached, .cons hu hreached hleads hrest⟩

/-- What an entry point is asked for, if its arguments ask for anything. -/
def EntryPoint.request? (entry : EntryPoint) (args : List Value) : Option Request :=
  (Request.ofArguments entry args).toOption

def Script.Attempt.request? (a : Attempt) : Option Request := a.entry.request? a.args

theorem exists_served_tryDispatch (entry : EntryPoint) (args : List Value) (hu : w.Untouched u)
    (hv : (b.tryDispatch host entry args u).2.Untouched v) (hrest : Served b host v trail w') :
    ∃ trail', trail'.map Prod.fst = (entry.request? args).toList ++ trail.map Prod.fst ∧ Served b host w trail' w' := by
  rw [Bridge.tryDispatch_run] at hv
  rw [EntryPoint.request?]
  cases hr : Request.ofArguments entry args with
  | error e =>
    rw [hr] at hv
    exact ⟨trail, rfl, hrest.of_untouched (hu.trans hv)⟩
  | ok r =>
    rw [hr] at hv
    obtain ⟨reached, hserved⟩ := exists_served_cons r hu (hrest.of_untouched hv)
    exact ⟨(r, reached) :: trail, rfl, hserved⟩

/-- The attempts of a script are served like the requests they make. -/
theorem Script.Attempted.exists_served {as : List Attempt} (h : Attempted b host w as w') :
    ∃ trail, trail.map Prod.fst = as.filterMap Attempt.request? ∧ Served b host w trail w' := by
  induction h with
  | idle h => exact ⟨[], rfl, .nil h.untouched⟩
  | @cons w u v w' a as hidle hrun _ ih =>
    obtain ⟨trail, htrail, hserved⟩ := ih
    have hu : w.Untouched (u.recorded a.action) := hidle.untouched.trans ⟨rfl, u.seen_push a.action _ _ rfl⟩
    have hv : (b.tryDispatch host a.entry a.args (u.recorded a.action)).2.Untouched (a.settled v) := by
      rw [hrun]
      exact v.untouched_logged _
    obtain ⟨trail', htrail', hserved'⟩ := exists_served_tryDispatch a.entry a.args hu hv hserved
    refine ⟨trail', ?_, hserved'⟩
    have hrequest : (a :: as).filterMap Attempt.request? = (a.entry.request? a.args).toList ++
        as.filterMap Attempt.request? := by
      cases hr : a.entry.request? a.args <;> simp [Attempt.request?, hr]
    rw [htrail', htrail, hrequest]

/-! ## Tables -/

namespace Workbench

/-- The number of the registry that a source shows. -/
def TableSource.index? : TableSource → Option Nat
  | .registry index => some index
  | .unclassified index => some index
  | .library => none

/-- A source holds a symbol at an address under a spelling, and does not know it to be of another category; no source
before it holds the spelling. -/
def Tables.Holds (t : Tables) (source : TableSource) (spelling : String) (target : Target) : Prop :=
  ∃ before after e, t.order = before ++ source :: after ∧
    (∀ x ∈ before, ((t.source x).find spelling).entry = none) ∧ ((t.source source).find spelling).entry = some e ∧
    e.address = target.address ∧ (e.kind = none ∨ e.kind = some target.kind)

variable {t : Tables} {source : TableSource} {spelling : String} {target : Target}

theorem Tables.holds_of_offers (h : t.table.Offers spelling target) : ∃ source, t.Holds source spelling target := by
  obtain ⟨e, he, haddress, hkind⟩ := h
  obtain ⟨before, source, after, horder, hbefore, hsource⟩ := SymbolTable.chain_entry t.source he
  exact ⟨source, before, after, e, horder, hbefore, hsource, haddress, hkind⟩

/-- What a source holds its registry has. -/
theorem Tables.Holds.registry {i : Nat} (h : t.Holds source spelling target) (hi : source.index? = some i) :
    ∃ e, (t.registry i).find? spelling = some e ∧ e.address = target.address := by
  obtain ⟨-, -, e, -, -, he, haddress, -⟩ := h
  cases source with
  | registry index =>
    cases hi
    exact ⟨e, he, haddress⟩
  | unclassified index =>
    cases hi
    obtain ⟨e', he', heq⟩ := SymbolTable.withoutKinds_entry he
    exact ⟨e', he', heq.trans haddress⟩
  | library => cases hi

end Workbench

/-! ## Steps -/

namespace Embedding

/-- What a step asks the bridge for. -/
def Asks (host : Host σ) (s : Embedding σ) : Step → List Request → Prop
  | .serve request, rs => rs = [request]
  | .tryDispatch entry args, rs => rs = (entry.request? args).toList
  | .dispatch entry args, rs => rs = (entry.request? args).toList
  | .run name src, rs => ∃ as, Attempted s.engine.bridge host s.world as (s.engine.run host name src s.world).2 ∧
      rs = as.filterMap Attempt.request?
  | _, rs => rs = []

/-- What a step does to memory, and the targets it reaches, come from the requests it asks for. -/
theorem exists_trail (host : Host σ) (s : Embedding σ) (next : Step) : ∃ trail,
    s.Asks host next (trail.map Prod.fst) ∧ Served s.engine.bridge host s.world trail (s.step host next).world := by
  cases next with
  | serve request =>
    obtain ⟨reached, hserved⟩ := exists_served_cons request (.refl s.world) (.nil (.refl _))
    exact ⟨[(request, reached)], rfl, hserved⟩
  | tryDispatch entry args =>
    obtain ⟨trail, htrail, h⟩ := exists_served_tryDispatch entry args (.refl s.world) (.refl _) (.nil (.refl _))
    exact ⟨trail, htrail.trans (List.append_nil _), h⟩
  | dispatch entry args =>
    -- The failure that is logged afterwards touches neither memory nor targets.
    have hv : (s.engine.bridge.tryDispatch host entry args s.world).2.Untouched
        (s.step host (.dispatch entry args)).world := by
      rw [step, Bridge.dispatch_run]
      rcases s.engine.bridge.tryDispatch host entry args s.world with ⟨cause | value, w'⟩
      · exact w'.untouched_logged _
      · exact .refl w'
    obtain ⟨trail, htrail, h⟩ := exists_served_tryDispatch entry args (.refl _) hv (.nil (.refl _))
    exact ⟨trail, htrail.trans (List.append_nil _), h⟩
  | run name src =>
    obtain ⟨-, as, has⟩ := s.engine.attempted_run host name src s.world
    obtain ⟨trail, htrail, h⟩ := has.exists_served
    exact ⟨trail, ⟨as, has, htrail⟩, h⟩
  | declare name signature =>
    refine ⟨[], rfl, .nil ?_⟩
    rw [step]
    cases s.engine.bridge.declare name signature with
    | ok bridge => exact .refl _
    | error e => exact .refl _
  | restart =>
    have hworld : (s.step host .restart).world =
        (({ s.world with host := (host.flush s.world.host).2 } : World σ).recorded (.logged .engineStopped)).recorded
          (.logged (.engineStarted Builtin.table.length)) := rfl
    refine ⟨[], rfl, .nil ?_⟩
    rw [hworld]
    exact ⟨rfl, (World.seen_push _ _ _ _ rfl).trans (World.seen_push _ _ _ _ rfl)⟩
  | define | remove | assign => exact ⟨[], rfl, .nil (.refl _)⟩

/-- A registry held an address under a spelling, or it is defined there by one of some later steps. -/
def HeldOrDefined (past : Embedding σ) (later : List Step) (i : Nat) (spelling : String) (address : Word) : Prop :=
  (∃ e, (past.tables.registry i).find? spelling = some e ∧ e.address = address) ∨
    ∃ kind, .define i spelling address kind ∈ later

theorem heldOrDefined_of_holds {past : Embedding σ} {later : List Step} {source : TableSource} {spelling : String}
    {target : Target} {i : Nat} (h : (past.after host later).tables.Holds source spelling target)
    (hi : source.index? = some i) : past.HeldOrDefined later i spelling target.address := by
  obtain ⟨e, he, haddress⟩ := h.registry hi
  rcases registry_after host he with hpast | ⟨kind, hdefined⟩
  · exact .inl ⟨e, hpast, haddress⟩
  · exact .inr ⟨kind, haddress ▸ hdefined⟩

theorem holds_of_leadsTo {s : Embedding σ} {state : σ} {r : Request} {target : Target}
    (hs : s.Sees) (h : r.LeadsTo s.engine.bridge state target) :
    ∃ raw spelling source, r.subject? = some (raw, target.kind) ∧ s.engine.bridge.config.Spells raw spelling ∧
      s.tables.Holds source spelling target := by
  obtain ⟨raw, spelling, hsubject, hspells, hoffers⟩ := h
  rw [hs state] at hoffers
  obtain ⟨source, hholds⟩ := Tables.holds_of_offers hoffers
  exact ⟨raw, spelling, source, hsubject, hspells, hholds⟩

/-- **A bridge reaches what its tables hold at that moment.** Take any steps, and one more. What it does to memory and
what it reaches come from the requests that it asks for. Each target is held by the tables as they are at this step, by
the first of them that holds the spelling, under the plain or the decorated spelling of the name, and not as a symbol of
another category. If it is held by a registry, then this registry has held it at every earlier point, or it has been
defined there since: once a name's spellings are removed or defined elsewhere, only symbols of the running program can
still lead to the old address. -/
theorem reaches_what_tables_hold (host : Host σ) (tables : Tables) (engine : Script.Engine σ) (world : World σ)
    (earlier later : List Step) (next : Step) :
    let past := (start tables engine world).after host earlier
    let s := past.after host later
    ∃ trail : List (Request × Option Target),
      s.Asks host next (trail.map Prod.fst) ∧
      Served s.engine.bridge host s.world trail (s.step host next).world ∧
      (s.step host next).world.targets = s.world.targets ++ trail.filterMap Prod.snd ∧
      (∀ r target, (r, some target) ∈ trail → ∃ raw spelling source, r.subject? = some (raw, target.kind) ∧
        s.engine.bridge.config.Spells raw spelling ∧ s.tables.Holds source spelling target ∧
        ∀ i, source.index? = some i → past.HeldOrDefined later i spelling target.address) ∧
      ∀ raw address, (∀ i spelling, s.engine.bridge.config.Spells raw spelling →
          (∀ e, (past.tables.registry i).find? spelling = some e → e.address ≠ address) ∧
          ∀ kind, .define i spelling address kind ∉ later) →
        ∀ r kind, (r, some ⟨kind, address⟩) ∈ trail → r.subject? = some (raw, kind) →
          ∃ spelling, s.engine.bridge.config.Spells raw spelling ∧ s.tables.Holds .library spelling ⟨kind, address⟩ := by
  intro past s
  have hsees : s.Sees := by
    have h := sees_after host tables engine world (earlier ++ later)
    rwa [after_append] at h
  have hholds : ∀ {trail r target}, Served s.engine.bridge host s.world trail (s.step host next).world →
      (r, some target) ∈ trail → ∃ raw spelling source, r.subject? = some (raw, target.kind) ∧
        s.engine.bridge.config.Spells raw spelling ∧ s.tables.Holds source spelling target := fun hserved hmem => by
    obtain ⟨state, hleads⟩ := hserved.exists_leadsTo hmem
    exact holds_of_leadsTo hsees hleads
  obtain ⟨trail, hasks, hserved⟩ := s.exists_trail host next
  refine ⟨trail, hasks, hserved, hserved.targets_eq, fun r target hmem => ?_, fun raw address hgone r kind hmem hr => ?_⟩
  · obtain ⟨raw, spelling, source, hsubject, hspells, hholds⟩ := hholds hserved hmem
    exact ⟨raw, spelling, source, hsubject, hspells, hholds, fun i hi => heldOrDefined_of_holds hholds hi⟩
  · obtain ⟨raw', spelling, source, hsubject, hspells, hholds⟩ := hholds hserved hmem
    obtain rfl : raw' = raw := congrArg Prod.fst (Option.some.inj (hsubject.symm.trans hr))
    have hregistry : ∀ i, source.index? ≠ some i := by
      intro i hi
      obtain ⟨hpast, hlater⟩ := hgone i spelling hspells
      rcases heldOrDefined_of_holds hholds hi with ⟨e, he, haddress⟩ | ⟨kind', hdefined⟩
      · exact hpast e he haddress
      · exact hlater kind' hdefined
    cases source with
    | registry i => exact absurd rfl (hregistry i)
    | unclassified i => exact absurd rfl (hregistry i)
    | library => exact ⟨spelling, hspells, hholds⟩

end Embedding

end SymbolBridge
