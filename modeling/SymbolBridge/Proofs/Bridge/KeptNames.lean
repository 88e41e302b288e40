import SymbolBridge.Proofs.Native.Effects
import SymbolBridge.Proofs.Symbol.Name
import SymbolBridge.Bridge.Basic

/-!
# Names that are kept alike

Operations `Agree` if they come to the same in worlds that differ in their logs alone: the same outcome, and worlds that
again differ in their logs alone. Agreement is kept where operations follow each other (`Op.Agree.bind`). Looking up a text
and looking up what is kept of it agree (`Bridge.agree_name`), so whatever begins with that takes the two for the same name
(`Bridge.known_by_kept_name`).
-/

namespace SymbolBridge

variable {σ ε α β : Type}

/-! ## Operations that come to the same -/

namespace Op

/-- The same outcome and the same effects, whatever is logged. -/
def Agree (x y : Op σ ε α) : Prop :=
  ∀ w w' : World σ, w.SameButLog w' → (x w).1 = (y w').1 ∧ (x w).2.SameButLog (y w').2

theorem agree_ofExcept (r : Except ε α) : Agree (Op.ofExcept r : Op σ ε α) (Op.ofExcept r) := fun _ _ h => ⟨rfl, h⟩

theorem agree_look (f : σ → α) : Agree (Op.look f : Op σ ε α) (Op.look f) := by
  intro w w' h
  rw [look_run, look_run, h.host]
  exact ⟨rfl, h⟩

theorem agree_pure (a : α) : Agree (pure a : Op σ ε α) (pure a) := fun _ _ h => ⟨rfl, h⟩

theorem agree_logAll (es es' : List Event) : Agree (Op.logAll es : Op σ ε Unit) (Op.logAll es') := by
  intro w w' h
  rw [logAll_run, logAll_run]
  exact ⟨rfl, ((w.sameButLog_logged es).symm.trans h).trans (w'.sameButLog_logged es')⟩

theorem agree_log (e : Event) : Agree (Op.log e : Op σ ε Unit) (Op.log e) := by
  have hlog : (Op.log e : Op σ ε Unit) = Op.logAll [e] := funext fun w => log_run e w
  rw [hlog]
  exact agree_logAll [e] [e]

theorem agree_loadCell (address : Word) (width : Width) :
    Agree (Op.loadCell address width : Op σ ε Nat) (Op.loadCell address width) := by
  intro w w' h
  simp only [Op.loadCell, h.memory, h.host]
  exact ⟨trivial, h.push _ _ _⟩

theorem agree_storeCell (address : Word) (width : Width) (value : Nat) :
    Agree (Op.storeCell address width value : Op σ ε Unit) (Op.storeCell address width value) := by
  intro w w' h
  simp only [Op.storeCell, h.memory, h.host]
  exact ⟨trivial, h.push _ _ _⟩

theorem Agree.bind {x y : Op σ ε α} {f g : α → Op σ ε β} (hx : Agree x y) (hf : ∀ a, Agree (f a) (g a)) :
    Agree (x >>= f) (y >>= g) := by
  intro w w' h
  obtain ⟨hout, hworld⟩ := hx w w' h
  rw [bind_run, bind_run]
  rcases hxw : x w with ⟨r, w₁⟩
  rcases hyw : y w' with ⟨r', w₁'⟩
  rw [hxw, hyw] at hout hworld
  obtain rfl : r = r' := hout
  cases r with
  | error e => exact ⟨rfl, hworld⟩
  | ok a => exact hf a w₁ w₁' hworld

end Op

/-! ## Names -/

namespace Bridge

open Op SymbolName

variable {b : Bridge σ} {raw kept : String}

/-- A text and what is kept of it have the same name, or none. -/
theorem agree_name (h : Longest b.config.maxNameLength raw kept) :
    Agree (b.name raw : Op σ BridgeError SymbolName) (b.name kept) := by
  have hname : ofText b.config.maxNameLength raw = ofText b.config.maxNameLength kept := by
    rw [longest_iff.1 h, ofText_keep]
  refine (agree_logAll _ _).bind fun _ => ?_
  rw [hname]
  exact agree_ofExcept _

theorem agree_resolve (b : Bridge σ) (name : SymbolName) (want : SymbolKind) :
    Agree (b.resolve name want : Op σ BridgeError ResolvedSymbol) (b.resolve name want) :=
  (agree_look b.symbols).bind fun _ => (agree_logAll _ _).bind fun _ => agree_ofExcept _

theorem agree_cell (h : Longest b.config.maxNameLength raw kept) :
    Agree (b.cell raw : Op σ BridgeError GlobalCell) (b.cell kept) :=
  (agree_name h).bind fun name => (b.agree_resolve name .data).bind fun _ => agree_pure _

theorem agree_getVariable (h : Longest b.config.maxNameLength raw kept) :
    Agree (b.getVariable raw : Op σ BridgeError Int64) (b.getVariable kept) := by
  refine (agree_cell h).bind fun cell => ?_
  exact (agree_loadCell _ _).bind fun n => (agree_log _).bind fun _ => agree_pure _

theorem agree_setVariable (h : Longest b.config.maxNameLength raw kept) (v : Value) :
    Agree (b.setVariable raw v : Op σ BridgeError Unit) (b.setVariable kept v) := by
  refine (agree_cell h).bind fun cell => ?_
  exact (agree_storeCell _ _ _).bind fun _ => agree_log _

/-- **A name is what is kept of it.** Of every text the longest beginning is kept that ends between characters, has no NUL
and fits in the bound; a text of which nothing is kept is no name. Bounding a name again leaves it as it is, and two bounds
are as good as the smaller one. Resolving, getting and setting come to the same for a text and for what is kept of it. -/
theorem known_by_kept_name (raw : String) :
    (∀ bound, ∃ kept, Longest bound raw kept ∧ (∀ other, Longest bound raw other → other = kept) ∧
      (∀ name, ofText bound raw = .ok name ↔ kept ≠ "" ∧ name = ⟨kept⟩) ∧
      ∀ e, ofText bound raw = .error e ↔ kept = "" ∧ e = .invalidName) ∧
    (∀ bound name, ofText bound raw = .ok name → ofText bound name.text = .ok name) ∧
    (∀ a b, (ofText a raw >>= fun name => ofText b name.text) = ofText (min a b) raw) ∧
    ∀ (b : Bridge σ) (kept : String), Longest b.config.maxNameLength raw kept →
      (∀ want, Agree (do b.resolve (← b.name raw) want : Op σ BridgeError ResolvedSymbol)
        (do b.resolve (← b.name kept) want)) ∧
      Agree (b.getVariable raw : Op σ BridgeError Int64) (b.getVariable kept) ∧
      ∀ v, Agree (b.setVariable raw v : Op σ BridgeError Unit) (b.setVariable kept v) := by
  refine ⟨fun bound => ?_, fun bound name h => ?_, fun a b => ofText_bind_ofText a b raw, fun b kept h => ?_⟩
  · exact ⟨keep bound raw, longest_keep bound raw, fun other h => longest_iff.1 h, fun name => ofText_eq_ok_iff,
      fun e => ofText_eq_error_iff⟩
  · obtain ⟨-, rfl⟩ := ofText_eq_ok_iff.1 h
    rw [ofText_keep, h]
  · refine ⟨fun want => ?_, agree_getVariable h, agree_setVariable h⟩
    exact (agree_name h).bind fun name => b.agree_resolve name want

end Bridge

end SymbolBridge
