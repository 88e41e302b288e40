import SymbolBridge.Proofs.Bridge.Request
import SymbolBridge.Proofs.Native.Memory

/-!
# Global variables as cells of memory

A name stands for a cell (`Names`), which depends on the bridge and on the state of the host alone. Overwriting the variable stores the low bytes of a
number in the cell and touches nothing else (`setVariable_of_names`); reading it gives the number in the cell and changes
nothing (`getVariable_of_names`); what fails changes nothing but the log. So a value that is set is got back, and
variables whose cells do not overlap know nothing of each other (`setVariable_stores_one_cell`).
-/

namespace SymbolBridge

variable {σ : Type}

theorem World.effects_push (w : World σ) (a : Action) (m : Memory) (host : σ) (h : a.isLogged = false) :
    World.effects { memory := m, host := host, journal := w.journal.push a } = w.effects ++ [a] := by
  simp [World.effects, h]

/-! ## Cells -/

/-- What a cell keeps of an integer: all of it, or its residue of 32 bits, which has no sign. -/
def Width.keep (n : Int) : Width → Int
  | .native => n
  | .bits32 => n % pow2 32

namespace GlobalCell

variable {c c' : GlobalCell} {n : Int64} {m : Memory}

/-- The bytes that stand for an integer in a cell, the low byte first. -/
def bytesOf (c : GlobalCell) (n : Int64) : List UInt8 := Memory.littleEndian n.toUInt64.toNat c.width.bytes

/-- All bytes of the cell are in memory. -/
def Live (c : GlobalCell) (m : Memory) : Prop := m.Live c.address.toNat c.width.bytes

/-- An address is not in the cell. -/
def Outside (c : GlobalCell) (x : Nat) : Prop := Memory.Outside c.address.toNat c.width.bytes x

/-- No byte is in both cells. -/
def Apart (c c' : GlobalCell) : Prop := Memory.Apart c.address.toNat c.width.bytes c'.address.toNat c'.width.bytes

/-- Memory with an integer stored in the cell. -/
def overwrite (c : GlobalCell) (n : Int64) (m : Memory) : Memory := m.storeAll c.address.toNat (c.bytesOf n)

/-- The integer in the cell. -/
def read (c : GlobalCell) (m : Memory) : Int64 := Bridge.cellValue (m.loadNat c.address.toNat c.width.bytes) c.width

theorem length_bytesOf (c : GlobalCell) (n : Int64) : (c.bytesOf n).length = c.width.bytes :=
  Memory.length_littleEndian _ _

theorem load?_overwrite_of_outside {x : Nat} (h : c.Outside x) : (c.overwrite n m).load? x = m.load? x :=
  Memory.load?_storeAll_of_outside (by rwa [length_bytesOf])

theorem load?_overwrite_add (h : c.Live m) {i : Nat} (hi : i < c.width.bytes) :
    (c.overwrite n m).load? (c.address.toNat + i) = (c.bytesOf n)[i]? := by
  have hlen := c.length_bytesOf n
  obtain ⟨byte, hb⟩ : ∃ byte, (c.bytesOf n)[i]? = some byte := ⟨_, List.getElem?_eq_getElem (by omega)⟩
  rw [hb]
  exact Memory.load?_storeAll_add (by rwa [hlen]) hb

theorem toInt_emod_two_pow_32 (n : Int64) : n.toInt % (2 ^ 32 : Nat) = (n.toUInt64.toNat : Int) % (2 ^ 32 : Nat) := by
  have h : n.toInt = (n.toUInt64.toNat : Int).bmod (2 ^ 64) := BitVec.toInt_eq_toNat_bmod n.toBitVec
  calc n.toInt % (2 ^ 32 : Nat)
      = n.toInt % (2 ^ 64 : Nat) % (2 ^ 32 : Nat) := (Int.emod_emod_of_dvd _ (by decide)).symm
    _ = (n.toUInt64.toNat : Int) % (2 ^ 64 : Nat) % (2 ^ 32 : Nat) := by rw [h, Int.bmod_emod]
    _ = (n.toUInt64.toNat : Int) % (2 ^ 32 : Nat) := Int.emod_emod_of_dvd _ (by decide)

/-- What is stored in a cell is read back, as far as the cell keeps it. -/
theorem toInt_read_overwrite (h : c.Live m) : (c.read (c.overwrite n m)).toInt = c.width.keep n.toInt := by
  have hnat : (c.overwrite n m).loadNat c.address.toNat c.width.bytes = n.toUInt64.toNat % 256 ^ c.width.bytes :=
    Memory.loadNat_storeAll h _
  have hlt : n.toUInt64.toNat < 2 ^ 64 := n.toUInt64.toNat_lt
  rw [read, hnat]
  cases c.width with
  | native =>
    have hmod : n.toUInt64.toNat % 256 ^ Width.native.bytes = n.toUInt64.toNat := by
      rw [Width.bytes, Nat.mod_eq_of_lt (by omega)]
    rw [hmod, Bridge.cellValue, UInt64.ofNat_toNat, Width.keep]
    simp
  | bits32 =>
    have hres : n.toUInt64.toNat % 256 ^ Width.bits32.bytes < 2 ^ 63 := by
      rw [Width.bytes]
      omega
    calc (Bridge.cellValue (n.toUInt64.toNat % 256 ^ Width.bits32.bytes) .bits32).toInt
        = ((n.toUInt64.toNat % 256 ^ Width.bits32.bytes : Nat) : Int) := Int64.toInt_ofNat_of_lt hres
      _ = (n.toUInt64.toNat : Int) % (2 ^ 32 : Nat) := Int.natCast_emod _ _
      _ = n.toInt % (2 ^ 32 : Nat) := (toInt_emod_two_pow_32 n).symm

theorem read_overwrite_of_apart (h : c.Apart c') : c'.read (c.overwrite n m) = c'.read m := by
  have hnat : (c.overwrite n m).loadNat c'.address.toNat c'.width.bytes = _ :=
    Memory.loadNat_storeAll_of_apart (by rwa [length_bytesOf])
  rw [read, hnat, read]

theorem overwrite_comm (h : c.Apart c') (n n' : Int64) :
    c'.overwrite n' (c.overwrite n m) = c.overwrite n (c'.overwrite n' m) :=
  Memory.storeAll_comm (by rwa [length_bytesOf, length_bytesOf])

/-- From `w` to `w'` an integer was stored in the cell, and nothing else was done. -/
structure Overwritten (c : GlobalCell) (n : Int64) (w w' : World σ) : Prop where
  memory : w'.memory = c.overwrite n w.memory
  host : w'.host = w.host
  effects : w'.effects = w.effects ++ [.stored c.address c.width]

/-- From `w` to `w'` the cell was read, which changed nothing. -/
structure Consulted (c : GlobalCell) (w w' : World σ) : Prop where
  memory : w'.memory = w.memory
  host : w'.host = w.host
  effects : w'.effects = w.effects ++ [.loaded c.address c.width]

end GlobalCell

/-! ## Variables -/

namespace Bridge

variable {b : Bridge σ} {raw : String} {c : GlobalCell} {w : World σ}

/-- The cell that a name stands for, with the symbol table as it stands in a state. -/
def Names (b : Bridge σ) (state : σ) (raw : String) (c : GlobalCell) : Prop :=
  ∃ name found, SymbolName.ofText b.config.maxNameLength raw = .ok name ∧
    (b.symbols state).resolve b.config name .data = .ok found ∧
    c = ⟨found.spelling.text, found.entry.address, b.config.variableWidth⟩

/-- Looking for the cell of a name finds the one it stands for, and changes nothing but the log. -/
theorem cell_run (b : Bridge σ) (raw : String) (w : World σ) :
    w.SameButLog (b.cell raw w).2 ∧ ∀ c, (b.cell raw w).1 = .ok c ↔ b.Names w.host raw c := by
  simp only [cell, Bridge.name, Op.bind_run, Op.logAll_run, Op.ofExcept_run, Names]
  cases hn : SymbolName.ofText b.config.maxNameLength raw with
  | error e => exact ⟨World.sameButLog_logged _ _, fun c => by simp⟩
  | ok name =>
    simp only [resolve, Op.bind_run, Op.logAll_run, Op.look_run, Op.ofExcept_run, World.host_logged]
    have hlogs := (w.sameButLog_logged (SymbolName.events b.config.maxNameLength raw)).trans
      (World.sameButLog_logged _ ((b.symbols w.host).lookup b.config name .data).events)
    cases hr : (b.symbols w.host).resolve b.config name .data with
    | error e => exact ⟨hlogs, fun c => by simp [hr]⟩
    | ok found => exact ⟨hlogs, fun c => by simp [Op.pure_run, hr, eq_comm]⟩

theorem cell_of_names (h : b.Names w.host raw c) : ∃ w₁, b.cell raw w = (.ok c, w₁) ∧ w.SameButLog w₁ :=
  ⟨_, Prod.ext (((b.cell_run raw w).2 c).2 h) rfl, (b.cell_run raw w).1⟩

theorem cell_of_nameless (h : ∀ c, ¬ b.Names w.host raw c) :
    ∃ e w₁, b.cell raw w = (.error e, w₁) ∧ w.SameButLog w₁ := by
  obtain ⟨hlog, hcell⟩ := b.cell_run raw w
  rcases hr : b.cell raw w with ⟨e | c, w₁⟩
  · rw [hr] at hlog
    exact ⟨e, w₁, rfl, hlog⟩
  · exact absurd ((hcell c).1 (by rw [hr])) (h c)

/-- Overwriting the variable of a name stores the number of the value in its cell. -/
theorem setVariable_of_names (h : b.Names w.host raw c) (v : Value) :
    (b.setVariable raw v w).1 = .ok () ∧ c.Overwritten v.toScalar w (b.setVariable raw v w).2 := by
  obtain ⟨w₁, hc, hlog⟩ := cell_of_names h
  simp only [setVariable, Op.bind_run, hc, Op.storeCell, Op.log_run]
  refine ⟨trivial, ?_, hlog.host, ?_⟩
  · rw [World.memory_logged, hlog.memory]
    rfl
  · rw [World.effects_logged, World.effects_push _ _ _ _ rfl, hlog.effects]

/-- Reading the variable of a name gives the number in its cell. -/
theorem getVariable_of_names (h : b.Names w.host raw c) :
    (b.getVariable raw w).1 = .ok (c.read w.memory) ∧ c.Consulted w (b.getVariable raw w).2 := by
  obtain ⟨w₁, hc, hlog⟩ := cell_of_names h
  simp only [getVariable, Op.bind_run, hc, Op.loadCell, Op.log_run, Op.pure_run]
  refine ⟨by rw [hlog.memory]; rfl, hlog.memory, hlog.host, ?_⟩
  rw [World.effects_logged, World.effects_push _ _ _ _ rfl, hlog.effects]

theorem setVariable_of_nameless (h : ∀ c, ¬ b.Names w.host raw c) (v : Value) :
    (∃ e, (b.setVariable raw v w).1 = .error e) ∧ w.SameButLog (b.setVariable raw v w).2 := by
  obtain ⟨e, w₁, hc, hlog⟩ := cell_of_nameless h
  simp only [setVariable, Op.bind_run, hc]
  exact ⟨⟨e, rfl⟩, hlog⟩

theorem getVariable_of_nameless (h : ∀ c, ¬ b.Names w.host raw c) :
    (∃ e, (b.getVariable raw w).1 = .error e) ∧ w.SameButLog (b.getVariable raw w).2 := by
  obtain ⟨e, w₁, hc, hlog⟩ := cell_of_nameless h
  simp only [getVariable, Op.bind_run, hc]
  exact ⟨⟨e, rfl⟩, hlog⟩

theorem memory_getVariable (b : Bridge σ) (raw : String) (w : World σ) : (b.getVariable raw w).2.memory = w.memory := by
  by_cases h : ∃ c, b.Names w.host raw c
  · obtain ⟨c, hc⟩ := h
    exact (getVariable_of_names hc).2.memory
  · exact (getVariable_of_nameless (not_exists.1 h)).2.memory

/-- A variable that cannot be set is left alone, and so is everything else. -/
theorem sameButLog_of_setVariable_error {v : Value} {e : BridgeError}
    (h : (b.setVariable raw v w).1 = .error e) : w.SameButLog (b.setVariable raw v w).2 := by
  by_cases hn : ∃ c, b.Names w.host raw c
  · obtain ⟨c, hc⟩ := hn
    rw [(setVariable_of_names hc v).1] at h
    cases h
  · exact (setVariable_of_nameless (not_exists.1 hn) v).2

theorem Request.eq_set_of_ofArguments {args : List Value} {r : Request}
    (h : Request.ofArguments .setGlobal args = .ok r) : ∃ name value, r = .set name value := by
  rw [ofArguments] at h
  rcases ht : takeText .variableName args with e | ⟨name, _ | ⟨value, rest⟩⟩
  · rw [ht] at h
    cases h
  · rw [ht] at h
    cases h
  · rw [ht] at h
    cases h
    exact ⟨name, value, rfl⟩

/-- An entry point that fails to set a variable leaves everything alone. -/
theorem sameButLog_of_setGlobal_error {host : Host σ} {args : List Value} {e : BridgeError}
    (h : (b.tryDispatch host .setGlobal args w).1 = .error e) :
    w.SameButLog (b.tryDispatch host .setGlobal args w).2 := by
  rw [tryDispatch_run] at h ⊢
  cases hr : Request.ofArguments .setGlobal args with
  | error e' => exact ⟨rfl, rfl, rfl⟩
  | ok r =>
    obtain ⟨name, value, rfl⟩ := Request.eq_set_of_ofArguments hr
    simp only [hr, Request.serve, Op.bind_pure_run] at h ⊢
    cases hs : (b.setVariable name value w).1 with
    | error e' => exact sameButLog_of_setVariable_error hs
    | ok u =>
      rw [hs] at h
      cases h

/-! ## Setting and getting -/

/-- A variable that has been set is the cell of its name with the number of the value in it. -/
theorem overwritten_of_setVariable {v : Value} {w₁ : World σ} (h : b.setVariable raw v w = (.ok (), w₁)) :
    ∃ c, b.Names w.host raw c ∧ c.Overwritten v.toScalar w w₁ := by
  by_cases hn : ∃ c, b.Names w.host raw c
  · obtain ⟨c, hc⟩ := hn
    have hw := (setVariable_of_names hc v).2
    rw [h] at hw
    exact ⟨c, hc, hw⟩
  · obtain ⟨e, he⟩ := (setVariable_of_nameless (not_exists.1 hn) v).1
    rw [h] at he
    cases he

theorem exists_setVariable (hc : b.Names w.host raw c) (v : Value) :
    ∃ w₁, b.setVariable raw v w = (.ok (), w₁) ∧ c.Overwritten v.toScalar w w₁ :=
  ⟨(b.setVariable raw v w).2, Prod.ext (setVariable_of_names hc v).1 rfl, (setVariable_of_names hc v).2⟩

/-- Overwriting a cell leaves names the cells that they stand for. -/
theorem Names.of_overwritten {c' : GlobalCell} {n : Int64} {w₁ : World σ} (h : b.Names w.host raw c)
    (hw : c'.Overwritten n w w₁) : b.Names w₁.host raw c := by
  rwa [hw.host]

/-- What has been set is got back, as far as the width of the variable keeps it. -/
theorem getVariable_of_overwritten {n : Int64} {w₁ : World σ} (hc : b.Names w.host raw c) (hlive : c.Live w.memory)
    (hw : c.Overwritten n w w₁) : ∃ y w₂, b.getVariable raw w₁ = (.ok y, w₂) ∧ y.toInt = c.width.keep n.toInt := by
  refine ⟨c.read w₁.memory, _, Prod.ext (getVariable_of_names (hc.of_overwritten hw)).1 rfl, ?_⟩
  rw [hw.memory, GlobalCell.toInt_read_overwrite hlive]

/-- Setting a variable does not show in a variable elsewhere. -/
theorem getVariable_of_apart {b' : Bridge σ} {raw' : String} {c' : GlobalCell} {n : Int64} {w₁ : World σ}
    (hc' : b'.Names w.host raw' c') (hapart : c.Apart c') (hw : c.Overwritten n w w₁) :
    (b'.getVariable raw' w₁).1 = (b'.getVariable raw' w).1 := by
  rw [(getVariable_of_names (hc'.of_overwritten hw)).1, (getVariable_of_names hc').1, hw.memory,
    GlobalCell.read_overwrite_of_apart hapart]

/-- Variables whose cells do not overlap can be set in either order. -/
theorem memory_of_overwritten_comm {c' : GlobalCell} {n n' : Int64} {w w₁ w₁₂ w₂ w₂₁ : World σ} (hapart : c.Apart c')
    (h₁ : c.Overwritten n w w₁) (h₁₂ : c'.Overwritten n' w₁ w₁₂) (h₂ : c'.Overwritten n' w w₂)
    (h₂₁ : c.Overwritten n w₂ w₂₁) : w₁₂.memory = w₂₁.memory := by
  rw [h₁₂.memory, h₁.memory, h₂₁.memory, h₂.memory]
  exact GlobalCell.overwrite_comm hapart n n'

/-- **A variable that is set keeps its value, and only its cell has changed.** Setting a variable stores the number of
the value in its cell and changes no byte outside; got right afterwards, the variable has the value, as far as its width
keeps it. Getting a variable changes no byte, and nor does setting one, or the entry point for it, where it fails.
Variables whose cells do not overlap can be set in either order, and setting one does not show in the other. -/
theorem setVariable_stores_one_cell (b : Bridge σ) (host : Host σ) (raw : String) (v : Value) (w : World σ) :
    (∀ w₁, b.setVariable raw v w = (.ok (), w₁) → ∃ c, b.Names w.host raw c ∧
      (∀ x, c.Outside x → w₁.memory.load? x = w.memory.load? x) ∧
      (c.Live w.memory →
        (∀ i < c.width.bytes, w₁.memory.load? (c.address.toNat + i) = (c.bytesOf v.toScalar)[i]?) ∧
        ∃ y w₂, b.getVariable raw w₁ = (.ok y, w₂) ∧ y.toInt = c.width.keep v.toScalar.toInt)) ∧
    (b.getVariable raw w).2.memory = w.memory ∧
    (∀ e w₁, b.setVariable raw v w = (.error e, w₁) → w.SameButLog w₁) ∧
    (∀ args e w₁, b.tryDispatch host .setGlobal args w = (.error e, w₁) →
      w.SameButLog w₁ ∧ w.SameButLog ((b.dispatch host .setGlobal args : Op σ Empty _) w).2) ∧
    ∀ (b' : Bridge σ) (raw' : String) (v' : Value) (c c' : GlobalCell), b.Names w.host raw c →
      b'.Names w.host raw' c' → c.Apart c' →
      ∃ w₁ w₁₂ w₂ w₂₁, b.setVariable raw v w = (.ok (), w₁) ∧ b'.setVariable raw' v' w₁ = (.ok (), w₁₂) ∧
        b'.setVariable raw' v' w = (.ok (), w₂) ∧ b.setVariable raw v w₂ = (.ok (), w₂₁) ∧
        w₁₂.memory = w₂₁.memory ∧ (b'.getVariable raw' w₁).1 = (b'.getVariable raw' w).1 ∧
        (b.getVariable raw w₂).1 = (b.getVariable raw w).1 := by
  refine ⟨fun w₁ h => ?_, memory_getVariable b raw w, fun e w₁ h => ?_, fun args e w₁ h => ?_, ?_⟩
  · obtain ⟨c, hc, hw⟩ := overwritten_of_setVariable h
    refine ⟨c, hc, fun x hx => ?_, fun hlive => ⟨fun i hi => ?_, getVariable_of_overwritten hc hlive hw⟩⟩
    · rw [hw.memory, GlobalCell.load?_overwrite_of_outside hx]
    · rw [hw.memory, GlobalCell.load?_overwrite_add hlive hi]
  · have hsame : w.SameButLog (b.setVariable raw v w).2 := sameButLog_of_setVariable_error (e := e) (by rw [h])
    rwa [h] at hsame
  · have hsame : w.SameButLog (b.tryDispatch host .setGlobal args w).2 :=
      sameButLog_of_setGlobal_error (e := e) (by rw [h])
    rw [h] at hsame
    rw [dispatch_run, h]
    exact ⟨hsame, hsame.trans (World.sameButLog_logged _ _)⟩
  · intro b' raw' v' c c' hc hc' hapart
    obtain ⟨w₁, h₁, hw₁⟩ := exists_setVariable hc v
    obtain ⟨w₂, h₂, hw₂⟩ := exists_setVariable hc' v'
    obtain ⟨w₁₂, h₁₂, hw₁₂⟩ := exists_setVariable (hc'.of_overwritten hw₁) v'
    obtain ⟨w₂₁, h₂₁, hw₂₁⟩ := exists_setVariable (hc.of_overwritten hw₂) v
    exact ⟨w₁, w₁₂, w₂, w₂₁, h₁, h₁₂, h₂, h₂₁, memory_of_overwritten_comm hapart hw₁ hw₁₂ hw₂ hw₂₁,
      getVariable_of_apart hc' hapart hw₁, getVariable_of_apart hc hapart.symm hw₂⟩

end Bridge

end SymbolBridge
