import SymbolBridge.Bridge.Basic
import SymbolBridge.Config.Reader
import SymbolBridge.Proofs.Native.Effects
import SymbolBridge.Proofs.Symbol.Name
import SymbolBridge.Proofs.Symbol.Resolver

/-!
# What an accepted configuration can do

A configuration is `Accepted` if the check passes it, so whenever it was read from a document or a file. The check passes
a configuration exactly if its bounds are those of `Config.check_eq_ok_iff`, and these bounds are what the rest relies on:
the slots of arguments are bounded by the configuration alone (`Config.Accepted.room_eq`), a buffer for lines holds text,
so that reading one fails only with its source (`Config.Accepted.readLine_eq_error_iff`), and the decoration is at most
the one character that is put in front of names (`Config.Accepted.text_of_mem_spellings`). A name that starts with a
character of one byte is a name under every accepted bound; a longer character needs a bound that holds it
(`Config.accented_name_refused`).
-/

namespace SymbolBridge.Config

open Text

theorem check_eq_ok_iff {c : Config} : c.check = .ok () ↔
    1 ≤ c.maxNameLength ∧ c.maxArguments ≤ maxSlots ∧ c.decoration.length ≤ 1 ∧ 2 ≤ c.lineBuffer := by
  grind [check]

/-- A configuration that was checked, or that was read from a document or a file. -/
inductive Accepted (c : Config) : Prop
  | checked : c.check = .ok () → Accepted c
  | ofToml {text : String} : ofToml text = .ok c → Accepted c
  | ofFile {file : Text.File} : ofFile file = .ok c → Accepted c

theorem check_of_ofToml {c : Config} {text : String} (h : ofToml text = .ok c) : c.check = .ok () := by
  rw [ofToml] at h
  cases hread : (Toml.read? text).bind ofEntries? with
  | none =>
    rw [hread] at h
    cases h
  | some read =>
    rw [hread] at h
    cases hcheck : read.check with
    | error fault =>
      simp only [hcheck] at h
      cases h
    | ok _ =>
      simp only [hcheck] at h
      cases h
      exact hcheck

theorem check_of_ofFile {c : Config} {file : Text.File} (h : ofFile file = .ok c) : c.check = .ok () := by
  rw [ofFile] at h
  cases hread : Text.ofFile file with
  | error reason =>
    rw [hread] at h
    cases h
  | ok text =>
    rw [hread] at h
    exact check_of_ofToml h

namespace Accepted

variable {c : Config} (h : c.Accepted)

include h

theorem check_eq : c.check = .ok () := by
  cases h with
  | checked h => exact h
  | ofToml h => exact check_of_ofToml h
  | ofFile h => exact check_of_ofFile h

/-! ## Arguments -/

/-- The slots of a native call are no tighter a bound. -/
theorem room_eq : ArgumentVector.room c.maxArguments = c.maxArguments := by
  obtain ⟨-, hle, -, -⟩ := check_eq_ok_iff.1 h.check_eq
  exact Nat.min_eq_left hle

theorem length_ofValues (width : Width) (args : List Value) (allocator : Allocator) :
    (ArgumentVector.ofValues width c.maxArguments args allocator).length = min args.length c.maxArguments := by
  rw [ArgumentVector.length, ArgumentVector.ofValues, List.length_mapIdx, ArgumentVector.kept, List.length_take, h.room_eq,
    Nat.min_comm]

/-! ## Lines -/

/-- A line fails to be read exactly if its source fails, and for the same reason. -/
theorem readBounded_eq_error_iff {σ : Type} (read : LineSource σ) (prompt : String) (s : σ) (cause : LineError) :
    (read.readBounded prompt c.lineBuffer s).1 = .error cause ↔
      (read (truncate (c.lineBuffer - 1) prompt) s).1 = .error cause := by
  obtain ⟨-, -, -, hbuffer⟩ := check_eq_ok_iff.1 h.check_eq
  rw [LineSource.readBounded, if_neg (Nat.not_lt.2 hbuffer), Op.state_bind_run]
  rcases read (truncate (c.lineBuffer - 1) prompt) s with ⟨reason | _ | line, s'⟩
  · constructor
    · rintro ⟨⟩
      rfl
    · rintro ⟨⟩
      rfl
  · exact ⟨nofun, nofun⟩
  · exact ⟨nofun, nofun⟩

theorem readLine_eq_error_iff {σ : Type} {b : Bridge σ} (hb : b.config = c) (host : Host σ) (prompt : String)
    (w : World σ) (err : BridgeError) : (b.readLine host prompt w).1 = .error err ↔ ∃ cause, err = .lineInput cause ∧
      (host.readLine (truncate (c.lineBuffer - 1) prompt) w.host).1 = .error cause := by
  have hrun : (b.readLine host prompt w).1 =
      (host.readLine.readBounded prompt c.lineBuffer w.host).1.mapError .lineInput := by
    rw [Bridge.readLine, hb]
    rfl
  simp only [hrun, ← h.readBounded_eq_error_iff]
  cases (host.readLine.readBounded prompt c.lineBuffer w.host).1 with
  | ok text => simp [Except.mapError]
  | error cause => simp [Except.mapError, eq_comm]

/-! ## Decoration -/

/-- What is put in front of a decorated name is the whole decoration. -/
theorem decorationChar_eq : (c.decorationChar?.map Char.toString).getD "" = c.decoration := by
  obtain ⟨-, -, hlength, -⟩ := check_eq_ok_iff.1 h.check_eq
  rw [← String.length_toList] at hlength
  rw [← String.toList_inj, decorationChar?]
  rcases hd : c.decoration.toList with _ | ⟨mark, _ | ⟨next, rest⟩⟩
  · rfl
  · simp [Char.toString]
  · rw [hd] at hlength
    simp at hlength

theorem text_of_mem_spellings {name : SymbolName} {s : Spelling} (hs : s ∈ c.spellings name) :
    s.text = (if s.decorated then c.decoration else "") ++ name.text := by
  have hmark := h.decorationChar_eq
  obtain rfl | ⟨mark, hd, rfl⟩ := mem_spellings hs
  · rw [if_neg Bool.false_ne_true, String.empty_append]
  · rw [hd, Option.map_some, Option.getD_some] at hmark
    rw [if_pos rfl, hmark]

/-! ## All of it -/

/-- **An accepted configuration can do its work.** A text with a character before its first NUL is a name under its bound
exactly if this character fits in it, as one of a single byte always does, and every character does from four bytes on.
Reading a line, with a bridge or with any source of lines, fails exactly if the source does and with what the source
fails with, so never for want of room in the buffer unless this is what the source says. A call fills as many slots as it
has arguments, up to the bound on arguments and no other. What is put in front of a decorated name is the whole
decoration. -/
theorem does_its_work :
    (∀ raw first rest, beforeNul raw.toList = first :: rest →
      (first.utf8Size ≤ c.maxNameLength → ∃ name, SymbolName.ofText c.maxNameLength raw = .ok name) ∧
      (c.maxNameLength < first.utf8Size → SymbolName.ofText c.maxNameLength raw = .error .invalidName) ∧
      (first.utf8Size = 1 ∨ 4 ≤ c.maxNameLength → ∃ name, SymbolName.ofText c.maxNameLength raw = .ok name)) ∧
    (∀ (σ : Type) (read : LineSource σ) (prompt : String) (s : σ) (cause : LineError),
      (read.readBounded prompt c.lineBuffer s).1 = .error cause ↔
        (read (truncate (c.lineBuffer - 1) prompt) s).1 = .error cause) ∧
    (∀ (σ : Type) (b : Bridge σ) (host : Host σ) (prompt : String) (w : World σ), b.config = c →
      ∀ err, (b.readLine host prompt w).1 = .error err ↔ ∃ cause, err = .lineInput cause ∧
        (host.readLine (truncate (c.lineBuffer - 1) prompt) w.host).1 = .error cause) ∧
    (∀ (width : Width) (args : List Value) (allocator : Allocator),
      (ArgumentVector.ofValues width c.maxArguments args allocator).length = min args.length c.maxArguments) ∧
    (c.decorationChar?.map Char.toString).getD "" = c.decoration ∧
    ∀ (name : SymbolName), ∀ s ∈ c.spellings name,
      s.text = (if s.decorated then c.decoration else "") ++ name.text := by
  obtain ⟨hname, -, -, -⟩ := check_eq_ok_iff.1 h.check_eq
  refine ⟨fun raw first rest hraw => ?_, fun _ => h.readBounded_eq_error_iff,
    fun _ b host prompt w hb => h.readLine_eq_error_iff hb host prompt w, h.length_ofValues,
    h.decorationChar_eq, fun name s => h.text_of_mem_spellings⟩
  refine ⟨SymbolName.exists_ofText_of_fits hraw, SymbolName.ofText_of_not_fits hraw, fun hshort => ?_⟩
  have hfits : first.utf8Size ≤ c.maxNameLength := by
    have hfour := first.utf8Size_le_four
    omega
  exact SymbolName.exists_ofText_of_fits hraw hfits

end Accepted

/-- The tightest bounds that are accepted, with a decoration of two bytes. -/
theorem tightest_does_its_work : ∃ c : Config, c.maxNameLength = 1 ∧ c.lineBuffer = 2 ∧ c.decoration = "é" ∧
    c.Accepted ∧ (∃ name, SymbolName.ofText c.maxNameLength "abc" = .ok name) ∧
    ∀ s ∈ c.spellings ⟨"a"⟩, s.text = (if s.decorated then "é" else "") ++ "a" := by
  let c : Config := { maxNameLength := 1, maxArguments := maxSlots, decoration := "é", lineBuffer := 2 }
  have hdecoration : c.decoration.length ≤ 1 := by simp [c, ← String.length_toList]
  have hc : c.Accepted := .checked (check_eq_ok_iff.2 ⟨Nat.le_refl 1, Nat.le_refl maxSlots, hdecoration, Nat.le_refl 2⟩)
  obtain ⟨hnames, -, -, -, -, hspellings⟩ := hc.does_its_work
  have habc : beforeNul "abc".toList = ['a', 'b', 'c'] := by
    have htext : "abc".toList = ['a', 'b', 'c'] := by simp
    rw [htext]
    rfl
  exact ⟨c, rfl, rfl, rfl, hc, (hnames "abc" 'a' _ habc).2.2 (.inl rfl), hspellings ⟨"a"⟩⟩

/-- A name whose first character takes two bytes is refused under an accepted bound of one byte. -/
theorem accented_name_refused : ofToml "max_name_len = 1" = .ok { maxNameLength := 1 } ∧
    check { maxNameLength := 1 } = .ok () ∧ beforeNul "é".toList = ['é'] ∧
    SymbolName.ofText 1 "é" = .error .invalidName := by
  have hname : "é".toList = ['é'] := by simp
  have htext : "max_name_len = 1".toList =
      ['m', 'a', 'x', '_', 'n', 'a', 'm', 'e', '_', 'l', 'e', 'n', ' ', '=', ' ', '1'] := by simp
  refine ⟨?_, rfl, ?_, ?_⟩
  · rw [ofToml, Toml.read?, htext]
    rfl
  · rw [hname]
    rfl
  · rw [SymbolName.ofText, SymbolName.keep, hname]
    rfl

end SymbolBridge.Config
