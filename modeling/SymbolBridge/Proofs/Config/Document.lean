import Mathlib.Data.List.Nodup
import SymbolBridge.Proofs.Config.Accepted
import SymbolBridge.Proofs.Toml.Assignment
import SymbolBridge.Proofs.Toml.Tables

/-!
# Documents that describe a configuration

A document may set any of the seven fields, each on a line of its own and in any order (`Config.Lines`). One that sets
all fields in which an accepted configuration differs from the default is read as this configuration, and with a line
for any other key it is refused (`Config.ofToml_of_lines`).
-/

namespace SymbolBridge

theorem LookupOrder.ofName?_name (o : LookupOrder) : LookupOrder.ofName? o.name = some o := by
  cases o <;> rfl

theorem Width.ofName?_name (w : Width) : Width.ofName? w.name = some w := by
  cases w <;> rfl

namespace Config

open Toml (Assignment Bare Blanks LineEnd)
open Toml.Entries (assignments ofValues keys)

/-! ## Fields -/

/-- What a document can set. -/
inductive Field where
  | maxNameLength
  | maxArguments
  | decoration
  | lookupOrder
  | numberWidth
  | variableWidth
  | lineBuffer
  deriving DecidableEq, Repr

namespace Field

def key : Field → String
  | maxNameLength => "max_name_len"
  | maxArguments => "max_args"
  | decoration => "decoration"
  | lookupOrder => "lookup_order"
  | numberWidth => "number_width"
  | variableWidth => "variable_width"
  | lineBuffer => "line_buffer"

/-- What a document says of the field as it is in `c`. -/
def value (c : Config) : Field → Toml.Value
  | maxNameLength => .integer c.maxNameLength
  | maxArguments => .integer c.maxArguments
  | decoration => .text c.decoration
  | lookupOrder => .text c.lookupOrder.name
  | numberWidth => .text c.numberWidth.name
  | variableWidth => .text c.variableWidth.name
  | lineBuffer => .integer c.lineBuffer

/-- `d` with the field as it is in `c`. -/
def copy (c d : Config) : Field → Config
  | maxNameLength => { d with maxNameLength := c.maxNameLength }
  | maxArguments => { d with maxArguments := c.maxArguments }
  | decoration => { d with decoration := c.decoration }
  | lookupOrder => { d with lookupOrder := c.lookupOrder }
  | numberWidth => { d with numberWidth := c.numberWidth }
  | variableWidth => { d with variableWidth := c.variableWidth }
  | lineBuffer => { d with lineBuffer := c.lineBuffer }

theorem bare (f : Field) : Bare f.key := by
  cases f <;> exact ⟨by simp [key], by simp [key]; decide⟩

theorem key_injective : Function.Injective key := by
  intro f g h
  cases f <;> cases g <;> first | rfl | simp [key] at h

end Field

section

variable {c d : Config} {f g : Field} {fs : List Field} {k : String} {node : Toml.Node}

theorem set?_value : d.set? f.key (.value (f.value c)) = some (f.copy c d) := by
  cases f <;> simp [Field.key, Field.value, Field.copy, set?, Toml.Node.natural?, Toml.Node.text?, Toml.Node.choice?,
    LookupOrder.ofName?_name, Width.ofName?_name]

theorem exists_key_of_set? (h : c.set? k node = some d) : ∃ f : Field, f.key = k := by
  unfold set? at h
  split at h
  · exact ⟨.maxNameLength, rfl⟩
  · exact ⟨.maxArguments, rfl⟩
  · exact ⟨.decoration, rfl⟩
  · exact ⟨.lookupOrder, rfl⟩
  · exact ⟨.numberWidth, rfl⟩
  · exact ⟨.variableWidth, rfl⟩
  · exact ⟨.lineBuffer, rfl⟩
  · cases h

theorem value_copy : g.value (f.copy c d) = if f = g then g.value c else g.value d := by
  cases f <;> cases g <;> rfl

theorem value_foldl_copy :
    g.value (fs.foldl (fun d f => f.copy c d) d) = if g ∈ fs then g.value c else g.value d := by
  induction fs generalizing d with
  | nil => rfl
  | cons f fs ih =>
    rw [List.foldl_cons, ih, value_copy]
    by_cases hfs : g ∈ fs
    · simp [hfs]
    · simp [hfs, eq_comm]

/-- A configuration is what a document says of its fields. -/
theorem eq_of_value (h : ∀ f : Field, f.value c = f.value d) : c = d := by
  have hcopy : ∀ f : Field, f.copy c c = f.copy d c := by
    intro f
    have hset : c.set? f.key (.value (f.value c)) = c.set? f.key (.value (f.value d)) := by rw [h f]
    rw [set?_value, set?_value] at hset
    exact Option.some.inj hset
  cases c
  cases d
  rw [mk.injEq]
  exact ⟨congrArg Config.maxNameLength (hcopy .maxNameLength), congrArg Config.maxArguments (hcopy .maxArguments),
    congrArg Config.decoration (hcopy .decoration), congrArg Config.lookupOrder (hcopy .lookupOrder),
    congrArg Config.numberWidth (hcopy .numberWidth), congrArg Config.variableWidth (hcopy .variableWidth),
    congrArg Config.lineBuffer (hcopy .lineBuffer)⟩

/-! ## Entries -/

/-- The keys of some fields with the values of a configuration. -/
def settings (c : Config) (fs : List Field) : List (String × Toml.Value) := fs.map fun f => (f.key, f.value c)

theorem foldlM_settings : (ofValues (c.settings fs)).foldlM (fun d (key, node) => d.set? key node) d =
    some (fs.foldl (fun d f => f.copy c d) d) := by
  induction fs generalizing d with
  | nil => rfl
  | cons f fs ih =>
    show (d.set? f.key (.value (f.value c))).bind _ = _
    rw [set?_value]
    exact ih

theorem ofEntries?_settings (hfs : ∀ f : Field, f.value c ≠ f.value {} → f ∈ fs) :
    ofEntries? (ofValues (c.settings fs)) = some c := by
  rw [ofEntries?, foldlM_settings, Option.some.injEq]
  apply eq_of_value
  intro g
  rw [value_foldl_copy]
  split
  · rfl
  · next hg => exact (not_not.1 fun hne => hg (hfs g hne)).symm

theorem exists_key_of_foldlM {es : Toml.Entries} (h : es.foldlM (fun d (key, node) => d.set? key node) c = some d)
    (hk : k ∈ keys es) : ∃ f : Field, f.key = k := by
  induction es generalizing c with
  | nil => cases hk
  | cons e es ih =>
    obtain ⟨next, hnext, hrest⟩ := Option.bind_eq_some_iff.1 h
    rcases List.mem_cons.1 hk with rfl | hk
    · exact exists_key_of_set? hnext
    · exact ih hrest hk

end

/-! ## Lines -/

/-- One line for each of some fields as it is in `c`, and `rest` after these lines. -/
inductive Lines (c : Config) (rest : List Char) : List Field → List Char → Prop
  | nil : Lines c rest [] rest
  | cons {f : Field} {fs : List Field} {line cs text : List Char} : Assignment f.key (f.value c) line →
      LineEnd cs text → Lines c rest fs text → Lines c rest (f :: fs) (line ++ cs)

section

variable {c : Config} {f : Field} {fs : List Field} {k : String} {text rest indent before t : List Char} {n : Nat}

theorem fits_value (hname : c.maxNameLength < 2 ^ 63) (harguments : c.maxArguments < 2 ^ 63)
    (hbuffer : c.lineBuffer < 2 ^ 63) (f : Field) : (f.value c).Fits := by
  intro n hn
  cases f with
  | maxNameLength =>
    obtain rfl := Toml.Value.integer.inj hn
    exact_mod_cast hname
  | maxArguments =>
    obtain rfl := Toml.Value.integer.inj hn
    exact_mod_cast harguments
  | lineBuffer =>
    obtain rfl := Toml.Value.integer.inj hn
    exact_mod_cast hbuffer
  | _ => cases hn

namespace Lines

theorem exists_lines?_eq (h : Lines c rest fs text) (hfits : ∀ f : Field, (f.value c).Fits) (hn : text.length ≤ n) :
    ∃ m, rest.length ≤ m ∧ Toml.lines? n text = (Toml.lines? m rest).map (assignments (c.settings fs) ++ ·) := by
  induction h generalizing n with
  | nil => exact ⟨n, hn, by simp [settings, assignments]⟩
  | @cons f fs line cs text hline hend _ ih =>
    have hline_pos := hline.length_pos
    have htext_le := hend.length_le
    rw [List.length_append] at hn
    obtain ⟨p, rfl⟩ : ∃ p, n = p + 1 := Nat.exists_eq_add_one.2 (by omega)
    obtain ⟨m, hm, hread⟩ := ih (n := p) (by omega)
    refine ⟨m, hm, ?_⟩
    rw [Toml.lines?_assignment f.bare hline (hfits f) hend, hread, Option.map_map]
    rfl

theorem ne_cons {y : Char} (h : Lines c rest fs text) (hrest : ∀ r, rest ≠ y :: r) (hspace : Toml.isSpace y = false)
    (hbare : Toml.isBare y = false) : ∀ r, text ≠ y :: r := by
  cases h with
  | nil => exact hrest
  | @cons f _ _ _ _ hline => exact fun r => hline.append_ne f.bare hspace hbare

theorem read?_eq (h : Lines c [] fs text) (hfits : ∀ f : Field, (f.value c).Fits) (hfs : fs.Nodup) :
    Toml.read? (String.ofList text) = some (ofValues (c.settings fs)) := by
  obtain ⟨m, -, hlines⟩ := h.exists_lines?_eq hfits (Nat.le_refl _)
  have hend : Toml.lines? m [] = some [] := by cases m <;> rfl
  have hkeys : (c.settings fs).map (·.1) = fs.map Field.key := by simp [settings]
  have hnodup : (keys [] ++ (c.settings fs).map (·.1)).Nodup := by
    rw [hkeys]
    exact List.Nodup.map Field.key_injective hfs
  rw [Toml.read?_ofList (h.ne_cons (by simp) rfl rfl), hlines, hend]
  simpa using Toml.Entries.addLines_assignments hnodup

theorem ofToml_eq (h : Lines c [] fs text) (hfits : ∀ f : Field, (f.value c).Fits) (hfs : fs.Nodup)
    (hdiffer : ∀ f : Field, f.value c ≠ f.value {} → f ∈ fs) (hc : c.check = .ok ()) :
    ofToml (String.ofList text) = .ok c := by
  rw [ofToml, h.read?_eq hfits hfs, Option.bind_some, ofEntries?_settings hdiffer]
  simp only [hc]

theorem ofToml_otherKey (h : Lines c (indent ++ (k.toList ++ (before ++ '=' :: t))) fs text)
    (hfits : ∀ f : Field, (f.value c).Fits) (hindent : Blanks indent) (hk : Bare k) (hbefore : Blanks before)
    (hother : ∀ f : Field, f.key ≠ k) : ofToml (String.ofList text) = .error .malformed := by
  have hnone : (Toml.read? (String.ofList text)).bind ofEntries? = none := by
    refine Option.eq_none_iff_forall_ne_some.2 fun d hd => ?_
    obtain ⟨es, hes, hd⟩ := Option.bind_eq_some_iff.1 hd
    obtain ⟨m, hm, hlines⟩ := h.exists_lines?_eq hfits (Nat.le_refl _)
    have hmark : ∀ r, text ≠ '\ufeff' :: r :=
      h.ne_cons (fun r => Toml.bareKey_append_ne hindent hk rfl rfl) rfl rfl
    rw [Toml.read?_ofList hmark, hlines] at hes
    obtain ⟨ls, hls, hes⟩ := Option.bind_eq_some_iff.1 hes
    obtain ⟨more, hmore, rfl⟩ := Option.map_eq_some_iff.1 hls
    obtain ⟨p, rfl⟩ : ∃ p, m = p + 1 := Nat.exists_eq_add_one.2 (by simp at hm; omega)
    -- All lines before the key belong to the root table, so the key comes to be in it and stays there.
    obtain ⟨v, more, rfl⟩ := Toml.lines?_bareKey hindent hk hbefore hmore
    obtain ⟨f, hf⟩ := exists_key_of_foldlM hd (Toml.Entries.mem_keys_of_addLines hes)
    exact hother f hf
  rw [ofToml, hnone]

end Lines

/-- **Documents are read as what they say.** A document that has one line for each of some fields, in any order and among
them all in which an accepted configuration differs from the default, is read as this configuration. If after any number
of its lines there is one for another bare key, then it is malformed, whatever the value and the lines that follow. What
is read from any text is accepted. -/
theorem ofToml_of_lines (hc : c.check = .ok ()) (hname : c.maxNameLength < 2 ^ 63) (hbuffer : c.lineBuffer < 2 ^ 63) :
    (∀ fs text, fs.Nodup → (∀ f : Field, f.value c ≠ f.value {} → f ∈ fs) → Lines c [] fs text →
      ofToml (String.ofList text) = .ok c) ∧
    (∀ fs text k indent before t, (∀ f : Field, f.key ≠ k) → Bare k → Blanks indent → Blanks before →
      Lines c (indent ++ (k.toList ++ (before ++ '=' :: t))) fs text →
      ofToml (String.ofList text) = .error .malformed) ∧
    ∀ text d, ofToml text = .ok d → d.check = .ok () := by
  have harguments : c.maxArguments < 2 ^ 63 := by
    have hle : c.maxArguments ≤ 15 := (check_eq_ok_iff.1 hc).2.1
    omega
  have hfits : ∀ f : Field, (f.value c).Fits := fits_value hname harguments hbuffer
  exact ⟨fun fs text hfs hdiffer h => h.ofToml_eq hfits hfs hdiffer hc,
    fun fs text k indent before t hother hk hindent hbefore h => h.ofToml_otherKey hfits hindent hk hbefore hother,
    fun text d => check_of_ofToml⟩

/-- Three lines with different ends, of which one gives a decoration of two bytes by its code, and a line for a key that
is none of a field. -/
theorem ofToml_accented :
    ofToml "number_width='bits32' \r\n\tdecoration = \"\\U000000e9\"\nmax_name_len = 8" =
      .ok { maxNameLength := 8, decoration := "é", numberWidth := .bits32 } ∧
    ofToml "number_width='bits32' \r\n\tcolour =-1.5\nmax_name_len = 8" = .error .malformed := by
  let c : Config := { maxNameLength := 8, decoration := "é", numberWidth := .bits32 }
  have hno : Blanks [] := by simp [Blanks]
  have hspace : Blanks [' '] := by simp [Blanks, Toml.isSpace]
  have htab : Blanks ['\t'] := by simp [Blanks, Toml.isSpace]
  have hwidth : Assignment "number_width" (.text "bits32") "number_width='bits32' ".toList := by
    have h : Assignment "number_width" (.text (String.ofList "bits32".toList)) _ :=
      .mk hno hno hno hspace (.literal (by simp; decide))
    simpa using h
  have hmark : Assignment "decoration" (.text "é") "\tdecoration = \"\\U000000e9\"".toList := by
    have hcode : "000000e9".toList.length = 8 := by simp
    have h : Assignment "decoration" (.text (String.ofList ['é'])) _ :=
      .mk htab hspace hspace hno (.code hcode (by simp; decide) (by simp; decide))
    simpa using h
  have hlength : Assignment "max_name_len" (.integer 8) "max_name_len = 8".toList := by
    have h : Assignment "max_name_len" (.integer (8 : Nat)) _ := .mk hno hspace hspace hno (.decimal 8)
    have hdigits : Nat.toDigits 10 8 = ['8'] := rfl
    simpa [hdigits] using h
  have hc : c.check = .ok () := check_eq_ok_iff.2 ⟨by decide, by decide, by simp [c, ← String.length_toList], by decide⟩
  have hdiffer : ∀ f : Field, f.value c ≠ f.value {} → f ∈ [Field.numberWidth, .decoration, .maxNameLength] := by
    intro f hf
    cases f with
    | numberWidth | decoration | maxNameLength => simp
    | _ => exact absurd rfl hf
  have hother : ∀ f : Field, f.key ≠ "colour" := by
    intro f
    cases f <;> simp [Field.key]
  have hcolour : Bare "colour" := ⟨by simp, by simp; decide⟩
  obtain ⟨hread, hrefuse, -⟩ := ofToml_of_lines (c := c) hc (by decide) (by decide)
  have hok := hread [.numberWidth, .decoration, .maxNameLength] _ (by decide) hdiffer
    (.cons hwidth .carriageReturn (.cons hmark .lineFeed (.cons hlength .text .nil)))
  have hmalformed := hrefuse [.numberWidth] _ "colour" ['\t'] [' '] "-1.5\nmax_name_len = 8".toList hother hcolour htab
    hspace (.cons hwidth .carriageReturn .nil)
  constructor
  · simpa using hok
  · simpa using hmalformed

end

end Config

end SymbolBridge
