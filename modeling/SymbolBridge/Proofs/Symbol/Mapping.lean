import Mathlib.Data.List.Basic
import SymbolBridge.Proofs.Text.Lines
import SymbolBridge.Proofs.Value.Digits
import SymbolBridge.Symbol.Mapping

/-!
# What a listing of mapped memory says

`Mapping.Says` tells the lines that describe a mapping from those that describe none. A line that says something is read
that way (`Mapping.Says.ofLine?_eq`), so a listing made of such lines comes down to the mappings in it
(`Mapping.Listed.classify_eq`), of which the first one that covers an address decides (`Mapping.classified_by_first`).
Which one is the first does not matter if no two of them overlap (`Mapping.find?_eq_of_perm`).
-/

namespace SymbolBridge

open Text (MadeOf pieces isBlank)

/-! ## Lines -/

/-- Hexadecimal digits of either case, perhaps after a plus sign, that write a number of 64 bits. -/
def HexWord (cs : List Char) (n : Nat) : Prop :=
  ∃ ds, (cs = ds ∨ cs = '+' :: ds) ∧ Number.HexDigits ds ∧ magnitude 16 ds = n ∧ n < 2 ^ 64

/-- The value of digits, with its bound, in other words. -/
theorem hexValue_iff {ds : List Char} {n : Nat} : Number.HexDigits ds ∧ hexValue ds < pow2 64 ∧ hexValue ds = n ↔
    Number.HexDigits ds ∧ magnitude 16 ds = n ∧ n < 2 ^ 64 := by
  have hpow : pow2 64 = 2 ^ 64 := rfl
  constructor
  · rintro ⟨hds, hlt, rfl⟩
    exact ⟨hds, (hexValue_eq_magnitude hds.2).symm, hpow ▸ hlt⟩
  · rintro ⟨hds, rfl, hlt⟩
    rw [hexValue_eq_magnitude hds.2]
    exact ⟨hds, hpow ▸ hlt, rfl⟩

theorem readHexWord?_iff {cs : List Char} {n : Nat} : readHexWord? cs = some n ↔ HexWord cs n := by
  by_cases hplus : ∃ ds, cs = '+' :: ds
  · obtain ⟨ds, rfl⟩ := hplus
    rw [Number.readHexWord?_plus_eq_some_iff, hexValue_iff]
    constructor
    · exact fun h => ⟨ds, .inr rfl, h⟩
    · rintro ⟨ds', rfl | heq, h⟩
      · exact absurd (h.1.head?_ne_plus '+' rfl) (by simp)
      · obtain rfl := (List.cons.inj heq).2
        exact h
  · have hhead : ∀ x ∈ cs.head?, x ≠ '+' := by
      rintro x hx rfl
      obtain ⟨ds, rfl⟩ := List.head?_eq_some_iff.1 hx
      exact hplus ⟨ds, rfl⟩
    rw [Number.readHexWord?_eq_some_iff hhead, hexValue_iff]
    constructor
    · exact fun h => ⟨cs, .inl rfl, h⟩
    · rintro ⟨ds, rfl | heq, h⟩
      · exact h
      · exact absurd ⟨ds, heq⟩ hplus

namespace Mapping

/-- What a line says of the memory: it describes a mapping, by a range in hexadecimal, a space, permissions, and nothing
or a space and any text; or it describes none, for want of two words, of a hyphen in the first word, or of a number of 64
bits on a side of the first hyphen. -/
inductive Says : List Char → Option Mapping → Prop
  | mapping {start stop permissions more : List Char} : Number.HexDigits start → magnitude 16 start < 2 ^ 64 →
      Number.HexDigits stop → magnitude 16 stop < 2 ^ 64 → permissions ≠ [] → (∀ c ∈ permissions, isBlank c = false) →
      (more = [] ∨ ∃ text, more = ' ' :: text) →
      Says (start ++ '-' :: stop ++ ' ' :: (permissions ++ more))
        (some ⟨magnitude 16 start, magnitude 16 stop, (Text.utf8Bytes permissions)[2]? = some 'x'.toUInt8⟩)
  | fewWords {line : List Char} : (pieces isBlank line).length < 2 → Says line none
  | noHyphen {line range : List Char} {ws : List (List Char)} : pieces isBlank line = range :: ws → '-' ∉ range →
      Says line none
  | noNumber {line before after : List Char} {ws : List (List Char)} :
      pieces isBlank line = (before ++ '-' :: after) :: ws → '-' ∉ before →
      (∀ n, ¬ HexWord before n) ∨ (∀ n, ¬ HexWord after n) → Says line none

section

variable {line start stop permissions more : List Char} {said : Option Mapping}

/-- The range of a mapping is a word. -/
theorem isBlank_range (hstart : Number.HexDigits start) (hstop : Number.HexDigits stop) :
    ∀ c ∈ start ++ '-' :: stop, isBlank c = false := by
  rw [List.forall_mem_append, List.forall_mem_cons]
  exact ⟨fun c hc => Number.isBlank_of_mem_hexDigits (isHexDigit_iff.1 (hstart.2 c hc)), rfl,
    fun c hc => Number.isBlank_of_mem_hexDigits (isHexDigit_iff.1 (hstop.2 c hc))⟩

theorem words_mapping (hstart : Number.HexDigits start) (hstop : Number.HexDigits stop) (hne : permissions ≠ [])
    (hblank : ∀ c ∈ permissions, isBlank c = false) (hmore : more = [] ∨ ∃ text, more = ' ' :: text) :
    ∃ ws, Text.words (start ++ '-' :: stop ++ ' ' :: (permissions ++ more)) =
      (start ++ '-' :: stop) :: permissions :: ws := by
  have hspace : isBlank ' ' = true := by decide
  rw [Text.words_eq_pieces, Text.pieces_append_cons (by simp) (isBlank_range hstart hstop) hspace]
  rcases hmore with rfl | ⟨text, rfl⟩
  · rw [List.append_nil, Text.pieces_of_forall_mem hne hblank]
    exact ⟨[], rfl⟩
  · rw [Text.pieces_append_cons hne hblank hspace]
    exact ⟨pieces isBlank text, rfl⟩

theorem notMem_of_hexDigits (h : Number.HexDigits start) : '-' ∉ start := fun hmem =>
  absurd (h.2 '-' hmem) (by decide)

theorem readHexWord?_eq_none (h : ∀ n, ¬ HexWord start n) : readHexWord? start = none :=
  Option.eq_none_iff_forall_ne_some.2 fun n hn => h n (readHexWord?_iff.1 hn)

/-- A line is read as what it says. -/
theorem Says.ofLine?_eq (h : Says line said) : ofLine? line = said := by
  cases h with
  | @mapping start stop permissions more hstart hlt hstop hlt' hne hblank hmore =>
    obtain ⟨ws, hwords⟩ := words_mapping hstart hstop hne hblank hmore
    have hread : readHexWord? start = some (magnitude 16 start) :=
      readHexWord?_iff.2 ⟨start, .inl rfl, hstart, rfl, hlt⟩
    have hread' : readHexWord? stop = some (magnitude 16 stop) :=
      readHexWord?_iff.2 ⟨stop, .inl rfl, hstop, rfl, hlt'⟩
    simp only [ofLine?, hwords, Text.splitAtFirst_append (notMem_of_hexDigits hstart), hread, hread']
  | fewWords hfew =>
    rw [← Text.words_eq_pieces] at hfew
    rw [ofLine?]
    split
    · rename_i hwords
      rw [hwords] at hfew
      simp only [List.length_cons] at hfew
      omega
    · rfl
  | @noHyphen _ range ws hwords hrange =>
    rw [← Text.words_eq_pieces] at hwords
    cases ws with
    | nil => simp [ofLine?, hwords]
    | cons w ws => simp [ofLine?, hwords, Text.splitAtFirst_of_notMem hrange]
  | @noNumber _ before after ws hwords hbefore hnumber =>
    rw [← Text.words_eq_pieces] at hwords
    cases ws with
    | nil => simp [ofLine?, hwords]
    | cons w ws =>
      simp only [ofLine?, hwords, Text.splitAtFirst_append hbefore]
      rcases hnumber with hnone | hnone
      · simp [readHexWord?_eq_none hnone]
      · simp [readHexWord?_eq_none hnone]

/-- A carriage return at the end of a line is a blank. -/
theorem ofLine?_carriageReturn (line : List Char) : ofLine? (line ++ ['\r']) = ofLine? line := by
  rw [ofLine?, ofLine?, Text.words_eq_pieces, Text.words_eq_pieces, Text.pieces_concat (by decide)]

end

/-! ## Listings -/

/-- Of elements of which no two pass a test, the same one is found in any order. -/
theorem find?_eq_of_perm {α : Type} {p : α → Bool} {xs ys : List α} (hperm : xs.Perm ys)
    (hone : xs.Pairwise fun x y => ¬ (p x ∧ p y)) : ys.find? p = xs.find? p := by
  have hpass : (xs.filter p).Perm (ys.filter p) := hperm.filter p
  have hpair : (xs.filter p).Pairwise fun x y => ¬ (p x ∧ p y) := hone.filter p
  have hmem : ∀ x ∈ xs.filter p, p x = true := fun x hx => (List.mem_filter.1 hx).2
  -- At most one element passes the test, and lists of at most one element have one order.
  have heq : ys.filter p = xs.filter p := by
    rcases hxs : xs.filter p with _ | ⟨x, _ | ⟨y, rest⟩⟩
    · rw [hxs] at hpass
      exact List.nil_perm.1 hpass
    · rw [hxs] at hpass
      exact List.singleton_perm.1 hpass |>.symm
    · rw [hxs] at hpair hmem
      have hboth : p x ∧ p y := ⟨hmem x (by simp), hmem y (by simp)⟩
      exact absurd hboth (List.rel_of_pairwise_cons hpair (by simp))
  rw [← List.head?_filter, ← List.head?_filter, heq]

section

variable {listing : String} {lines : List (List Char)} {address : Word} {kind : SymbolKind}

/-- A mapping has an address: its end is not part of it. -/
def Has (m : Mapping) (address : Word) : Prop := m.start ≤ address.toNat ∧ address.toNat < m.stop

theorem covers_iff {m : Mapping} : m.covers address.toNat = true ↔ m.Has address := by
  simp [covers, Has]

theorem classify_madeOf (h : MadeOf lines listing.toList) (address : Word) :
    classify listing address = ((lines.filterMap ofLine?).find? (·.covers address.toNat)).map Mapping.kind := by
  rw [classify, h.filterMap_lines rfl ofLine?_carriageReturn]

/-- The lines of a listing, each with what it says. -/
structure Listed (entries : List (List Char × Option Mapping)) (listing : String) : Prop where
  lines : ∀ e ∈ entries, Says e.1 e.2
  madeOf : MadeOf (entries.map Prod.fst) listing.toList

variable {entries : List (List Char × Option Mapping)}

theorem Listed.classify_eq (h : Listed entries listing) (address : Word) :
    classify listing address = ((entries.filterMap Prod.snd).find? (·.covers address.toNat)).map Mapping.kind := by
  have hread : (entries.map Prod.fst).filterMap ofLine? = entries.filterMap Prod.snd := by
    rw [List.filterMap_map]
    exact List.filterMap_congr fun e he => (h.lines e he).ofLine?_eq
  rw [classify_madeOf h.madeOf, hread]

theorem Listed.classify_eq_none_iff (h : Listed entries listing) :
    classify listing address = none ↔ ∀ m ∈ entries.filterMap Prod.snd, ¬ m.Has address := by
  simp only [h.classify_eq, Option.map_eq_none_iff, List.find?_eq_none, covers_iff]

theorem Listed.classify_eq_some_iff (h : Listed entries listing) :
    classify listing address = some kind ↔ ∃ before m after, entries.filterMap Prod.snd = before ++ m :: after ∧
      (∀ m' ∈ before, ¬ m'.Has address) ∧ m.Has address ∧ kind = if m.executable then .code else .data := by
  simp only [h.classify_eq, Option.map_eq_some_iff, List.find?_eq_some_iff_append, Bool.not_eq_true', ← Bool.not_eq_true,
    covers_iff]
  constructor
  · rintro ⟨m, ⟨hm, before, after, hsplit, hbefore⟩, rfl⟩
    exact ⟨before, m, after, hsplit, hbefore, hm, rfl⟩
  · rintro ⟨before, m, after, hsplit, hbefore, hm, rfl⟩
    exact ⟨m, ⟨hm, before, after, hsplit, hbefore⟩, rfl⟩

/-- Listings of the same lines in another order. -/
theorem Listed.classify_of_perm {entries' : List (List Char × Option Mapping)} {listing' : String}
    (h : Listed entries listing) (hperm : entries'.Perm entries) (hlisting : MadeOf (entries'.map Prod.fst) listing'.toList)
    (hapart : (entries.filterMap Prod.snd).Pairwise fun m m' => ∀ a, ¬ (m.Has a ∧ m'.Has a)) (address : Word) :
    classify listing' address = classify listing address := by
  have h' : Listed entries' listing' := ⟨fun e he => h.lines e (hperm.mem_iff.1 he), hlisting⟩
  have hone : (entries.filterMap Prod.snd).Pairwise fun m m' =>
      ¬ (m.covers address.toNat = true ∧ m'.covers address.toNat = true) :=
    hapart.imp fun {m m'} hno => by simpa only [covers_iff] using hno address
  rw [h.classify_eq, h'.classify_eq, find?_eq_of_perm (hperm.filterMap Prod.snd).symm hone]

/-- Lines that describe no mapping count for nothing, whatever the other lines are. -/
theorem classify_of_noise {front noise back : List (List Char)} {listing' : String} (hnoise : ∀ l ∈ noise, Says l none)
    (h : MadeOf (front ++ back) listing.toList) (h' : MadeOf (front ++ noise ++ back) listing'.toList) (address : Word) :
    classify listing' address = classify listing address := by
  have hnone : noise.filterMap ofLine? = [] := List.filterMap_eq_nil_iff.2 fun l hl => (hnoise l hl).ofLine?_eq
  rw [classify_madeOf h, classify_madeOf h', List.filterMap_append, List.filterMap_append, List.filterMap_append, hnone,
    List.append_nil]

end

/-- **The first mapping that has an address decides.** In a listing whose lines describe mappings or none, an address that
no mapping has is of no category, and an address that one has is code or data by the third permission of the first such
mapping. If no two mappings overlap, any order of the lines gives the same answer; and lines that describe no mapping may
be put in anywhere, or left out. -/
theorem classified_by_first (address : Word) :
    (∀ (entries : List (List Char × Option Mapping)) (listing : String), Listed entries listing →
      (classify listing address = none ↔ ∀ m ∈ entries.filterMap Prod.snd, ¬ m.Has address) ∧
      (∀ kind, classify listing address = some kind ↔ ∃ before m after,
        entries.filterMap Prod.snd = before ++ m :: after ∧ (∀ m' ∈ before, ¬ m'.Has address) ∧ m.Has address ∧
        kind = if m.executable then .code else .data) ∧
      ((entries.filterMap Prod.snd).Pairwise (fun m m' => ∀ a, ¬ (m.Has a ∧ m'.Has a)) →
        ∀ (entries' : List (List Char × Option Mapping)) (listing' : String), entries'.Perm entries →
          MadeOf (entries'.map Prod.fst) listing'.toList → classify listing' address = classify listing address)) ∧
    ∀ (front noise back : List (List Char)) (listing listing' : String), (∀ l ∈ noise, Says l none) →
      MadeOf (front ++ back) listing.toList → MadeOf (front ++ noise ++ back) listing'.toList →
      classify listing' address = classify listing address := by
  refine ⟨fun entries listing h => ⟨h.classify_eq_none_iff, fun kind => h.classify_eq_some_iff, ?_⟩, ?_⟩
  · intro hapart entries' listing' hperm hlisting
    exact h.classify_of_perm hperm hlisting hapart address
  · intro front noise back listing listing' hnoise h h'
    exact classify_of_noise hnoise h h' address

end Mapping

end SymbolBridge
