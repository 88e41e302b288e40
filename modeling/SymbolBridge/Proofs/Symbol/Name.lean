import Mathlib.Data.List.TakeWhile
import SymbolBridge.Proofs.Text.Cut
import SymbolBridge.Symbol.Name

/-!
# What is kept of a name

A text is kept whole as a name exactly if it has no NUL and fits in the bound (`SymbolName.keep_eq_self_iff`). What is
kept of a text is kept whole (`SymbolName.keep_keep`). Nothing is kept of a text whose first character does not fit in the
bound (`SymbolName.keep_ne_empty_iff`).

What is kept is the longest beginning of the text that can be a name under the bound (`SymbolName.longest_iff`). Two bounds
one after the other keep what the smaller one keeps (`SymbolName.Longest.trans`, `SymbolName.ofText_bind_ofText`).
-/

namespace SymbolBridge

namespace Text

theorem beforeNul_eq_self_iff {cs : List Char} : beforeNul cs = cs ↔ '\x00' ∉ cs := by
  rw [beforeNul, List.takeWhile_eq_self_iff]
  constructor
  · intro h hmem
    simpa using h _ hmem
  · intro h c hc
    simpa using fun heq : c = '\x00' => h (heq ▸ hc)

end Text

namespace SymbolName

open Text

/-- A text is kept whole if it has no NUL and is not longer than the bound. -/
theorem keep_eq_self_iff {bound : Nat} {raw : String} :
    keep bound raw = raw ↔ '\x00' ∉ raw.toList ∧ byteLength raw.toList ≤ bound := by
  have hlist : keep bound raw = raw ↔ takeBytes bound (beforeNul raw.toList) = raw.toList := by
    rw [keep, ← String.toList_inj, String.toList_ofList]
  rw [hlist, ← beforeNul_eq_self_iff]
  constructor
  · intro h
    have hbefore : beforeNul raw.toList = raw.toList := by
      have htaken := takeBytes_prefix bound (beforeNul raw.toList)
      rw [h] at htaken
      exact (List.takeWhile_prefix _).eq_of_length_le htaken.length_le
    rw [hbefore] at h
    exact ⟨hbefore, takeBytes_eq_self_iff.1 h⟩
  · rintro ⟨hbefore, hle⟩
    rw [hbefore, takeBytes_eq_self_iff.2 hle]

theorem keep_keep (bound : Nat) (raw : String) : keep bound (keep bound raw) = keep bound raw := by
  rw [keep_eq_self_iff, keep, String.toList_ofList]
  refine ⟨fun hmem => ?_, byteLength_takeBytes_le bound _⟩
  have htaken := takeBytes_prefix bound (beforeNul raw.toList)
  have hnul := List.mem_takeWhile_imp (htaken.subset hmem)
  simp at hnul

/-- Something is kept of a text if its first character is no NUL and fits in the bound. -/
theorem keep_ne_empty_iff {bound : Nat} {raw : String} {first : Char} {rest : List Char}
    (h : beforeNul raw.toList = first :: rest) : keep bound raw ≠ "" ↔ first.utf8Size ≤ bound := by
  rw [keep, h, takeBytes]
  by_cases hfits : first.utf8Size ≤ bound
  · simp [hfits]
  · simp [hfits]

theorem exists_ofText_of_fits {bound : Nat} {raw : String} {first : Char} {rest : List Char}
    (h : beforeNul raw.toList = first :: rest) (hfits : first.utf8Size ≤ bound) :
    ∃ name, ofText bound raw = .ok name := by
  have hkept : keep bound raw ≠ "" := (keep_ne_empty_iff h).2 hfits
  exact ⟨⟨keep bound raw⟩, by rw [ofText, if_neg hkept]⟩

theorem ofText_of_not_fits {bound : Nat} {raw : String} {first : Char} {rest : List Char}
    (h : beforeNul raw.toList = first :: rest) (hlong : bound < first.utf8Size) :
    ofText bound raw = .error .invalidName := by
  have hkept : keep bound raw = "" := by
    by_contra hne
    exact Nat.not_le.2 hlong ((keep_ne_empty_iff h).1 hne)
  rw [ofText, if_pos hkept]

theorem keep_of_ofText {bound : Nat} {raw : String} {name : SymbolName} (h : ofText bound raw = .ok name) :
    keep bound name.text = name.text := by
  rw [ofText] at h
  split at h
  · cases h
  · cases h
    exact keep_keep bound raw

/-! ## The longest name that a text begins with -/

/-- A beginning of a text, cut between characters, without NUL and within a bound in bytes. -/
structure Begins (bound : Nat) (raw name : String) : Prop where
  isPrefix : ∃ rest, raw = name ++ rest
  noNul : '\x00' ∉ name.toList
  fits : name.utf8ByteSize ≤ bound

/-- The beginning that all other ones are beginnings of. -/
structure Longest (bound : Nat) (raw kept : String) : Prop where
  begins : Begins bound raw kept
  longest : ∀ name, Begins bound raw name → ∃ more, kept = name ++ more

section

variable {a b bound : Nat} {raw kept name other : String}

theorem Begins.trans (h : Begins a raw kept) (h' : Begins b kept name) : Begins (min a b) raw name := by
  obtain ⟨⟨rest, rfl⟩, -, ha⟩ := h
  obtain ⟨⟨more, rfl⟩, hnul, hb⟩ := h'
  refine ⟨⟨more ++ rest, by rw [String.append_assoc]⟩, hnul, ?_⟩
  rw [String.utf8ByteSize_append] at ha
  omega

theorem Begins.mono (h : Begins a raw name) (hle : a ≤ b) : Begins b raw name :=
  ⟨h.isPrefix, h.noNul, Nat.le_trans h.fits hle⟩

/-- The longest beginning under one bound and then under another is the longest one under both. -/
theorem Longest.trans (h : Longest a raw kept) (h' : Longest b kept name) : Longest (min a b) raw name where
  begins := h.begins.trans h'.begins
  longest other hother := by
    have hmore : ∃ more, kept = other ++ more := h.longest other (hother.mono (Nat.min_le_left a b))
    exact h'.longest other ⟨hmore, hother.noNul, Nat.le_trans hother.fits (Nat.min_le_right a b)⟩

theorem Longest.eq (h : Longest bound raw kept) (h' : Longest bound raw other) : kept = other := by
  obtain ⟨m, hm⟩ := h.longest other h'.begins
  obtain ⟨n, hn⟩ := h'.longest kept h.begins
  have hsize : m.utf8ByteSize = 0 := by
    have hk := congrArg String.utf8ByteSize hm
    have ho := congrArg String.utf8ByteSize hn
    rw [String.utf8ByteSize_append] at hk ho
    omega
  rw [hm, String.utf8ByteSize_eq_zero_iff.1 hsize, String.append_empty]

/-- What is kept of a text is the longest beginning under the bound. -/
theorem longest_keep (bound : Nat) (raw : String) : Longest bound raw (keep bound raw) where
  begins := by
    have hkeep := keep_eq_self_iff.1 (keep_keep bound raw)
    have hprefix : (keep bound raw).toList <+: raw.toList := by
      have htaken := takeBytes_prefix bound (beforeNul raw.toList)
      rw [keep, String.toList_ofList]
      exact htaken.trans (List.takeWhile_prefix _)
    obtain ⟨rest, hrest⟩ := hprefix
    refine ⟨⟨String.ofList rest, ?_⟩, hkeep.1, ?_⟩
    · rw [← String.toList_inj, String.toList_append, String.toList_ofList, hrest]
    · rw [utf8ByteSize_eq_byteLength]
      exact hkeep.2
  longest name h := by
    obtain ⟨⟨rest, rfl⟩, hnul, hfits⟩ := h
    have hname : ∀ c ∈ name.toList, decide (c ≠ '\x00') = true := by
      intro c hc
      simpa using fun heq : c = '\x00' => hnul (heq ▸ hc)
    -- The name has no NUL, so it lies before the first NUL of the text.
    have hbefore : name.toList <+: beforeNul (name ++ rest).toList := by
      rw [beforeNul, String.toList_append, List.takeWhile_append_of_pos hname]
      exact List.prefix_append _ _
    rw [utf8ByteSize_eq_byteLength] at hfits
    obtain ⟨more, hmore⟩ := prefix_takeBytes hbefore hfits
    refine ⟨String.ofList more, ?_⟩
    rw [← String.toList_inj, keep, String.toList_ofList, ← hmore, String.toList_append, String.toList_ofList]

theorem longest_iff : Longest bound raw kept ↔ kept = keep bound raw := by
  constructor
  · intro h
    exact h.eq (longest_keep bound raw)
  · rintro rfl
    exact longest_keep bound raw

theorem keep_keep_min (a b : Nat) (raw : String) : keep b (keep a raw) = keep (min a b) raw :=
  longest_iff.1 ((longest_keep a raw).trans (longest_keep b (keep a raw)))

theorem ofText_eq_ok_iff {name : SymbolName} :
    ofText bound raw = .ok name ↔ keep bound raw ≠ "" ∧ name = ⟨keep bound raw⟩ := by
  unfold ofText
  by_cases h : keep bound raw = ""
  · simp [h]
  · simp [h, eq_comm]

theorem ofText_eq_error_iff {e : BridgeError} : ofText bound raw = .error e ↔ keep bound raw = "" ∧ e = .invalidName := by
  unfold ofText
  by_cases h : keep bound raw = ""
  · rw [if_pos h, Except.error.injEq]
    exact ⟨fun he => ⟨h, he.symm⟩, fun he => he.2.symm⟩
  · rw [if_neg h]
    exact ⟨fun he => (by cases he), fun he => absurd he.1 h⟩

/-- A text has the name that is kept of it, whatever came after. -/
theorem ofText_keep (bound : Nat) (raw : String) : ofText bound (keep bound raw) = ofText bound raw := by
  rw [ofText, ofText, keep_keep]

/-- Bounding a name once more is bounding it once by the smaller bound. -/
theorem ofText_bind_ofText (a b : Nat) (raw : String) :
    (ofText a raw >>= fun name => ofText b name.text) = ofText (min a b) raw := by
  by_cases ha : keep a raw = ""
  · -- Nothing is kept under the first bound, so nothing is under the smaller one.
    have hmin : keep (min a b) raw = "" := by
      rw [← keep_keep_min, ha]
      exact keep_eq_self_iff.2 (by simp)
    rw [ofText, if_pos ha, ofText, if_pos hmin]
    rfl
  · have hfirst : ofText a raw = .ok ⟨keep a raw⟩ := ofText_eq_ok_iff.2 ⟨ha, rfl⟩
    have hboth : ofText b (keep a raw) = ofText (min a b) raw := by rw [ofText, ofText, keep_keep_min]
    simp only [hfirst, bind, Except.bind, hboth]

end

end SymbolName

end SymbolBridge
