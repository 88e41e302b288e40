import SymbolBridge.Text.Blank
import SymbolBridge.Text.Lines

/-!
# What is cut off a text

`takeBytes max` gives the longest prefix that fits in `max` bytes (`Text.longestWithin_takeBytes`), and there is only one
such prefix (`Text.LongestWithin.eq`). A prefix of fewer bytes is a prefix of a longer one (`Text.exists_between`), so a
number of bytes names one place of a text at most. `dropLast c` takes one `c` off the end, if there is one
(`Text.withoutOne_dropLast`). `trim` takes off the blanks around a text that has none in it (`Text.trim_padded`).
-/

namespace SymbolBridge.Text

/-! ## Bytes -/

theorem utf8ByteSize_eq_byteLength (s : String) : s.utf8ByteSize = byteLength s.toList := by
  obtain ⟨l, rfl⟩ : ∃ l, s = String.ofList l := ⟨s.toList, String.ofList_toList.symm⟩
  rw [String.toList_ofList]
  induction l with
  | nil => rfl
  | cons c l ih =>
    have h : String.ofList (c :: l) = String.singleton c ++ String.ofList l := by
      rw [← String.toList_inj]
      simp
    rw [h, String.utf8ByteSize_append, ih, String.utf8ByteSize_singleton, byteLength_cons]

/-- The longest prefix of a text whose characters take at most `max` bytes. -/
structure LongestWithin (max : Nat) (text kept : List Char) : Prop where
  isPrefix : kept <+: text
  fits : byteLength kept ≤ max
  longest : ∀ other, other <+: text → byteLength other ≤ max → other <+: kept

theorem takeBytes_eq_self_iff {max : Nat} {cs : List Char} : takeBytes max cs = cs ↔ byteLength cs ≤ max := by
  constructor
  · intro h
    have hle := byteLength_takeBytes_le max cs
    rwa [h] at hle
  · intro h
    induction cs generalizing max with
    | nil => rfl
    | cons c cs ih =>
      rw [byteLength_cons] at h
      have hc : c.utf8Size ≤ max := by omega
      rw [takeBytes, if_pos hc, ih (by omega)]

theorem prefix_takeBytes {max : Nat} {text other : List Char} (h : other <+: text) (hmax : byteLength other ≤ max) :
    other <+: takeBytes max text := by
  induction other generalizing max text with
  | nil => exact List.nil_prefix
  | cons c other ih =>
    obtain ⟨rest, rfl⟩ := h
    rw [byteLength_cons] at hmax
    have hc : c.utf8Size ≤ max := by omega
    rw [List.cons_append, takeBytes, if_pos hc, List.cons_prefix_cons]
    exact ⟨rfl, ih (List.prefix_append other rest) (by omega)⟩

theorem longestWithin_takeBytes (max : Nat) (text : List Char) : LongestWithin max text (takeBytes max text) where
  isPrefix := takeBytes_prefix max text
  fits := byteLength_takeBytes_le max text
  longest _ h hmax := prefix_takeBytes h hmax

theorem longestWithin_truncate (max : Nat) (s : String) : LongestWithin max s.toList (truncate max s).toList := by
  rw [truncate, String.toList_ofList]
  exact longestWithin_takeBytes max _

theorem LongestWithin.eq {max : Nat} {text kept kept' : List Char} (h : LongestWithin max text kept)
    (h' : LongestWithin max text kept') : kept = kept' := by
  have hle : kept <+: kept' := h'.longest kept h.isPrefix h.fits
  have hge : kept' <+: kept := h.longest kept' h'.isPrefix h'.fits
  exact hle.eq_of_length_le hge.length_le

/-- Of two places in a text the one after fewer bytes comes first. -/
theorem exists_between {xs ys xs' ys' : List Char} (h : xs ++ ys = xs' ++ ys') (hlt : byteLength xs < byteLength xs') :
    ∃ mid, mid ≠ [] ∧ xs' = xs ++ mid := by
  rcases List.append_eq_append_iff.1 h with ⟨mid, rfl, -⟩ | ⟨mid, rfl, -⟩
  · refine ⟨mid, ?_, rfl⟩
    rintro rfl
    simp at hlt
  · rw [byteLength_append] at hlt
    omega

/-! ## Ends of lines -/

/-- One `c` taken off the end of a text; a text that does not end in `c` stays. -/
def WithoutOne (c : Char) (text rest : List Char) : Prop := text = rest ++ [c] ∨ text.getLast? ≠ some c ∧ rest = text

theorem withoutOne_dropLast (c : Char) (text : List Char) : WithoutOne c text (dropLast c text) := by
  unfold dropLast
  by_cases h : text.getLast? = some c
  · rw [if_pos h]
    obtain ⟨rest, rfl⟩ := List.getLast?_eq_some_iff.1 h
    exact .inl (by rw [List.dropLast_concat])
  · rw [if_neg h]
    exact .inr ⟨h, rfl⟩

/-! ## Blanks -/

theorem dropWhile_isBlank_padded {before core : List Char} (hbefore : ∀ x ∈ before, isBlank x)
    (hcore : ∀ x ∈ core, isBlank x = false) (after : List Char) (hne : core ≠ []) :
    (before ++ (core ++ after)).dropWhile isBlank = core ++ after := by
  rw [List.dropWhile_append_of_pos hbefore]
  cases core with
  | nil => exact absurd rfl hne
  | cons x core =>
    have hx : ¬ isBlank x := by simp [hcore x List.mem_cons_self]
    rw [List.cons_append, List.dropWhile_cons_of_neg hx]

theorem trim_padded {before core after : List Char} (hbefore : ∀ x ∈ before, isBlank x)
    (hcore : ∀ x ∈ core, isBlank x = false) (hafter : ∀ x ∈ after, isBlank x) (hne : core ≠ []) :
    trim (before ++ core ++ after) = core := by
  have hback : ∀ x ∈ after.reverse, isBlank x := fun x hx => hafter x (List.mem_reverse.1 hx)
  have hcore' : ∀ x ∈ core.reverse, isBlank x = false := fun x hx => hcore x (List.mem_reverse.1 hx)
  have hend := dropWhile_isBlank_padded hback hcore' [] (by simpa using hne)
  rw [trim, List.append_assoc, dropWhile_isBlank_padded hbefore hcore after hne, List.reverse_append]
  rw [List.append_nil] at hend
  rw [hend, List.reverse_reverse]

end SymbolBridge.Text
