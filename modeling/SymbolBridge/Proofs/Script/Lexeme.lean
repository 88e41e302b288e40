import SymbolBridge.Script.Token

/-!
# Tokens as prefixes

Identifiers and numerals are prefixes of the text that is left. A way to find such a prefix is `Greedy` if it looks no
further than it has to: a prefix that lies within the first part of a text is found in that part alone. So are the
prefixes of a character class (`greedy_takeWhile`), two of them in a row (`Greedy.append`), and from these identifiers
(`greedy_identifierPrefix`) and numerals (`greedy_numeralPrefix`).
-/

namespace SymbolBridge.Script

/-- A prefix of a text, found without what comes after it. -/
structure Greedy (f : List Char → List Char) : Prop where
  isPrefix : ∀ cs, f cs <+: cs
  cut : ∀ t r, (f (t ++ r)).length ≤ t.length → f t = f (t ++ r)

namespace Greedy

variable {f g : List Char → List Char}

theorem eq_append_drop (hf : Greedy f) (cs : List Char) : cs = f cs ++ cs.drop (f cs).length := by
  obtain ⟨t, ht⟩ := hf.isPrefix cs
  rw [← congrArg (List.drop (f cs).length) ht, List.drop_left, ht]

/-- Where nothing is found in a text, nothing is found in its beginning. -/
theorem eq_nil_of_append (hf : Greedy f) {t r : List Char} (h : f (t ++ r) = []) : f t = [] :=
  (hf.cut t r (by rw [h]; exact Nat.zero_le _)).trans h

/-- One prefix after the other. -/
theorem append (hf : Greedy f) (hg : Greedy g) : Greedy fun cs => f cs ++ g (cs.drop (f cs).length) where
  isPrefix cs := by
    have h := (List.prefix_append_right_inj (f cs)).2 (hg.isPrefix (cs.drop (f cs).length))
    rwa [← hf.eq_append_drop cs] at h
  cut t r h := by
    simp only [List.length_append] at h
    have hft := hf.cut t r (by omega)
    have hd : (t ++ r).drop (f t).length = t.drop (f t).length ++ r :=
      List.drop_append_of_le_length (by rw [hft]; omega)
    rw [← hft, hd] at h
    have hgt := hg.cut (t.drop (f t).length) r (by rw [List.length_drop]; omega)
    simp only [← hft, hd, ← hgt]

/-- The second prefix only after a first one that is not empty. -/
theorem appendIf (hf : Greedy f) (hg : Greedy g) :
    Greedy fun cs => if f cs = [] then [] else f cs ++ g (cs.drop (f cs).length) where
  isPrefix cs := by
    split
    · exact List.nil_prefix
    · exact (hf.append hg).isPrefix cs
  cut t r h := by
    by_cases hn : f (t ++ r) = []
    · simp only [hn, hf.eq_nil_of_append hn, if_true]
    · simp only [hn, if_false] at h ⊢
      have hl : (f (t ++ r)).length ≤ t.length := by
        rw [List.length_append] at h
        omega
      have hft := hf.cut t r hl
      rw [if_neg (by rw [hft]; exact hn)]
      exact (hf.append hg).cut t r h

/-- The second prefix where the first is empty. -/
theorem orElse (hf : Greedy f) (hg : Greedy g) : Greedy fun cs => if f cs = [] then g cs else f cs where
  isPrefix cs := by
    split
    · exact hg.isPrefix cs
    · exact hf.isPrefix cs
  cut t r h := by
    by_cases hn : f (t ++ r) = []
    · simp only [hn, if_true] at h
      simp only [hn, hf.eq_nil_of_append hn, if_true]
      exact hg.cut t r h
    · simp only [hn, if_false] at h
      have hft := hf.cut t r h
      simp only [hft, hn, if_false]

end Greedy

/-! ## Character classes -/

theorem greedy_takeWhile (p : Char → Bool) : Greedy (List.takeWhile p) where
  isPrefix _ := List.takeWhile_prefix p
  cut t r h := by
    rw [List.takeWhile_append] at h ⊢
    split at h
    · rename_i hl
      have hr : r.takeWhile p = [] := by
        rw [List.length_append] at h
        exact List.length_eq_zero_iff.1 (by omega)
      rw [if_pos hl, hr, List.append_nil, (List.takeWhile_prefix p).eq_of_length hl]
    · rename_i hl
      rw [if_neg hl]

/-- A character of a class in front of a prefix that is not empty. -/
def leadBy (p : Char → Bool) (f : List Char → List Char) : List Char → List Char
  | [] => []
  | c :: cs => if p c ∧ f cs ≠ [] then c :: f cs else []

theorem Greedy.leadBy {f : List Char → List Char} (hf : Greedy f) (p : Char → Bool) : Greedy (leadBy p f) where
  isPrefix
    | [] => List.nil_prefix
    | c :: cs => by
      simp only [Script.leadBy]
      split
      · exact (List.prefix_cons_inj c).2 (hf.isPrefix cs)
      · exact List.nil_prefix
  cut
    | [], r, h => (List.length_eq_zero_iff.1 (Nat.le_zero.1 h)).symm
    | c :: t, r, h => by
      simp only [List.cons_append, Script.leadBy] at h ⊢
      by_cases hp : p c ∧ f (t ++ r) ≠ []
      · rw [if_pos hp, List.length_cons, List.length_cons] at h
        have hft := hf.cut t r (by omega)
        rw [hft]
      · have hq : ¬(p c ∧ f t ≠ []) := fun hq => hp ⟨hq.1, fun hr => hq.2 (hf.eq_nil_of_append hr)⟩
        rw [if_neg hp, if_neg hq]

theorem isDigit_of_isNameStart {x : Char} (h : isNameStart x) : x.isDigit = false := by
  delta isNameStart Char.isAlpha Char.isUpper Char.isLower at h
  simp only [Bool.or_eq_true, Bool.and_eq_true, decide_eq_true_eq, ge_iff_le, UInt32.le_iff_toNat_le] at h
  rw [Char.isDigit, Bool.and_eq_false_iff, decide_eq_false_iff_not, decide_eq_false_iff_not, ge_iff_le,
    UInt32.le_iff_toNat_le, UInt32.le_iff_toNat_le]
  have h9 : '9'.val.toNat = 57 := rfl
  have hA : 'A'.val.toNat = 65 := rfl
  have ha : 'a'.val.toNat = 97 := rfl
  rcases h with (⟨h, -⟩ | ⟨h, -⟩) | h
  · omega
  · omega
  · subst h
    decide

/-- A character that starts no name differs from one that does. -/
theorem ne_of_isNameStart {x y : Char} (h : isNameStart x) (hy : isNameStart y = false) : x ≠ y := by
  rintro rfl
  rw [h] at hy
  cases hy

theorem isSeparator_of_isNameStart {x : Char} (h : isNameStart x) : isSeparator x = false := by
  refine Bool.eq_false_iff.2 fun hs => ?_
  simp only [isSeparator, Bool.or_eq_true, decide_eq_true_eq] at hs
  rcases hs with (((rfl | rfl) | rfl) | rfl) | rfl <;> exact absurd h (by decide)

theorem isSeparator_of_isDigit {x : Char} (h : x.isDigit) : isSeparator x = false := by
  refine Bool.eq_false_iff.2 fun hs => ?_
  simp only [isSeparator, Bool.or_eq_true, decide_eq_true_eq] at hs
  rcases hs with (((rfl | rfl) | rfl) | rfl) | rfl <;> exact absurd h (by decide)

theorem isNameStart_of_identifierPrefix {x : Char} {cs : List Char} (h : identifierPrefix (x :: cs) ≠ []) :
    isNameStart x := by
  cases hx : isNameStart x with
  | true => rfl
  | false => exact absurd (by rw [identifierPrefix, hx]; rfl) h

theorem identifierPrefix_cons {x : Char} {cs : List Char} (h : isNameStart x) :
    identifierPrefix (x :: cs) = x :: cs.takeWhile isNameChar := by rw [identifierPrefix, if_pos h]

/-- A character of one class and then those of another. -/
theorem greedy_identifierPrefix : Greedy identifierPrefix where
  isPrefix
    | [] => List.nil_prefix
    | c :: cs => by
      by_cases h : isNameStart c
      · rw [identifierPrefix_cons h]
        exact (List.prefix_cons_inj c).2 (List.takeWhile_prefix _)
      · rw [identifierPrefix, if_neg h]
        exact List.nil_prefix
  cut
    | [], r, h => (List.length_eq_zero_iff.1 (Nat.le_zero.1 h)).symm
    | c :: t, r, h => by
      by_cases hc : isNameStart c
      · simp only [List.cons_append, identifierPrefix, if_pos hc, List.length_cons] at h ⊢
        rw [(greedy_takeWhile isNameChar).cut t r (by omega)]
      · simp only [List.cons_append, identifierPrefix, if_neg hc]

/-! ## Where names and numerals end -/

/-- Nothing here continues a name or a numeral in front. -/
def Apart (r : List Char) : Prop := ∀ x ∈ r.head?, isNameChar x = false ∧ x ≠ '.'

theorem Apart.head_eq_false {r : List Char} (h : Apart r) {p : Char → Bool} (hp : ∀ x, p x → isNameChar x) :
    ∀ x ∈ r.head?, p x = false :=
  fun x hx => Bool.eq_false_iff.2 fun hpx => Bool.eq_false_iff.1 (h x hx).1 (hp x hpx)

theorem takeWhile_eq_nil {p : Char → Bool} : ∀ {cs : List Char}, (∀ x ∈ cs.head?, p x = false) → cs.takeWhile p = []
  | [], _ => rfl
  | c :: cs, h => by
    rw [List.takeWhile_cons, h c rfl]
    rfl

/-- All of a text whose characters satisfy `p`, and nothing of what is apart from it. -/
theorem Apart.takeWhile_append {r : List Char} (h : Apart r) {p : Char → Bool} (hp : ∀ x, p x → isNameChar x)
    {xs : List Char} (hxs : ∀ x ∈ xs, p x) : (xs ++ r).takeWhile p = xs := by
  rw [List.takeWhile_append_of_pos hxs, takeWhile_eq_nil (h.head_eq_false hp), List.append_nil]

theorem leadBy_eq_nil {p : Char → Bool} {f : List Char → List Char} : ∀ {cs : List Char},
    (∀ x ∈ cs.head?, p x = false) → leadBy p f cs = []
  | [], _ => rfl
  | c :: cs, h => by rw [leadBy, if_neg fun hc => Bool.eq_false_iff.1 (h c rfl) hc.1]

theorem isNameChar_of_isDigit {x : Char} (h : x.isDigit) : isNameChar x := by
  rw [isNameChar, Char.isAlphanum, h, Bool.or_true, Bool.true_or]

/-! ## Numerals -/

theorem placesPrefix_eq : placesPrefix = leadBy (· = '.') (List.takeWhile Char.isDigit) := by
  funext cs
  unfold placesPrefix
  split
  · rename_i cs
    by_cases h : cs.takeWhile Char.isDigit = []
    · simp [leadBy, h]
    · simp [leadBy, h]
  · rename_i hne
    cases cs with
    | nil => rfl
    | cons c cs =>
      have hc : c ≠ '.' := fun hc => hne cs (by rw [hc])
      simp [leadBy, hc]

/-- The digits of an exponent, with a sign in front or none. -/
def signedDigits (cs : List Char) : List Char :=
  if leadBy (fun c => c = '+' || c = '-') (List.takeWhile Char.isDigit) cs = [] then cs.takeWhile Char.isDigit
  else leadBy (fun c => c = '+' || c = '-') (List.takeWhile Char.isDigit) cs

theorem signedDigits_of_unsigned {cs : List Char} (hp : ∀ t, cs ≠ '+' :: t) (hm : ∀ t, cs ≠ '-' :: t) :
    signedDigits cs = cs.takeWhile Char.isDigit := by
  rw [signedDigits, if_pos]
  cases cs with
  | nil => rfl
  | cons c cs =>
    have hc : c ≠ '+' ∧ c ≠ '-' := ⟨fun h => hp cs (by rw [h]), fun h => hm cs (by rw [h])⟩
    simp [leadBy, hc]

theorem exponentPrefix_eq : exponentPrefix = leadBy (fun c => c = 'e' || c = 'E') signedDigits := by
  funext cs
  cases cs with
  | nil => rfl
  | cons e cs =>
    by_cases he : e = 'e' ∨ e = 'E'
    · have he' : (decide (e = 'e') || decide (e = 'E')) = true := by simpa using he
      simp only [exponentPrefix, he, if_true, leadBy, he', true_and]
      split
      · rename_i t
        by_cases ht : t.takeWhile Char.isDigit = [] <;> simp [signedDigits, leadBy, ht]
      · rename_i t
        by_cases ht : t.takeWhile Char.isDigit = [] <;> simp [signedDigits, leadBy, ht]
      · rename_i hp hm
        rw [signedDigits_of_unsigned hp hm]
        by_cases ht : cs.takeWhile Char.isDigit = [] <;> simp [ht]
    · simp only [not_or] at he
      simp [exponentPrefix, leadBy, he]

theorem decimalPrefix_eq :
    decimalPrefix = fun cs => if cs.takeWhile Char.isDigit = [] then []
      else cs.takeWhile Char.isDigit ++ (fun cs => placesPrefix cs ++ exponentPrefix (cs.drop (placesPrefix cs).length))
        (cs.drop (cs.takeWhile Char.isDigit).length) := by
  funext cs
  have hd : cs.drop (cs.takeWhile Char.isDigit).length = cs.dropWhile Char.isDigit := by
    rw [← congrArg (List.drop (cs.takeWhile Char.isDigit).length) (List.takeWhile_append_dropWhile), List.drop_left]
  rw [hd]
  simp only [decimalPrefix, List.isEmpty_iff, List.append_assoc]

theorem hexPrefix_eq :
    hexPrefix = leadBy (· = '0') (leadBy (fun c => c = 'x' || c = 'X') (List.takeWhile isHexDigit)) := by
  funext cs
  unfold hexPrefix
  split
  · rename_i x cs
    by_cases h : cs.takeWhile isHexDigit = [] <;> by_cases hx : x = 'x' ∨ x = 'X' <;> simp [leadBy, h, hx]
  · rename_i hne
    match cs, hne with
    | [], _ => rfl
    | [c], _ => simp [leadBy]
    | c :: x :: cs, hne =>
      have hc : c ≠ '0' := fun hc => hne x cs (by rw [hc])
      simp [leadBy, hc]

theorem magnitudePrefix_eq :
    magnitudePrefix = fun cs => if hexPrefix cs = [] then decimalPrefix cs else hexPrefix cs := by
  funext cs
  unfold magnitudePrefix
  split
  · rename_i h
    rw [if_pos h]
  · rename_i h
    rw [if_neg h]

theorem numeralPrefix_eq :
    numeralPrefix = fun cs =>
      if leadBy (· = '-') magnitudePrefix cs = [] then magnitudePrefix cs
      else leadBy (· = '-') magnitudePrefix cs := by
  funext cs
  unfold numeralPrefix
  split
  · rename_i cs
    have hm : magnitudePrefix ('-' :: cs) = [] := by simp [magnitudePrefix, hexPrefix, decimalPrefix]
    split
    · rename_i h
      simp [leadBy, h, hm]
    · rename_i h
      simp [leadBy, show magnitudePrefix cs ≠ [] from h]
  · rename_i hne
    rw [if_pos]
    cases cs with
    | nil => rfl
    | cons c cs =>
      have hc : c ≠ '-' := fun hc => hne cs (by rw [hc])
      simp [leadBy, hc]

/-- A numeral without its sign starts with a digit. -/
theorem magnitudePrefix_eq_nil {x : Char} {cs : List Char} (h : x.isDigit = false) :
    magnitudePrefix (x :: cs) = [] := by
  have hz : x ≠ '0' := fun hz => absurd h (by rw [hz]; decide)
  rw [magnitudePrefix_eq, hexPrefix_eq, decimalPrefix_eq]
  simp [leadBy, hz, h]

theorem numeralPrefix_of_ne {x : Char} {cs : List Char} (hx : x ≠ '-') :
    numeralPrefix (x :: cs) = magnitudePrefix (x :: cs) := by
  simp [numeralPrefix_eq, leadBy, hx]

theorem numeralPrefix_hyphen {cs : List Char} (h : magnitudePrefix cs ≠ []) :
    numeralPrefix ('-' :: cs) = '-' :: magnitudePrefix cs := by
  simp [numeralPrefix_eq, leadBy, h]

theorem greedy_placesPrefix : Greedy placesPrefix := by
  rw [placesPrefix_eq]
  exact (greedy_takeWhile _).leadBy _

theorem greedy_exponentPrefix : Greedy exponentPrefix := by
  have hd := greedy_takeWhile Char.isDigit
  rw [exponentPrefix_eq]
  exact ((hd.leadBy _).orElse hd).leadBy _

theorem greedy_magnitudePrefix : Greedy magnitudePrefix := by
  have hx : Greedy hexPrefix := by
    rw [hexPrefix_eq]
    exact ((greedy_takeWhile _).leadBy _).leadBy _
  have hd : Greedy decimalPrefix := by
    rw [decimalPrefix_eq]
    exact (greedy_takeWhile _).appendIf (greedy_placesPrefix.append greedy_exponentPrefix)
  rw [magnitudePrefix_eq]
  exact hx.orElse hd

theorem greedy_numeralPrefix : Greedy numeralPrefix := by
  rw [numeralPrefix_eq]
  exact (greedy_magnitudePrefix.leadBy _).orElse greedy_magnitudePrefix

end SymbolBridge.Script
