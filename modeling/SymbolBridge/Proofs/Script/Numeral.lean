import SymbolBridge.Proofs.Value.Notation

/-!
# Numerals of scripts and numbers elsewhere

A text is a number elsewhere, as on a command line, if `Number.read?` reads it; in a script it is one if the numeral in
front takes all of it. `numeralPrefix` takes a `Numeral` as a whole and stops inside a `Loose` one, at the plus sign or
in front of the point. So the two notations agree on every text but the loose ones, which scripts refuse
(`same_notation_iff`).
-/

namespace SymbolBridge.Script

open Number (Digits HexDigits Exponent Places Numeral Loose Signed Decimal)

section

variable {x : Char} {cs ds places e r : List Char}

theorem hexPrefix_of_hexDigits (hx : x = 'x' ∨ x = 'X') (hds : HexDigits ds) :
    hexPrefix ('0' :: x :: ds) = '0' :: x :: ds := by
  have hall : ds.takeWhile isHexDigit = ds := List.takeWhile_eq_self_iff.2 hds.2
  have hne : ds.isEmpty = false := List.isEmpty_eq_false_iff.2 hds.1
  simp only [hexPrefix, hall, hne, hx, Bool.not_false, and_self, if_true]

theorem hexPrefix_of_decimal (h : Decimal cs) : hexPrefix cs = [] := by
  unfold hexPrefix
  split
  · rename_i y t
    rw [if_neg fun hy => hy.1.elim (h y t rfl).1 (h y t rfl).2]
  · rfl

theorem signedDigits_append {sign : List Char} (hsign : sign = [] ∨ sign = ['+'] ∨ sign = ['-']) (hds : Digits ds) :
    signedDigits (sign ++ ds) = sign ++ ds := by
  have hall : ds.takeWhile Char.isDigit = ds := List.takeWhile_eq_self_iff.2 hds.2
  have hhead : ∀ {y t}, ds = y :: t → y.isDigit := fun h => hds.2 _ (h ▸ List.mem_cons_self)
  rcases hsign with rfl | rfl | rfl
  · rw [List.nil_append, signedDigits_of_unsigned, hall]
    · exact fun t h => absurd (hhead h) (by decide)
    · exact fun t h => absurd (hhead h) (by decide)
  · simp [signedDigits, leadBy, hall, hds.1]
  · simp [signedDigits, leadBy, hall, hds.1]

theorem exponentPrefix_of_exponent (h : Exponent e) : exponentPrefix e = e := by
  cases h with
  | none => rfl
  | some hmark hsign hds =>
    rw [exponentPrefix_eq, leadBy, signedDigits_append hsign hds, if_pos]
    exact ⟨by simpa using hmark, List.append_ne_nil_of_right_ne_nil _ hds.1⟩

theorem placesPrefix_append (h : Places places) (he : ∀ x ∈ e.head?, x.isDigit = false ∧ x ≠ '.') :
    placesPrefix (places ++ e) = places := by
  have hd : ∀ x ∈ e.head?, x.isDigit = false := fun x hx => (he x hx).1
  cases h with
  | none =>
    rw [placesPrefix_eq]
    exact leadBy_eq_nil fun x hx => decide_eq_false (he x hx).2
  | @some ds hds =>
    have hne : ds.isEmpty = false := List.isEmpty_eq_false_iff.2 hds.1
    simp [placesPrefix, Number.takeWhile_digits hds.2 hd, hne]

theorem decimalPrefix_append (hds : Digits ds) (hr : ∀ x ∈ r.head?, x.isDigit = false) :
    decimalPrefix (ds ++ r) = ds ++ placesPrefix r ++ exponentPrefix (r.drop (placesPrefix r).length) := by
  have hne : ds.isEmpty = false := List.isEmpty_eq_false_iff.2 hds.1
  simp only [decimalPrefix, Number.takeWhile_digits hds.2 hr, Number.dropWhile_digits hds.2 hr, hne,
    Bool.false_eq_true, if_false]

/-- A numeral of scripts is taken as a whole. -/
theorem magnitudePrefix_of_numeral (h : Numeral cs) : magnitudePrefix cs = cs := by
  cases h with
  | hexadecimal hx hds _ =>
    simp only [magnitudePrefix_eq, hexPrefix_of_hexDigits hx hds, reduceCtorEq, if_false]
  | @decimal ds places e hds hplaces he =>
    have hend : ∀ x ∈ e.head?, x.isDigit = false ∧ x ≠ '.' := fun x hx => ⟨(he.head? x hx).1, (he.head? x hx).2.1⟩
    have hhead : ∀ x ∈ (places ++ e).head?, x.isDigit = false ∧ x ≠ 'x' ∧ x ≠ 'X' := by
      cases hplaces with
      | none => exact fun x hx => ⟨(he.head? x hx).1, (he.head? x hx).2.2⟩
      | some _ => simp
    have hdecimal : Decimal (ds ++ (places ++ e)) := hds.decimal_append fun x hx => (hhead x hx).2
    simp only [magnitudePrefix_eq, hexPrefix_of_decimal hdecimal, if_true,
      decimalPrefix_append hds fun x hx => (hhead x hx).1, placesPrefix_append hplaces hend, List.drop_left,
      exponentPrefix_of_exponent he, List.append_assoc]

/-- A loose one is not: the numeral ends in front of the plus sign or of the point. -/
theorem magnitudePrefix_ne_of_loose (h : Loose cs) : magnitudePrefix cs ≠ cs := by
  cases h with
  | @plus x ds hx hds _ =>
    rcases hx with rfl | rfl <;>
      simp [magnitudePrefix_eq, hexPrefix, isHexDigit, hexDigit?, decimalPrefix, placesPrefix, exponentPrefix]
  | @point ds e hds he =>
    have hdecimal : Decimal (ds ++ '.' :: e) := hds.decimal_append (by simp)
    have hhead : ∀ x ∈ ('.' :: e).head?, x.isDigit = false := by simp
    have hplaces : placesPrefix ('.' :: e) = [] := by
      rw [placesPrefix, takeWhile_eq_nil fun x hx => (he.head? x hx).1]
      rfl
    simp only [magnitudePrefix_eq, hexPrefix_of_decimal hdecimal, if_true, decimalPrefix_append hds hhead, hplaces]
    simp [exponentPrefix]

end

/-! ## Whole texts -/

section

variable {cs rest : List Char}

theorem numeralPrefix_hyphen_eq_self_iff :
    numeralPrefix ('-' :: rest) = '-' :: rest ↔ rest ≠ [] ∧ magnitudePrefix rest = rest := by
  by_cases hm : magnitudePrefix rest = []
  · simp only [numeralPrefix, hm]
    simp [eq_comm]
  · rw [numeralPrefix_hyphen hm, List.cons_inj_right]
    refine ⟨fun h => ⟨fun hrest => hm (h.trans hrest), h⟩, And.right⟩

theorem numeralPrefix_of_numeral (h : Signed Numeral cs) : cs ≠ [] ∧ numeralPrefix cs = cs := by
  rcases h with h | ⟨rest, rfl, h⟩
  · obtain ⟨x, xs, rfl, hx⟩ := h.exists_cons
    have hne : x ≠ '-' := by rintro rfl; exact absurd hx (by decide)
    exact ⟨List.cons_ne_nil x xs, (numeralPrefix_of_ne hne).trans (magnitudePrefix_of_numeral h)⟩
  · obtain ⟨x, xs, rfl, -⟩ := h.exists_cons
    exact ⟨List.cons_ne_nil _ _,
      numeralPrefix_hyphen_eq_self_iff.2 ⟨List.cons_ne_nil x xs, magnitudePrefix_of_numeral h⟩⟩

theorem numeralPrefix_ne_of_loose (h : Signed Loose cs) : numeralPrefix cs ≠ cs := by
  rcases h with h | ⟨rest, rfl, h⟩
  · obtain ⟨x, xs, rfl, hx⟩ := h.exists_cons
    have hne : x ≠ '-' := by rintro rfl; exact absurd hx (by decide)
    rw [numeralPrefix_of_ne hne]
    exact magnitudePrefix_ne_of_loose h
  · exact fun heq => magnitudePrefix_ne_of_loose h (numeralPrefix_hyphen_eq_self_iff.1 heq).2

end

/-- A text is the numeral of a number in a script, from its first character to its last. -/
def IsNumeralOf (t : String) (x : Number) : Prop := ∃ d, (Cursor.ofSource t).number? = some (x, d) ∧ d.rest = []

theorem isNumeralOf_iff {t : String} {x : Number} :
    IsNumeralOf t x ↔ (t.toList ≠ [] ∧ numeralPrefix t.toList = t.toList) ∧ Number.read? t.toList = some x := by
  constructor
  · rintro ⟨d, hd, hrest⟩
    obtain ⟨hn, hx, hs⟩ := Cursor.number?_eq_some_iff.1 hd
    have hall : numeralPrefix t.toList = t.toList := by
      have h := hs.rest
      rw [hrest, List.append_nil] at h
      exact h.symm
    exact ⟨⟨fun hnil => hn (hall.trans hnil), hall⟩, hall ▸ hx⟩
  · rintro ⟨⟨hne, hall⟩, hx⟩
    refine ⟨(Cursor.ofSource t).advance t.toList, Cursor.number?_eq_some_iff.2 ⟨?_, ?_, ?_⟩, ?_⟩
    · exact fun h => hne (hall.symm.trans h)
    · show Number.read? (numeralPrefix t.toList) = some x
      rw [hall, hx]
    · show (Cursor.ofSource t).Spells (numeralPrefix t.toList) _
      rw [hall]
      exact Cursor.spells_advance List.prefix_rfl
    · rw [Cursor.rest_advance]
      exact List.drop_length

/-- **Numbers of scripts and numbers elsewhere.** What a script has for a numeral is read as the same number everywhere.
The two notations agree on a text unless it is a loose numeral: one with a plus sign in front of hexadecimal digits, or
with a point that no digit follows. -/
theorem same_notation_iff (t : String) :
    (∀ x, IsNumeralOf t x → Number.read? t.toList = some x) ∧
      ((∀ x, Number.read? t.toList = some x ↔ IsNumeralOf t x) ↔ ¬ Signed Loose t.toList) := by
  refine ⟨fun x h => (isNumeralOf_iff.1 h).2, fun h hloose => ?_, fun hloose x => ⟨fun hx => ?_, fun h => ?_⟩⟩
  · obtain ⟨x, hx⟩ := Option.isSome_iff_exists.1 (Number.isSome_read?_iff.2 (.inr hloose))
    exact numeralPrefix_ne_of_loose hloose (isNumeralOf_iff.1 ((h x).1 hx)).1.2
  · have hsome : (Number.read? t.toList).isSome := Option.isSome_iff_exists.2 ⟨x, hx⟩
    have hnumeral := (Number.isSome_read?_iff.1 hsome).resolve_right hloose
    exact isNumeralOf_iff.2 ⟨numeralPrefix_of_numeral hnumeral, hx⟩
  · exact (isNumeralOf_iff.1 h).2

/-- Sixteen with a plus sign inside is a number on a command line and none in a script. -/
theorem plus_sign_in_numeral : Number.read? "0x+10".toList = some (.int 16) ∧ ¬ IsNumeralOf "0x+10" (.int 16) := by
  refine ⟨by decide, fun h => ?_⟩
  have hdigits : HexDigits ['1', '0'] := Number.hexDigits_iff.2 (by decide)
  have hloose : Loose "0x+10".toList := .plus (.inl rfl) hdigits (by decide)
  exact numeralPrefix_ne_of_loose (.inl hloose) (isNumeralOf_iff.1 h).1.2

end SymbolBridge.Script
