import SymbolBridge.Proofs.Script.Lexeme
import SymbolBridge.Value.Display

/-!
# Integers in decimal

An integer prints as decimal digits with a minus sign in front or none. They read back as the same integer
(`Number.read?_toText`), and in front of anything that continues no number they are the whole numeral
(`numeralPrefix_toText`).
-/

namespace SymbolBridge

/-! ## Decimal digits -/

theorem decimalValue_toDigits (n : Nat) : decimalValue 0 (Nat.toDigits 10 n) = n := by
  have h : decimalValue 0 (Nat.toDigits 10 n) = Nat.ofDigitChars 10 (Nat.toDigits 10 n) 0 := by
    rw [Nat.ofDigitChars_eq_foldl]
    simp only [decimalValue, Nat.mul_comm]
  rw [h, Nat.ofDigitChars_ten_toDigits]

theorem isDigit_of_mem_toDigits {n : Nat} {x : Char} (h : x ∈ Nat.toDigits 10 n) : x.isDigit :=
  Nat.isDigit_of_mem_toDigits (by decide) (by decide) h

/-- The decimal digits of a number are one digit and more. -/
theorem exists_toDigits (n : Nat) :
    ∃ x xs, Nat.toDigits 10 n = x :: xs ∧ x.isDigit ∧ ∀ y ∈ xs, y.isDigit := by
  cases h : Nat.toDigits 10 n with
  | nil => exact absurd h Nat.toDigits_ne_nil
  | cons x xs =>
    have hall : ∀ y ∈ x :: xs, y.isDigit := fun y hy => isDigit_of_mem_toDigits (h ▸ hy)
    exact ⟨x, xs, rfl, hall x List.mem_cons_self, fun y hy => hall y (List.mem_cons_of_mem x hy)⟩

/-! ## Reading what was printed -/

namespace Number

theorem fitsInt64_toInt (n : Int64) : fitsInt64 n.toInt := by
  rw [fitsInt64, Bool.and_eq_true, decide_eq_true_eq, decide_eq_true_eq]
  exact ⟨Int64.minValue_le_toInt n, Int64.toInt_le n⟩

theorem readUnsigned?_toDigits {negative : Bool} {m : Nat} {n : Int64}
    (h : (if negative then -(m : Int) else m) = n.toInt) :
    readUnsigned? negative (Nat.toDigits 10 m) = some (.int n) := by
  have hread : readInt64? negative (Nat.toDigits 10 m) = some n := by
    have hall : (Nat.toDigits 10 m).all Char.isDigit = true := List.all_eq_true.2 fun x hx => isDigit_of_mem_toDigits hx
    have hne : (Nat.toDigits 10 m).isEmpty = false := List.isEmpty_eq_false_iff.2 Nat.toDigits_ne_nil
    simp only [readInt64?, hne, hall, Bool.not_true, Bool.or_false, Bool.false_eq_true, if_false, decimalValue_toDigits,
      h, fitsInt64_toInt, if_true, Int64.ofInt_toInt]
  obtain ⟨x, xs, hd, hx, hxs⟩ := exists_toDigits m
  unfold readUnsigned?
  split
  · rename_i ds hds
    have hmem : 'x' ∈ xs := by
      rw [(List.cons.inj (hd.symm.trans hds)).2]
      exact List.mem_cons_self
    exact absurd (hxs _ hmem) (by decide)
  · rename_i ds hds
    have hmem : 'X' ∈ xs := by
      rw [(List.cons.inj (hd.symm.trans hds)).2]
      exact List.mem_cons_self
    exact absurd (hxs _ hmem) (by decide)
  · rw [hread]

/-- An integer prints as a sign and digits. -/
theorem exists_toList_toText (n : Int64) : ∃ (negative : Bool) (m : Nat),
    (if negative then -(m : Int) else m) = n.toInt ∧
      (Number.int n).toText.toList = (if negative then ['-'] else []) ++ Nat.toDigits 10 m := by
  cases h : n.toInt with
  | ofNat m =>
    refine ⟨false, m, rfl, ?_⟩
    rw [toText, h]
    show (toString m).toList = _
    simp [Nat.toString_eq_repr, Nat.repr]
  | negSucc m =>
    refine ⟨true, m + 1, rfl, ?_⟩
    rw [toText, h]
    show ("-" ++ toString (m + 1)).toList = _
    simp [Nat.toString_eq_repr, Nat.repr]

/-- What an integer prints as reads back as the integer. -/
theorem read?_toText (n : Int64) : read? (Number.int n).toText.toList = some (.int n) := by
  obtain ⟨negative, m, hm, ht⟩ := exists_toList_toText n
  have hread := readUnsigned?_toDigits hm
  rw [ht]
  cases negative with
  | true => exact hread
  | false =>
    obtain ⟨x, xs, hd, hx, -⟩ := exists_toDigits m
    rw [if_neg Bool.false_ne_true, List.nil_append]
    rw [hd] at hread ⊢
    have hne : x ≠ '-' := fun he => absurd hx (by rw [he]; decide)
    unfold read?
    split
    · rename_i he
      exact absurd (List.cons.inj he).1 hne
    · exact hread

end Number

namespace Script

/-- Digits are the whole numeral if nothing follows that continues it. -/
theorem magnitudePrefix_toDigits (m : Nat) {r : List Char} (h : Apart r) :
    magnitudePrefix (Nat.toDigits 10 m ++ r) = Nat.toDigits 10 m := by
  obtain ⟨x, xs, hd, -, hxs⟩ := exists_toDigits m
  have hmark : ∀ y : Char, (decide (y = 'x') || decide (y = 'X')) = true → isNameChar y := by
    intro y hy
    simp only [Bool.or_eq_true, decide_eq_true_eq] at hy
    rcases hy with rfl | rfl <;> decide
  have hsecond : ∀ y ∈ (xs ++ r).head?, (decide (y = 'x') || decide (y = 'X')) = false := by
    cases xs with
    | nil => exact h.head_eq_false hmark
    | cons z zs =>
      intro y hy
      obtain rfl : z = y := Option.some.inj hy
      have hz : z.isDigit := hxs z List.mem_cons_self
      have hne : z ≠ 'x' ∧ z ≠ 'X' :=
        ⟨fun he => absurd hz (by rw [he]; decide), fun he => absurd hz (by rw [he]; decide)⟩
      simp [hne]
  have hhex : hexPrefix (Nat.toDigits 10 m ++ r) = [] := by
    rw [hexPrefix_eq, hd, List.cons_append, leadBy, leadBy_eq_nil hsecond]
    simp
  have hdigits : (Nat.toDigits 10 m ++ r).takeWhile Char.isDigit = Nat.toDigits 10 m :=
    h.takeWhile_append (fun _ => isNameChar_of_isDigit) fun _ => isDigit_of_mem_toDigits
  have hplaces : placesPrefix r = [] := by
    rw [placesPrefix_eq]
    exact leadBy_eq_nil fun y hy => decide_eq_false (h y hy).2
  have hexponent : exponentPrefix r = [] := by
    rw [exponentPrefix_eq]
    refine leadBy_eq_nil (h.head_eq_false fun y hy => ?_)
    simp only [Bool.or_eq_true, decide_eq_true_eq] at hy
    rcases hy with rfl | rfl <;> decide
  have hdecimal : decimalPrefix (Nat.toDigits 10 m ++ r) = Nat.toDigits 10 m := by
    simp only [decimalPrefix_eq, hdigits, if_neg (@Nat.toDigits_ne_nil m 10), List.drop_left, hplaces, List.length_nil,
      List.drop_zero, hexponent, List.append_nil]
  simp only [magnitudePrefix_eq, hhex, if_true, hdecimal]

/-- What an integer prints as is the whole numeral if nothing follows that continues it. -/
theorem numeralPrefix_toText (n : Int64) {r : List Char} (h : Apart r) :
    numeralPrefix ((Number.int n).toText.toList ++ r) = (Number.int n).toText.toList := by
  obtain ⟨negative, m, -, ht⟩ := Number.exists_toList_toText n
  obtain ⟨x, xs, hd, hx, -⟩ := exists_toDigits m
  have hm := magnitudePrefix_toDigits m h
  rw [ht]
  cases negative with
  | true =>
    show numeralPrefix ('-' :: (Nat.toDigits 10 m ++ r)) = '-' :: Nat.toDigits 10 m
    simp only [numeralPrefix, hm]
    rw [hd]
  | false =>
    have hlead : leadBy (· = '-') magnitudePrefix (Nat.toDigits 10 m ++ r) = [] := by
      refine leadBy_eq_nil fun y hy => decide_eq_false fun he => ?_
      rw [hd, List.cons_append, List.head?_cons, Option.mem_some_iff] at hy
      rw [hy, he] at hx
      exact absurd hx (by decide)
    simp only [Bool.false_eq_true, if_false, List.nil_append, numeralPrefix_eq, hlead, if_true, hm]

end Script

end SymbolBridge
