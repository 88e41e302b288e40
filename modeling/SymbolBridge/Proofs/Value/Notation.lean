import Mathlib.Data.List.TakeWhile
import SymbolBridge.Proofs.Script.Token

/-!
# Which texts write numbers

`Number.read?` reads a text as a number exactly if it is a `Numeral` or a `Loose` one, with a minus sign in front or
none (`Number.isSome_read?_iff`). The two are told apart because scripts have only the first for numerals. A text is
split at its leading digits, the rest at a point, and what comes after that at the sign of an exponent; each part has its
own lemma, which says when the part is read.
-/

namespace SymbolBridge

namespace Number

/-- One decimal digit or more. -/
def Digits (ds : List Char) : Prop := ds ≠ [] ∧ ∀ c ∈ ds, c.isDigit

/-- One hexadecimal digit or more. -/
def HexDigits (ds : List Char) : Prop := ds ≠ [] ∧ ∀ c ∈ ds, isHexDigit c

/-- The mark of an exponent, a sign or none, and digits; or nothing. -/
inductive Exponent : List Char → Prop
  | none : Exponent []
  | some {mark : Char} {sign ds : List Char} : mark = 'e' ∨ mark = 'E' → sign = [] ∨ sign = ['+'] ∨ sign = ['-'] →
      Digits ds → Exponent (mark :: (sign ++ ds))

/-- A point and digits, or nothing. -/
inductive Places : List Char → Prop
  | none : Places []
  | some {ds : List Char} : Digits ds → Places ('.' :: ds)

/-- The numerals of scripts, without their sign. -/
inductive Numeral : List Char → Prop
  | hexadecimal {x : Char} {ds : List Char} : x = 'x' ∨ x = 'X' → HexDigits ds → hexValue ds < pow2 64 →
      Numeral ('0' :: x :: ds)
  | decimal {ds places exponent : List Char} : Digits ds → Places places → Exponent exponent →
      Numeral (ds ++ (places ++ exponent))

/-- What is read as a number besides: a plus sign in front of hexadecimal digits, and a point without places. -/
inductive Loose : List Char → Prop
  | plus {x : Char} {ds : List Char} : x = 'x' ∨ x = 'X' → HexDigits ds → hexValue ds < pow2 64 →
      Loose ('0' :: x :: '+' :: ds)
  | point {ds exponent : List Char} : Digits ds → Exponent exponent → Loose (ds ++ '.' :: exponent)

/-- A text of a notation, with a minus sign in front or none. -/
def Signed (P : List Char → Prop) (cs : List Char) : Prop := P cs ∨ ∃ rest, cs = '-' :: rest ∧ P rest

/-! ## Digits in front of something else -/

section

variable {ds r : List Char}

theorem takeWhile_digits (hds : ∀ c ∈ ds, c.isDigit) (hr : ∀ x ∈ r.head?, x.isDigit = false) :
    (ds ++ r).takeWhile Char.isDigit = ds := by
  rw [List.takeWhile_append_of_pos hds, Script.takeWhile_eq_nil hr, List.append_nil]

theorem dropWhile_digits (hds : ∀ c ∈ ds, c.isDigit) (hr : ∀ x ∈ r.head?, x.isDigit = false) :
    (ds ++ r).dropWhile Char.isDigit = r := by
  have h := List.takeWhile_append_dropWhile (p := Char.isDigit) (l := ds ++ r)
  rw [takeWhile_digits hds hr] at h
  exact List.append_cancel_left h

/-- Every text is digits, perhaps none, and what comes after them. -/
theorem exists_digits_append (cs : List Char) : ∃ ds r, cs = ds ++ r ∧ (∀ c ∈ ds, c.isDigit) ∧
    ∀ x ∈ r.head?, x.isDigit = false := by
  refine ⟨cs.takeWhile Char.isDigit, cs.dropWhile Char.isDigit, List.takeWhile_append_dropWhile.symm,
    fun c hc => List.mem_takeWhile_imp hc, fun x hx => ?_⟩
  have h := List.head?_dropWhile_not Char.isDigit cs
  rw [Option.mem_def.1 hx] at h
  exact h

theorem Digits.exists_cons (h : Digits ds) : ∃ x xs, ds = x :: xs ∧ x.isDigit := by
  obtain ⟨x, xs, rfl⟩ := List.exists_cons_of_ne_nil h.1
  exact ⟨x, xs, rfl, h.2 x List.mem_cons_self⟩

theorem digits_iff : Digits ds ↔ (ds.isEmpty || !ds.all Char.isDigit) = false := by
  simp [Digits]

theorem hexDigits_iff : HexDigits ds ↔ (ds.isEmpty || !ds.all isHexDigit) = false := by
  simp [HexDigits]

end

/-! ## Exponents -/

section

variable {cs ds e : List Char}

theorem Exponent.head? (h : Exponent e) : ∀ x ∈ e.head?, x.isDigit = false ∧ x ≠ '.' ∧ x ≠ 'x' ∧ x ≠ 'X' := by
  cases h with
  | none => simp
  | some hmark _ _ =>
    intro x hx
    obtain rfl := Option.some.inj hx
    rcases hmark with rfl | rfl <;> decide

/-- An exponent is read if digits follow its sign. -/
theorem isSome_readExponent? {mark : Char} {sign : List Char} (hmark : mark = 'e' ∨ mark = 'E')
    (hsign : (sign = [] ∧ ∀ x ∈ ds.head?, x ≠ '+' ∧ x ≠ '-') ∨ sign = ['+'] ∨ sign = ['-']) :
    (readExponent? (mark :: (sign ++ ds))).isSome ↔ Digits ds := by
  have hif : ∀ n : Int, (if ds.isEmpty || !ds.all Char.isDigit then Option.none else Option.some n).isSome ↔
      Digits ds := by
    intro n
    rw [digits_iff]
    cases ds.isEmpty || !ds.all Char.isDigit <;> simp
  rcases hsign with ⟨rfl, hhead⟩ | rfl | rfl
  · rw [List.nil_append, readExponent?.eq_def]
    simp only [if_pos hmark]
    split
    · exact absurd rfl (hhead '-' rfl).2
    · exact absurd rfl (hhead '+' rfl).1
    · exact hif _
  · simp only [List.singleton_append, readExponent?, if_pos hmark]
    exact hif _
  · simp only [List.singleton_append, readExponent?, if_pos hmark]
    exact hif _

theorem isSome_readExponent?_iff : (readExponent? cs).isSome ↔ Exponent cs := by
  constructor
  · intro h
    cases cs with
    | nil => exact .none
    | cons mark rest =>
      have hmark : mark = 'e' ∨ mark = 'E' := by
        by_contra hno
        simp [readExponent?.eq_def, hno] at h
      by_cases hsign : ∃ x ds, rest = x :: ds ∧ (x = '+' ∨ x = '-')
      · obtain ⟨x, ds, rfl, hx⟩ := hsign
        have hs : [x] = ['+'] ∨ [x] = ['-'] := by simpa using hx
        exact .some hmark (.inr hs) ((isSome_readExponent? hmark (.inr hs)).1 h)
      · have hhead : ∀ x ∈ rest.head?, x ≠ '+' ∧ x ≠ '-' := by
          intro x hx
          obtain ⟨ds, rfl⟩ := List.head?_eq_some_iff.1 hx
          exact ⟨fun he => hsign ⟨x, ds, rfl, .inl he⟩, fun he => hsign ⟨x, ds, rfl, .inr he⟩⟩
        exact .some hmark (.inl rfl) ((isSome_readExponent? hmark (.inl ⟨rfl, hhead⟩)).1 h)
  · rintro (_ | ⟨hmark, hsign, hds⟩)
    · rfl
    · refine (isSome_readExponent? hmark (hsign.imp_left fun hs => ⟨hs, ?_⟩)).2 hds
      obtain ⟨y, ys, rfl, hy⟩ := hds.exists_cons
      intro x hx
      obtain rfl := Option.some.inj hx
      constructor <;> rintro rfl <;> exact absurd hy (by decide)

end

/-! ## Decimal numerals -/

section

variable {cs ds ps e r : List Char}

theorem read?_of_point (hds : Digits ds) (hps : ∀ c ∈ ps, c.isDigit) (he : ∀ x ∈ e.head?, x.isDigit = false) :
    DecimalNumeral.read? (ds ++ '.' :: (ps ++ e)) = (readExponent? e).map (⟨ds, ps, ·⟩) := by
  have hr : ∀ x ∈ ('.' :: (ps ++ e)).head?, x.isDigit = false := by simp
  have hne : ds.isEmpty = false := List.isEmpty_eq_false_iff.2 hds.1
  simp only [DecimalNumeral.read?, takeWhile_digits hds.2 hr, dropWhile_digits hds.2 hr, takeWhile_digits hps he,
    dropWhile_digits hps he, hne, Bool.false_eq_true, if_false]

theorem read?_of_no_point (hds : Digits ds) (hr : ∀ x ∈ r.head?, x.isDigit = false ∧ x ≠ '.') :
    DecimalNumeral.read? (ds ++ r) = (readExponent? r).map (⟨ds, [], ·⟩) := by
  have hd : ∀ x ∈ r.head?, x.isDigit = false := fun x hx => (hr x hx).1
  have hne : ds.isEmpty = false := List.isEmpty_eq_false_iff.2 hds.1
  simp only [DecimalNumeral.read?, takeWhile_digits hds.2 hd, dropWhile_digits hds.2 hd, hne, Bool.false_eq_true,
    if_false]
  split
  · exact absurd rfl (hr '.' rfl).2
  · rfl

/-- A decimal text is digits, and then an exponent, or a point with digits, perhaps none, and an exponent. -/
theorem isSome_decimal_iff : (DecimalNumeral.read? cs).isSome ↔ ∃ ds r, cs = ds ++ r ∧ Digits ds ∧
    (Exponent r ∨ ∃ ps e, r = '.' :: (ps ++ e) ∧ (∀ c ∈ ps, c.isDigit) ∧ Exponent e) := by
  constructor
  · intro h
    obtain ⟨ds, r, rfl, hds, hr⟩ := exists_digits_append cs
    have hne : Digits ds := by
      refine ⟨?_, hds⟩
      rintro rfl
      simp only [DecimalNumeral.read?, takeWhile_digits hds hr, List.isEmpty_nil, if_true] at h
      cases h
    by_cases hpoint : ∃ t, r = '.' :: t
    · obtain ⟨t, rfl⟩ := hpoint
      obtain ⟨ps, e, rfl, hps, he⟩ := exists_digits_append t
      rw [read?_of_point hne hps he, Option.isSome_map, isSome_readExponent?_iff] at h
      exact ⟨ds, _, rfl, hne, .inr ⟨ps, e, rfl, hps, h⟩⟩
    · have hhead : ∀ x ∈ r.head?, x.isDigit = false ∧ x ≠ '.' := by
        intro x hx
        refine ⟨hr x hx, ?_⟩
        rintro rfl
        exact hpoint (List.head?_eq_some_iff.1 hx)
      rw [read?_of_no_point hne hhead, Option.isSome_map, isSome_readExponent?_iff] at h
      exact ⟨ds, r, rfl, hne, .inl h⟩
  · rintro ⟨ds, r, rfl, hds, hr | ⟨ps, e, rfl, hps, he⟩⟩
    · rw [read?_of_no_point hds fun x hx => ⟨(hr.head? x hx).1, (hr.head? x hx).2.1⟩, Option.isSome_map,
        isSome_readExponent?_iff]
      exact hr
    · rw [read?_of_point hds hps fun x hx => (he.head? x hx).1, Option.isSome_map, isSome_readExponent?_iff]
      exact he

end

/-! ## Numbers without a sign -/

section

variable {negative : Bool} {x : Char} {cs ds r : List Char} {n : Nat}

theorem readHexWord?_eq_some_iff (h : ∀ x ∈ ds.head?, x ≠ '+') :
    readHexWord? ds = some n ↔ HexDigits ds ∧ hexValue ds < pow2 64 ∧ hexValue ds = n := by
  rw [readHexWord?, hexDigits_iff]
  · cases ds.isEmpty || !ds.all isHexDigit <;> simp
  · rintro rest rfl
    exact h '+' rfl rfl

theorem readHexWord?_plus_eq_some_iff :
    readHexWord? ('+' :: ds) = some n ↔ HexDigits ds ∧ hexValue ds < pow2 64 ∧ hexValue ds = n := by
  rw [readHexWord?, hexDigits_iff]
  cases ds.isEmpty || !ds.all isHexDigit <;> simp

theorem readUnsigned?_hexadecimal (hx : x = 'x' ∨ x = 'X') : readUnsigned? negative ('0' :: x :: ds) =
    (readHexWord? ds).map fun n => .int (Int64.ofInt (if negative then -(n : Int) else n)) := by
  rcases hx with rfl | rfl <;> rw [readUnsigned?] <;> cases readHexWord? ds <;> rfl

/-- A text that does not start as a hexadecimal number. -/
def Decimal (cs : List Char) : Prop := ∀ x ds, cs = '0' :: x :: ds → x ≠ 'x' ∧ x ≠ 'X'

theorem readUnsigned?_decimal (h : Decimal cs) : readUnsigned? negative cs =
    match readInt64? negative cs with
    | some n => some (.int n)
    | none => (DecimalNumeral.read? cs).map fun d => .float (d.toBinary64 negative) := by
  unfold readUnsigned?
  split
  · exact absurd rfl (h _ _ rfl).1
  · exact absurd rfl (h _ _ rfl).2
  · rfl

/-- Decimal digits do not start as a hexadecimal number, whatever else comes after them. -/
theorem Digits.decimal_append (hds : Digits ds) (hr : ∀ x ∈ r.head?, x ≠ 'x' ∧ x ≠ 'X') : Decimal (ds ++ r) := by
  intro x t heq
  obtain ⟨y, ys, rfl, -⟩ := hds.exists_cons
  obtain ⟨-, heq⟩ := List.cons.inj heq
  cases ys with
  | nil => exact hr x (List.head?_eq_some_iff.2 ⟨t, heq⟩)
  | cons z zs =>
    obtain ⟨rfl, -⟩ := List.cons.inj heq
    have hz : z.isDigit := hds.2 z (List.mem_cons_of_mem _ List.mem_cons_self)
    constructor <;> rintro rfl <;> exact absurd hz (by decide)

theorem digits_of_readInt64? {m : Int64} (h : readInt64? negative cs = some m) : Digits cs := by
  by_contra hno
  rw [digits_iff, Bool.not_eq_false] at hno
  rw [readInt64?, if_pos hno] at h
  cases h

theorem isSome_readUnsigned?_of_decimal (h : Decimal cs) :
    (readUnsigned? negative cs).isSome ↔ (DecimalNumeral.read? cs).isSome := by
  rw [readUnsigned?_decimal h]
  cases hread : readInt64? negative cs with
  | none => simp
  | some m =>
    have hdecimal := isSome_decimal_iff.2 ⟨cs, [], (List.append_nil cs).symm, digits_of_readInt64? hread, .inl .none⟩
    simp [hdecimal]

theorem HexDigits.head?_ne_plus (h : HexDigits ds) : ∀ y ∈ ds.head?, y ≠ '+' := by
  rintro y hy rfl
  exact absurd (h.2 '+' (List.mem_of_mem_head? hy)) (by decide)

theorem Numeral.isSome (h : Numeral cs) : (readUnsigned? negative cs).isSome := by
  cases h with
  | hexadecimal hx hds hlt =>
    rw [readUnsigned?_hexadecimal hx, (readHexWord?_eq_some_iff hds.head?_ne_plus).2 ⟨hds, hlt, rfl⟩]
    rfl
  | @decimal ds places e hds hplaces he =>
    cases hplaces with
    | none =>
      rw [List.nil_append, isSome_readUnsigned?_of_decimal (hds.decimal_append fun x hx => (he.head? x hx).2.2)]
      exact isSome_decimal_iff.2 ⟨ds, e, rfl, hds, .inl he⟩
    | @some ps hps =>
      rw [isSome_readUnsigned?_of_decimal (hds.decimal_append (by simp))]
      exact isSome_decimal_iff.2 ⟨ds, _, rfl, hds, .inr ⟨ps, e, rfl, hps.2, he⟩⟩

theorem Loose.isSome (h : Loose cs) : (readUnsigned? negative cs).isSome := by
  cases h with
  | plus hx hds hlt =>
    rw [readUnsigned?_hexadecimal hx, readHexWord?_plus_eq_some_iff.2 ⟨hds, hlt, rfl⟩]
    rfl
  | @point ds e hds he =>
    rw [isSome_readUnsigned?_of_decimal (hds.decimal_append (by simp))]
    exact isSome_decimal_iff.2 ⟨ds, _, rfl, hds, .inr ⟨[], e, rfl, by simp, he⟩⟩

theorem numeral_or_loose (h : (readUnsigned? negative cs).isSome) : Numeral cs ∨ Loose cs := by
  by_cases hd : Decimal cs
  · rw [isSome_readUnsigned?_of_decimal hd] at h
    obtain ⟨ds, r, rfl, hds, hr | ⟨ps, e, rfl, hps, he⟩⟩ := isSome_decimal_iff.1 h
    · exact .inl (.decimal hds .none hr)
    · by_cases hne : ps = []
      · subst hne
        exact .inr (.point hds he)
      · exact .inl (.decimal hds (.some ⟨hne, hps⟩) he)
  · simp only [Decimal, not_forall] at hd
    obtain ⟨x, ds, rfl, hx⟩ := hd
    rw [ne_eq, ne_eq, not_and_or, not_not, not_not] at hx
    rw [readUnsigned?_hexadecimal hx, Option.isSome_map, Option.isSome_iff_exists] at h
    obtain ⟨n, hn⟩ := h
    by_cases hplus : ∃ t, ds = '+' :: t
    · obtain ⟨t, rfl⟩ := hplus
      obtain ⟨ht, hlt, -⟩ := readHexWord?_plus_eq_some_iff.1 hn
      exact .inr (.plus hx ht hlt)
    · have hhead : ∀ y ∈ ds.head?, y ≠ '+' := by
        rintro y hy rfl
        exact hplus (List.head?_eq_some_iff.1 hy)
      obtain ⟨ht, hlt, -⟩ := (readHexWord?_eq_some_iff hhead).1 hn
      exact .inl (.hexadecimal hx ht hlt)

end

/-! ## Signs -/

section

variable {P : List Char → Prop} {cs rest : List Char}

theorem Numeral.exists_cons (h : Numeral cs) : ∃ x xs, cs = x :: xs ∧ x.isDigit := by
  cases h with
  | hexadecimal _ _ _ => exact ⟨'0', _, rfl, by decide⟩
  | decimal hds _ _ =>
    obtain ⟨x, xs, rfl, hx⟩ := hds.exists_cons
    exact ⟨x, _, rfl, hx⟩

theorem Loose.exists_cons (h : Loose cs) : ∃ x xs, cs = x :: xs ∧ x.isDigit := by
  cases h with
  | plus _ _ _ => exact ⟨'0', _, rfl, by decide⟩
  | point hds _ =>
    obtain ⟨x, xs, rfl, hx⟩ := hds.exists_cons
    exact ⟨x, _, rfl, hx⟩

/-- A notation whose texts start with digits has one sign at most. -/
theorem signed_hyphen_iff (hP : ∀ {cs}, P cs → ∃ x xs, cs = x :: xs ∧ x.isDigit) : Signed P ('-' :: rest) ↔ P rest := by
  constructor
  · rintro (h | ⟨rest', heq, h⟩)
    · obtain ⟨x, xs, heq, hx⟩ := hP h
      rw [← (List.cons.inj heq).1] at hx
      exact absurd hx (by decide)
    · exact (List.cons.inj heq).2 ▸ h
  · exact fun h => .inr ⟨rest, rfl, h⟩

theorem signed_iff_of_ne (h : ∀ rest, cs ≠ '-' :: rest) : Signed P cs ↔ P cs :=
  ⟨fun hs => hs.resolve_right fun ⟨rest, heq, _⟩ => h rest heq, .inl⟩

theorem read?_of_ne (h : ∀ rest, cs ≠ '-' :: rest) : read? cs = readUnsigned? false cs := by
  unfold read?
  split
  · exact absurd rfl (h _)
  · rfl

/-- What is read as a number: the numerals of scripts, and the loose ones. -/
theorem isSome_read?_iff : (read? cs).isSome ↔ Signed Numeral cs ∨ Signed Loose cs := by
  have hunsigned : ∀ {negative : Bool} {cs : List Char},
      (readUnsigned? negative cs).isSome ↔ Numeral cs ∨ Loose cs :=
    ⟨numeral_or_loose, fun h => h.elim Numeral.isSome Loose.isSome⟩
  by_cases h : ∃ rest, cs = '-' :: rest
  · obtain ⟨rest, rfl⟩ := h
    rw [signed_hyphen_iff Numeral.exists_cons, signed_hyphen_iff Loose.exists_cons]
    exact hunsigned
  · have hne : ∀ rest, cs ≠ '-' :: rest := fun rest heq => h ⟨rest, heq⟩
    rw [signed_iff_of_ne hne, signed_iff_of_ne hne, read?_of_ne hne]
    exact hunsigned

end

end Number

end SymbolBridge
