import SymbolBridge.Proofs.Value.Digits
import SymbolBridge.Proofs.Value.Numeral
import SymbolBridge.Toml.Document

/-!
# Values of one word

`Value.Spelled` are the texts of an integer in decimal, of a string in either kind of quotes without an escape, and of
the string of one character by its code. In front of a blank or the end of a line such a text is read as its value
(`value?_of_spelled`). An integer is then no part of a date, a time or a number with a fraction (`moment?_digits`,
`float?_toDigits`), and the quotes of a string open no string over several lines (`quoted_ne`).
-/

namespace SymbolBridge.Toml

/-! ## Blanks and ends of lines -/

/-- Spaces and tabs. -/
def Blanks (b : List Char) : Prop := ∀ x ∈ b, isSpace x

/-- A line ends in front of `cs` and `rest` is after its end, or both are the end of the text. -/
inductive LineEnd : List Char → List Char → Prop
  | lineFeed {rest : List Char} : LineEnd ('\n' :: rest) rest
  | carriageReturn {rest : List Char} : LineEnd ('\r' :: '\n' :: rest) rest
  | text : LineEnd [] []

/-- A value in front of `cs` ends there: `cs` is empty or starts with a blank or the end of a line. -/
def Stop (cs : List Char) : Prop := ∀ x ∈ cs.head?, x = ' ' ∨ x = '\t' ∨ x = '\r' ∨ x = '\n'

section

variable {b cs rest : List Char} {x : Char}

theorem skipSpace_append (hb : Blanks b) : skipSpace (b ++ cs) = skipSpace cs :=
  List.dropWhile_append_of_pos hb

theorem skipSpace_of_head (hx : isSpace x = false) : skipSpace (x :: cs) = x :: cs :=
  List.dropWhile_cons_of_neg (by simp [hx])

theorem endOfLine?_of_lineEnd (hb : Blanks b) (h : LineEnd cs rest) : endOfLine? (b ++ cs) = some rest := by
  unfold endOfLine? skipComment
  rw [skipSpace_append hb]
  cases h with
  | lineFeed => rfl
  | carriageReturn => rfl
  | text => rfl

theorem stop_of_lineEnd (hb : Blanks b) (h : LineEnd cs rest) : Stop (b ++ cs) := by
  cases b with
  | nil => cases h <;> simp [Stop]
  | cons x b =>
    have hx := hb x List.mem_cons_self
    simp only [isSpace, Bool.or_eq_true, decide_eq_true_eq] at hx
    intro y hy
    obtain rfl : x = y := by simpa using hy
    exact hx.elim .inl fun hx => .inr (.inl hx)

theorem Stop.ne_cons (h : Stop cs) (hx : x ∉ [' ', '\t', '\r', '\n']) : cs ≠ x :: rest := by
  rintro rfl
  exact hx (by simpa using h x (by simp))

end

/-! ## Integers -/

section

variable {ds tail cs : List Char} {n : Nat}

theorem digits?_cons {p : Char → Bool} {c : Char} (hc : p c) (hcs : ∀ r, cs ≠ '_' :: r) :
    digits? p (c :: cs) = some (((digits? p cs).map fun (ds, cs) => (c :: ds, cs)).getD ([c], cs)) := by
  rw [digits?, if_pos hc]
  exact hcs

theorem digits?_append (hds : Number.Digits ds) (h : Stop tail) :
    digits? Char.isDigit (ds ++ tail) = some (ds, tail) := by
  obtain ⟨hne, hds⟩ := hds
  induction ds with
  | nil => exact absurd rfl hne
  | cons c ds ih =>
    have hc := hds c List.mem_cons_self
    have hds : ∀ d ∈ ds, d.isDigit := fun d hd => hds d (List.mem_cons_of_mem c hd)
    cases ds with
    | nil =>
      have hnone : digits? Char.isDigit tail = none := by
        cases tail with
        | nil => rw [digits?]
        | cons x xs =>
          have hx : x.isDigit = false := by
            rcases h x rfl with rfl | rfl | rfl | rfl <;> rfl
          unfold digits?
          simp [hx]
      rw [List.singleton_append, digits?_cons hc fun r => h.ne_cons (by decide), hnone]
      rfl
    | cons d ds =>
      have hd : ∀ r, d :: ds ++ tail ≠ '_' :: r := by
        intro r hr
        have hd := hds d List.mem_cons_self
        rw [(List.cons.inj hr).1] at hd
        exact absurd hd (by decide)
      rw [List.cons_append, digits?_cons hc hd, ih (List.cons_ne_nil d ds) hds]
      rfl

theorem valueIn_ten (hds : ∀ d ∈ ds, d.isDigit) : valueIn 10 ds = decimalValue 0 ds := by
  have hall : hexDigits.all (fun c => (hexDigit? c).getD 0 == digitValue c) = true := by decide
  rw [decimalValue_eq_magnitude hds]
  exact foldl_digits 10 fun c hc => beq_iff_eq.1 (List.all_eq_true.1 hall c (mem_hexDigits_of_isDigit (hds c hc)))

/-- Only zero is written with a zero in front. -/
theorem toDigits_head (hn : 0 < n) : ∃ x xs, Nat.toDigits 10 n = x :: xs ∧ x ≠ '0' := by
  induction n using Nat.strongRecOn with
  | _ n ih =>
    by_cases hlt : n < 10
    · have hchar : ∀ d < 10, 0 < d → d.digitChar ≠ '0' := by decide
      exact ⟨n.digitChar, [], Nat.toDigits_of_lt_base hlt, hchar n hlt hn⟩
    · obtain ⟨x, xs, hd, hx⟩ := ih (n / 10) (by omega) (by omega)
      refine ⟨x, xs ++ [(n % 10).digitChar], ?_, hx⟩
      rw [Nat.toDigits_of_base_le (by decide) (by omega), hd, List.cons_append]

theorem eq_zero_of_toDigits (h : Nat.toDigits 10 n ++ tail = '0' :: cs) : n = 0 ∧ cs = tail := by
  rcases Nat.eq_zero_or_pos n with rfl | hn
  · simpa [eq_comm] using h
  · obtain ⟨x, xs, hd, hx⟩ := toDigits_head hn
    rw [hd] at h
    exact absurd (List.cons.inj h).1 hx

theorem unsigned?_toDigits (h : Stop tail) : unsigned? (Nat.toDigits 10 n ++ tail) = some (n, tail) := by
  have hdigits : ∀ d ∈ Nat.toDigits 10 n, d.isDigit := fun d => isDigit_of_mem_toDigits
  unfold unsigned?
  split
  · next cs hcs =>
    obtain ⟨rfl, rfl⟩ := eq_zero_of_toDigits hcs
    rfl
  · simp only [digits?_append ⟨Nat.toDigits_ne_nil, hdigits⟩ h, Option.map_some, valueIn_ten hdigits,
      decimalValue_toDigits]

theorem toDigits_append_ne {x : Char} (hx : x.isDigit = false) : Nat.toDigits 10 n ++ tail ≠ x :: cs := by
  intro hcs
  obtain ⟨y, ys, hd, hy, -⟩ := exists_toDigits n
  rw [hd] at hcs
  rw [(List.cons.inj hcs).1, hx] at hy
  cases hy

theorem number?_toDigits (h : Stop tail) : number? (Nat.toDigits 10 n ++ tail) = some (↑n, tail) := by
  have hzero : ∀ x cs, x ∉ [' ', '\t', '\r', '\n'] → Nat.toDigits 10 n ++ tail ≠ '0' :: x :: cs :=
    fun x cs hx hcs => h.ne_cons hx (eq_zero_of_toDigits hcs).2.symm
  unfold number?
  split
  · exact absurd ‹_› (hzero _ _ (by decide))
  · exact absurd ‹_› (hzero _ _ (by decide))
  · exact absurd ‹_› (hzero _ _ (by decide))
  · exact absurd ‹_› (toDigits_append_ne rfl)
  · exact absurd ‹_› (toDigits_append_ne rfl)
  · rw [unsigned?_toDigits h]
    rfl

theorem integer?_toDigits (hn : n < 2 ^ 63) (h : Stop tail) :
    integer? (Nat.toDigits 10 n ++ tail) = some (↑n, tail) := by
  have hfits : fitsInt64 n := Number.fitsInt64_iff.2 (by omega)
  simp [integer?, number?_toDigits h, hfits]

end

/-! ## Texts that are an integer and nothing else -/

section

variable {ds tail cs rest : List Char} {n k : Nat}

theorem past?_digits {x : Char} (hds : ∀ d ∈ ds, d.isDigit) (h : Stop tail) (hx : x.isDigit = false)
    (hstop : x ∉ [' ', '\t', '\r', '\n']) : past? x (ds ++ tail) = none := by
  have hhead : ∀ r, ds ++ tail ≠ x :: r := by
    intro r hr
    cases ds with
    | nil => exact h.ne_cons hstop hr
    | cons d ds =>
      have hd := hds d List.mem_cons_self
      rw [(List.cons.inj hr).1, hx] at hd
      cases hd
  unfold past?
  split
  · next c cs hcs => rw [if_neg fun hc => hhead cs (by rw [hcs, hc])]
  · rfl

/-- Some of the digits in front of an end are taken, never more. -/
theorem exists_of_fixed? (hds : ∀ d ∈ ds, d.isDigit) (h : Stop tail) (hread : fixed? k (ds ++ tail) = some (n, rest)) :
    ∃ ds', (∀ d ∈ ds', d.isDigit) ∧ rest = ds' ++ tail := by
  simp only [fixed?, Option.ite_none_right_eq_some, Bool.and_eq_true, decide_eq_true_eq, List.all_eq_true,
    Option.some.injEq, Prod.mk.injEq] at hread
  obtain ⟨⟨hlength, hall⟩, -, rfl⟩ := hread
  have hk : k ≤ ds.length := by
    by_contra hlt
    obtain ⟨j, hj⟩ : ∃ j, k - ds.length = j + 1 := Nat.exists_eq_add_one.2 (by omega)
    rw [List.take_append, hj] at hlength hall
    cases tail with
    | nil =>
      rw [List.take_nil, List.append_nil, List.length_take] at hlength
      omega
    | cons x xs =>
      have hx : x.isDigit := hall x (by simp)
      rcases h x rfl with rfl | rfl | rfl | rfl <;> cases hx
  exact ⟨ds.drop k, fun d hd => hds d (List.mem_of_mem_drop hd), List.drop_append_of_le_length hk⟩

theorem minute?_digits (hds : ∀ d ∈ ds, d.isDigit) (h : Stop tail) : minute? (ds ++ tail) = none := by
  unfold minute?
  cases hread : fixed? 2 (ds ++ tail) with
  | none => rfl
  | some p =>
    obtain ⟨ds', hds', hrest⟩ := exists_of_fixed? hds h hread
    simp [hrest, past?_digits hds' h (x := ':') rfl (by decide)]

theorem date?_digits (hds : ∀ d ∈ ds, d.isDigit) (h : Stop tail) : date? (ds ++ tail) = none := by
  unfold date?
  cases hread : fixed? 4 (ds ++ tail) with
  | none => rfl
  | some p =>
    obtain ⟨ds', hds', hrest⟩ := exists_of_fixed? hds h hread
    simp [hrest, past?_digits hds' h (x := '-') rfl (by decide)]

theorem moment?_digits (hds : ∀ d ∈ ds, d.isDigit) (h : Stop tail) : moment? (ds ++ tail) = none := by
  simp [moment?, date?_digits hds h, time?, minute?_digits hds h]

theorem exponent?_of_stop (h : Stop tail) : exponent? tail = none := by
  unfold exponent?
  split
  · exact absurd rfl (h.ne_cons (by decide))
  · exact absurd rfl (h.ne_cons (by decide))
  · rfl

theorem float?_toDigits (h : Stop tail) : float? (Nat.toDigits 10 n ++ tail) = none := by
  have hsign : skipSign (Nat.toDigits 10 n ++ tail) = Nat.toDigits 10 n ++ tail := by
    unfold skipSign
    split
    · exact absurd ‹_› (toDigits_append_ne rfl)
    · exact absurd ‹_› (toDigits_append_ne rfl)
    · rfl
  unfold float?
  rw [hsign]
  split
  · exact absurd ‹_› (toDigits_append_ne rfl)
  · exact absurd ‹_› (toDigits_append_ne rfl)
  · rw [unsigned?_toDigits h]
    simp only [Option.bind_eq_bind, Option.bind_some]
    split
    · exact absurd rfl (h.ne_cons (by decide))
    · exact exponent?_of_stop h

theorem scalar?_toDigits (hn : n < 2 ^ 63) (h : Stop tail) :
    scalar? (Nat.toDigits 10 n ++ tail) = some (.integer n, tail) := by
  unfold scalar?
  split
  · exact absurd ‹_› (toDigits_append_ne rfl)
  · exact absurd ‹_› (toDigits_append_ne rfl)
  · have hmoment := moment?_digits (fun d => isDigit_of_mem_toDigits (n := n)) h
    simp [spelled?, hmoment, float?_toDigits h, integer?_toDigits hn h]

end

/-! ## Strings -/

section

variable {s ds tail : List Char} {c : Char} {n : Nat}

theorem basicBody_plain (hs : ∀ x ∈ s, isPlain x ∧ x ≠ '"' ∧ x ≠ '\\') (hn : s.length < n) :
    basicBody n (s ++ '"' :: tail) = some (s, tail) := by
  induction s generalizing n with
  | nil =>
    obtain ⟨m, rfl⟩ := Nat.exists_eq_add_one.2 hn
    rfl
  | cons x s ih =>
    obtain ⟨m, rfl⟩ := Nat.exists_eq_add_one.2 (Nat.zero_lt_of_lt hn)
    obtain ⟨hplain, hquote, hback⟩ := hs x List.mem_cons_self
    have htail := ih (fun y hy => hs y (List.mem_cons_of_mem x hy)) (Nat.lt_of_succ_lt_succ hn)
    simp [basicBody, hplain, hquote, hback, htail]

theorem literalBody_plain (hs : ∀ x ∈ s, isPlain x ∧ x ≠ '\'') : literalBody (s ++ '\'' :: tail) = some (s, tail) := by
  induction s with
  | nil => rfl
  | cons x s ih =>
    obtain ⟨hplain, hquote⟩ := hs x List.mem_cons_self
    have htail := ih fun y hy => hs y (List.mem_cons_of_mem x hy)
    simp [literalBody, hplain, hquote, htail]

theorem charOfHex?_eq (hds : ∀ d ∈ ds, d ∈ hexDigits) (hc : magnitude 16 ds = c.toNat) : charOfHex? ds = some c := by
  have hhex : ∀ d ∈ ds, isHexDigit d := fun d hd => isHexDigit_iff.2 (hds d hd)
  have hvalid : (hexValue ds).isValidChar := by
    rw [hexValue_eq_magnitude hhex, hc]
    exact c.valid
  have hchar : Char.ofNatAux (hexValue ds) hvalid = c :=
    Char.toNat_inj.1 ((hexValue_eq_magnitude hhex).trans hc)
  rw [charOfHex?, if_pos (List.all_eq_true.2 hhex), dif_pos hvalid, hchar]

theorem escape?_code (hlength : ds.length = 8) (hds : ∀ d ∈ ds, d ∈ hexDigits) (hc : magnitude 16 ds = c.toNat) :
    escape? ('U' :: (ds ++ tail)) = some (c, tail) := by
  have htake : (ds ++ tail).take 8 = ds := List.take_left' hlength
  have hdrop : (ds ++ tail).drop 8 = tail := List.drop_left' hlength
  rw [escape?, if_neg (by simp [hlength]), htake, hdrop, charOfHex?_eq hds hc, Option.map_some]

end

/-! ## Values -/

/-- How a value may be written. -/
inductive Value.Spelled : Value → List Char → Prop
  | decimal (n : Nat) : Spelled (.integer n) (Nat.toDigits 10 n)
  | basic {s : List Char} : (∀ x ∈ s, isPlain x ∧ x ≠ '"' ∧ x ≠ '\\') →
      Spelled (.text (String.ofList s)) ('"' :: (s ++ ['"']))
  | literal {s : List Char} : (∀ x ∈ s, isPlain x ∧ x ≠ '\'') →
      Spelled (.text (String.ofList s)) ('\'' :: (s ++ ['\'']))
  | code {c : Char} {ds : List Char} : ds.length = 8 → (∀ d ∈ ds, d ∈ hexDigits) → magnitude 16 ds = c.toNat →
      Spelled (.text (String.ofList [c])) ('"' :: '\\' :: 'U' :: (ds ++ ['"']))

/-- An integer is below the bound of 64 bits. -/
def Value.Fits (v : Value) : Prop := ∀ n, v = .integer n → n < 2 ^ 63

section

variable {v : Value} {s w ds tail : List Char} {c : Char} {n : Nat}

/-- A quote that opens a short string and the one that closes it are not the start of a long string. -/
theorem quoted_ne {q : Char} {cs : List Char} (hq : q ∉ [' ', '\t', '\r', '\n']) (hs : ∀ x ∈ s, x ≠ q) (h : Stop tail) :
    s ++ q :: tail ≠ q :: q :: cs := by
  intro hcs
  cases s with
  | nil => exact h.ne_cons hq (List.cons.inj hcs).2
  | cons x s => exact hs x List.mem_cons_self (List.cons.inj hcs).1

theorem string?_basic (hs : ∀ x ∈ s, isPlain x ∧ x ≠ '"' ∧ x ≠ '\\') (h : Stop tail) :
    string? ('"' :: (s ++ '"' :: tail)) = some (String.ofList s, tail) := by
  rw [string?, basicBody_plain hs (by simp), Option.map_some]
  exact fun _ => quoted_ne (by decide) (fun x hx => (hs x hx).2.1) h

theorem string?_literal (hs : ∀ x ∈ s, isPlain x ∧ x ≠ '\'') (h : Stop tail) :
    string? ('\'' :: (s ++ '\'' :: tail)) = some (String.ofList s, tail) := by
  rw [string?, literalBody_plain hs, Option.map_some]
  exact fun _ => quoted_ne (by decide) (fun x hx => (hs x hx).2) h

theorem string?_code (hlength : ds.length = 8) (hds : ∀ d ∈ ds, d ∈ hexDigits) (hc : magnitude 16 ds = c.toNat) :
    string? ('"' :: '\\' :: 'U' :: (ds ++ '"' :: tail)) = some (String.ofList [c], tail) := by
  have hbody : basicBody ('\\' :: 'U' :: (ds ++ '"' :: tail)).length ('\\' :: 'U' :: (ds ++ '"' :: tail)) =
      some ([c], tail) := by
    simp [basicBody, escape?_code hlength hds hc]
  rw [string?, hbody, Option.map_some]
  simp

theorem string?_toDigits : string? (Nat.toDigits 10 n ++ tail) = none := by
  unfold string?
  split
  · exact absurd ‹_› (toDigits_append_ne rfl)
  · exact absurd ‹_› (toDigits_append_ne rfl)
  · exact absurd ‹_› (toDigits_append_ne rfl)
  · exact absurd ‹_› (toDigits_append_ne rfl)
  · rfl

theorem value?_of_string? {t : String} {cs : List Char} (h : string? cs = some (t, tail)) :
    value? (n + 1) cs = some (.text t, tail) := by
  rw [value?.eq_def]
  simp only [h]

theorem value?_of_spelled (hw : v.Spelled w) (hfits : v.Fits) (h : Stop tail) :
    value? (n + 1) (w ++ tail) = some (v, tail) := by
  cases hw with
  | decimal m =>
    have hm : m < 2 ^ 63 := by exact_mod_cast hfits m rfl
    rw [value?.eq_def]
    simp only [string?_toDigits]
    split
    · exact absurd ‹_› (toDigits_append_ne rfl)
    · exact absurd ‹_› (toDigits_append_ne rfl)
    · exact scalar?_toDigits hm h
  | basic hs => simpa using value?_of_string? (string?_basic hs h)
  | literal hs => simpa using value?_of_string? (string?_literal hs h)
  | code hlength hds hc => simpa using value?_of_string? (string?_code hlength hds hc)

theorem Value.Spelled.skipSpace_append (hw : v.Spelled w) : skipSpace (w ++ tail) = w ++ tail := by
  cases hw with
  | decimal m =>
    obtain ⟨x, xs, hd, hx, -⟩ := exists_toDigits m
    rw [hd]
    refine skipSpace_of_head ?_
    by_contra hspace
    simp only [isSpace, Bool.not_eq_false, Bool.or_eq_true, decide_eq_true_eq] at hspace
    rcases hspace with rfl | rfl <;> cases hx
  | basic => exact skipSpace_of_head rfl
  | literal => exact skipSpace_of_head rfl
  | code => exact skipSpace_of_head rfl

theorem Value.Spelled.ne_nil (hw : v.Spelled w) : w ≠ [] := by
  cases hw with
  | decimal m => exact Nat.toDigits_ne_nil
  | basic => simp
  | literal => simp
  | code => simp

end

end SymbolBridge.Toml
