import SymbolBridge.Proofs.Script.Token

/-!
# String literals

Between two quotes, a character may be written as itself or by an escape (`WrittenChar`), and a text by its characters one
after the other (`Written`). Every text goes on for some time in this way, until one of five things stops it (`Stop`,
`exists_written_append`): the quote that closes the literal, a backslash before a character that names no escape, a line
feed, the end of the source, or a backslash at the end of the source. The first makes a literal, the second a fault at the
character that names no escape, and the others a fault at the opening quote (`Parser.string_of_written`).
-/

namespace SymbolBridge.Script

open Text (byteLength)

/-- The letters of the escapes, with what they stand for. -/
def escapes : List (Char × Char) :=
  [('n', '\n'), ('t', '\t'), ('r', '\r'), ('0', '\x00'), ('\\', '\\'), ('"', '"'), ('\'', '\'')]

theorem escape?_eq_some_iff {e x : Char} : escape? e = some x ↔ (e, x) ∈ escapes := by
  unfold escape?
  split <;> simp_all [escapes, eq_comm]

theorem escape?_eq_none_iff {e : Char} : escape? e = none ↔ ∀ x, (e, x) ∉ escapes := by
  simp only [Option.eq_none_iff_forall_ne_some, ne_eq, escape?_eq_some_iff]

/-- A way to write a character between quotes. -/
inductive WrittenChar (quote : Char) : Char → List Char → Prop
  | plain {c : Char} : c ≠ quote → c ≠ '\\' → c ≠ '\n' → WrittenChar quote c [c]
  | escape {e x : Char} : (e, x) ∈ escapes → WrittenChar quote x ['\\', e]

/-- A way to write a text between quotes, without the quotes. -/
inductive Written (quote : Char) : List Char → List Char → Prop
  | nil : Written quote [] []
  | cons {c : Char} {w s l : List Char} : WrittenChar quote c w → Written quote s l → Written quote (c :: s) (w ++ l)

/-- What writing ends at. -/
inductive Stop (quote : Char) : List Char → Prop
  | close (cs : List Char) : Stop quote (quote :: cs)
  | invalidEscape {e : Char} (cs : List Char) : (∀ x, (e, x) ∉ escapes) → Stop quote ('\\' :: e :: cs)
  | lineFeed (cs : List Char) : Stop quote ('\n' :: cs)
  | finish : Stop quote []
  | backslash : Stop quote ['\\']

section

variable {quote : Char} {s l : List Char}

theorem ne_of_isQuote (h : isQuote quote) : quote ≠ '\\' ∧ quote ≠ '\n' := by
  simp only [isQuote, Bool.or_eq_true, decide_eq_true_eq] at h
  rcases h with rfl | rfl
  · decide
  · decide

/-- What is written may close with the quote. -/
theorem Written.quoted (hq : isQuote quote) (h : Written quote s l) : Quoted quote (l ++ [quote]) s := by
  induction h with
  | nil => exact .close
  | cons hw _ ih =>
    cases hw with
    | plain hc hb hn => exact .char hc hb hn ih
    | escape hx => exact .escape (ne_of_isQuote hq).1.symm (escape?_eq_some_iff.2 hx) ih

/-- A character that is written is read. -/
theorem WrittenChar.stringBody_append (hq : isQuote quote) {c : Char} {w : List Char} (h : WrittenChar quote c w)
    (cs : List Char) (o : Nat) :
    stringBody quote (w ++ cs) o = (stringBody quote cs (o + byteLength w)).map fun (s, d) => (c :: s, d) := by
  cases h with
  | plain hc hb hn =>
    rw [List.singleton_append, stringBody.eq_def]
    simp only [if_neg hc, if_neg hb, if_neg hn, Text.byteLength_cons, Text.byteLength_nil, Nat.add_zero]
  | escape hx =>
    have hread := escape?_eq_some_iff.2 hx
    rw [List.cons_append, List.singleton_append, stringBody.eq_def]
    simp only [if_neg (ne_of_isQuote hq).1.symm, if_true, hread, Text.byteLength_cons, Text.byteLength_nil, Nat.add_zero,
      Nat.add_assoc]

/-- After a text that is written, reading goes on with what is left. -/
theorem Written.stringBody_append (hq : isQuote quote) (h : Written quote s l) (cs : List Char) : ∀ o : Nat,
    stringBody quote (l ++ cs) o = (stringBody quote cs (o + byteLength l)).map fun (s', d) => (s ++ s', d) := by
  induction h with
  | nil =>
    intro o
    show stringBody quote cs o = (stringBody quote cs o).map id
    cases stringBody quote cs o <;> rfl
  | @cons c w s l hw _ ih =>
    intro o
    rw [List.append_assoc, hw.stringBody_append hq, ih, Text.byteLength_append, Nat.add_assoc]
    cases stringBody quote cs (o + (byteLength w + byteLength l)) <;> rfl

/-- Every text begins with a text that is written and ends at something that stops it. -/
theorem exists_written_append (quote : Char) (cs : List Char) :
    ∃ s l stop, Written quote s l ∧ Stop quote stop ∧ cs = l ++ stop := by
  -- The offset does not matter here, but the function's own induction changes it.
  suffices h : ∀ o, ∃ s l stop, Written quote s l ∧ Stop quote stop ∧ cs = l ++ stop from h 0
  intro o
  fun_induction stringBody quote cs o with
  | case1 => exact ⟨[], [], [], .nil, .finish, rfl⟩
  | case2 cs => exact ⟨[], [], quote :: cs, .nil, .close cs, rfl⟩
  | case3 => exact ⟨[], [], ['\\'], .nil, .backslash, rfl⟩
  | case4 _ e cs hx => exact ⟨[], [], '\\' :: e :: cs, .nil, .invalidEscape cs (escape?_eq_none_iff.1 hx), rfl⟩
  | case5 _ e cs x hx _ ih =>
    obtain ⟨s, l, stop, hl, hstop, rfl⟩ := ih
    exact ⟨x :: s, ['\\', e] ++ l, stop, .cons (.escape (escape?_eq_some_iff.1 hx)) hl, hstop, rfl⟩
  | case6 cs => exact ⟨[], [], '\n' :: cs, .nil, .lineFeed cs, rfl⟩
  | case7 c cs _ hc hb hn ih =>
    obtain ⟨s, l, stop, hl, hstop, rfl⟩ := ih
    exact ⟨c :: s, [c] ++ l, stop, .cons (.plain hc hb hn) hl, hstop, rfl⟩

/-! ## What a literal is read as -/

/-- A quote ends what is written, and the literal. -/
theorem Parser.string_of_close {s : String} (hq : isQuote quote) (h : Written quote s.toList l) (r : List Char) (o : Nat) :
    Parser.string ⟨quote :: (l ++ quote :: r), o⟩ = .ok (s, ⟨r, o + byteLength (quote :: l ++ [quote])⟩) :=
  (string_eq_ok_iff rfl hq).2 ⟨quote, l ++ [quote], hq, h.quoted hq, by simp, rfl⟩

/-- A backslash ends what is written if the next character names no escape. -/
theorem Parser.string_of_invalidEscape {e : Char} (hq : isQuote quote) (h : Written quote s l)
    (he : ∀ x, (e, x) ∉ escapes) (r : List Char) (o : Nat) :
    Parser.string ⟨quote :: (l ++ '\\' :: e :: r), o⟩ =
      .error ⟨.invalidEscape e, ⟨e :: r, o + byteLength (quote :: l ++ ['\\'])⟩⟩ := by
  have hstop : ∀ o', stringBody quote ('\\' :: e :: r) o' =
      .error (.invalidEscape e ⟨e :: r, o' + '\\'.utf8Size⟩) := by
    intro o'
    rw [stringBody.eq_def]
    simp only [if_neg (ne_of_isQuote hq).1.symm, if_true, escape?_eq_none_iff.2 he]
  simp [Parser.string, h.stringBody_append hq, hstop, Except.map, Nat.add_assoc]

/-- The end of the source, also after a backslash, and a line feed end what is written, but not the literal. -/
theorem Parser.string_of_unterminated {stop : List Char} (hq : isQuote quote) (h : Written quote s l)
    (hstop : stop = [] ∨ stop = ['\\'] ∨ ∃ r, stop = '\n' :: r) (o : Nat) :
    Parser.string ⟨quote :: (l ++ stop), o⟩ = .error ⟨.unterminatedString, ⟨quote :: (l ++ stop), o⟩⟩ := by
  obtain ⟨hb, hn⟩ := ne_of_isQuote hq
  have hread : ∀ o', stringBody quote stop o' = .error .unterminated := by
    intro o'
    rw [stringBody.eq_def]
    rcases hstop with rfl | rfl | ⟨r, rfl⟩
    · rfl
    · simp only [if_neg hb.symm, if_true]
    · simp only [if_neg hn.symm, if_neg (show '\n' ≠ '\\' by decide), if_true]
  simp [Parser.string, h.stringBody_append hq, hread, Except.map]

end

/-- **String literals.** A text that is written between two quotes is read, and what follows the second quote is left over.
Where no text is written up to a second quote, there is a fault: at the character after a backslash if that character names
no escape and a text is written up to the backslash, and at the first quote if there is no such backslash. -/
theorem Parser.string_of_written :
    (∀ (quote : Char) (s : String) (l r : List Char) (o : Nat), isQuote quote → Written quote s.toList l →
      Parser.string ⟨quote :: (l ++ quote :: r), o⟩ = .ok (s, ⟨r, o + byteLength (quote :: l ++ [quote])⟩)) ∧
    ∀ (quote : Char) (cs : List Char) (o : Nat), isQuote quote →
      (∀ s l r, Written quote s l → cs ≠ l ++ quote :: r) →
      (∀ s l e r, Written quote s l → cs = l ++ '\\' :: e :: r → (∀ x, (e, x) ∉ escapes) →
        Parser.string ⟨quote :: cs, o⟩ =
          .error ⟨.invalidEscape e, ⟨e :: r, o + byteLength (quote :: l ++ ['\\'])⟩⟩) ∧
      ((∀ s l e r, Written quote s l → cs = l ++ '\\' :: e :: r → ∃ x, (e, x) ∈ escapes) →
        Parser.string ⟨quote :: cs, o⟩ = .error ⟨.unterminatedString, ⟨quote :: cs, o⟩⟩) := by
  refine ⟨fun quote s l r o hq h => Parser.string_of_close hq h r o, fun quote cs o hq hopen => ⟨?_, ?_⟩⟩
  · rintro s l e r h rfl he
    exact Parser.string_of_invalidEscape hq h he r o
  · intro hvalid
    obtain ⟨s, l, stop, h, hstop, rfl⟩ := exists_written_append quote cs
    apply Parser.string_of_unterminated hq h
    cases hstop with
    | close r => exact absurd rfl (hopen s l r h)
    | invalidEscape r he =>
      obtain ⟨x, hx⟩ := hvalid s l _ r h rfl
      exact absurd hx (he x)
    | lineFeed r => exact .inr (.inr ⟨r, rfl⟩)
    | finish => exact .inl rfl
    | backslash => exact .inr (.inl rfl)

example : Parser.string ⟨['"', 'i', 't', '\'', 's', '\\', '"', '"', ';'], 0⟩ =
    .ok ("it's\"", ⟨[';'], 8⟩) := rfl

end SymbolBridge.Script
