import Mathlib.Data.List.TakeWhile
import SymbolBridge.Proofs.Script.Spans

/-!
# What a place in a source is inside of

Read from left to right, a source is in a zone at every place: in code, in a comment or in a string literal. `Zone.next`
goes by single characters and knows nothing of the grammar. Whole blanks, string literals, numerals and names lead from
code to code (`Zone.after_blanks`, `Zone.after_quoted`, `after_numeralPrefix`, `inert_of_identifierPrefix`).
-/

namespace SymbolBridge.Script

/-- What a place in a source is inside of. -/
inductive Zone where
  | code
  /-- Code, right after a hyphen. -/
  | hyphen
  /-- A comment, up to the end of its line. -/
  | comment
  | string (quote : Char)
  /-- A string literal, right after a backslash. -/
  | escape (quote : Char)
  deriving DecidableEq, Repr

namespace Zone

/-- The zone after one more character. -/
def next : Zone → Char → Zone
  | .code, c => if c = '-' then .hyphen else if isQuote c then .string c else .code
  | .hyphen, c => if c = '-' then .comment else if isQuote c then .string c else .code
  | .comment, c => if isLineEnd c then .code else .comment
  | .string quote, c => if c = quote then .code else if c = '\\' then .escape quote else .string quote
  | .escape quote, _ => .string quote

/-- The zone that a text leads to. -/
def after (z : Zone) (l : List Char) : Zone := l.foldl next z

/-- Outside string literals and comments. -/
def isOutside : Zone → Bool
  | .code | .hyphen => true
  | _ => false

variable {z : Zone} {l m : List Char} {x : Char}

@[simp] theorem after_nil (z : Zone) : z.after [] = z := rfl

@[simp] theorem after_cons (z : Zone) (x : Char) (l : List Char) : z.after (x :: l) = (z.next x).after l := rfl

@[simp] theorem after_append (z : Zone) (l m : List Char) : z.after (l ++ m) = (z.after l).after m := by
  rw [after, List.foldl_append]
  rfl

theorem next_of_ne (hz : z = .code ∨ z = .hyphen) (hx : x ≠ '-') (hq : isQuote x = false) : z.next x = .code := by
  rcases hz with rfl | rfl
  · rw [next, if_neg hx, hq]
    rfl
  · rw [next, if_neg hx, hq]
    rfl

/-- A comment goes on to the end of its line. -/
theorem after_comment : ∀ {l : List Char}, (∀ x ∈ l, isLineEnd x = false) → Zone.comment.after l = .comment
  | [], _ => rfl
  | x :: l, h => by
    rw [after_cons, next, h x List.mem_cons_self]
    exact after_comment fun y hy => h y (List.mem_cons_of_mem x hy)

/-- Two hyphens open a comment. -/
theorem after_open (h : ∀ x ∈ l, isLineEnd x = false) : Zone.code.after ('-' :: '-' :: l) = .comment := after_comment h

/-- A comment leads to code at the end of its line. -/
theorem after_line (hx : isLineEnd x) (h : ∀ y ∈ l, isLineEnd y = false) :
    Zone.code.after ('-' :: '-' :: (l ++ x :: m)) = Zone.code.after m := by
  rw [← List.cons_append, ← List.cons_append, after_append, after_open h, after_cons, next, if_pos hx]

theorem after_quoted {quote : Char} {body : List Char} (h : Quoted quote l body) :
    (Zone.string quote).after l = .code := by
  induction h with
  | close => rw [after_cons, next, if_pos rfl, after_nil]
  | escape hq _ _ ih => rw [after_cons, next, if_neg hq, if_pos rfl, after_cons, next, ih]
  | char hc hb _ _ ih => rw [after_cons, next, if_neg hc, if_neg hb, ih]

theorem next_of_isSeparator (h : isSeparator x) : Zone.code.next x = .code := by
  simp only [isSeparator, Bool.or_eq_true, decide_eq_true_eq] at h
  rcases h with (((rfl | rfl) | rfl) | rfl) | rfl <;> rfl

/-- Blanks that end lead from code to code. -/
theorem after_blanks {b : List Char} (h : Blanks b) : Zone.code.after b = .code := by
  induction h with
  | nil => rfl
  | separator hs _ ih => rw [after_cons, next_of_isSeparator hs, ih]
  | comment he hline _ _ ih => rw [after_line he hline, ih]

end Zone

/-! ## Tokens of code -/

/-- A character of a name or a numeral other than a sign. -/
structure Inert (x : Char) : Prop where
  ne_hyphen : x ≠ '-'
  isQuote : isQuote x = false
  isSeparator : isSeparator x = false

/-- The characters that are not inert, and so all that a character class has to leave out. -/
def separating : List Char := ['-', '"', '\'', ' ', '\t', '\r', '\n', ';']

theorem inert_of_notMem {x : Char} (h : x ∉ separating) : Inert x := by
  simp only [separating, List.mem_cons, List.not_mem_nil, or_false, not_or] at h
  obtain ⟨hhyphen, hdouble, hsingle, hspace, htab, hcr, hlf, hsemicolon⟩ := h
  exact ⟨hhyphen, by simp [isQuote, hdouble, hsingle], by simp [isSeparator, hspace, htab, hcr, hlf, hsemicolon]⟩

theorem inert_of_class {p : Char → Bool} (hp : separating.any p = false) {x : Char} (h : p x) : Inert x :=
  inert_of_notMem fun hx => List.any_eq_false.1 hp x hx h

theorem inert_of_isNameChar {x : Char} (h : isNameChar x) : Inert x := inert_of_class rfl h

theorem inert_of_isHexDigit {x : Char} (h : isHexDigit x) : Inert x := inert_of_class rfl h

theorem Zone.after_inert : ∀ {l : List Char}, (∀ x ∈ l, Inert x) → Zone.code.after l = .code
  | [], _ => rfl
  | x :: l, h => by
    have hx := h x List.mem_cons_self
    rw [after_cons, next_of_ne (.inl rfl) hx.ne_hyphen hx.isQuote]
    exact after_inert fun y hy => h y (List.mem_cons_of_mem x hy)

/-- A prefix without separators that leads from code to code, right after a hyphen too unless it is empty. -/
structure Coded (f : List Char → List Char) : Prop where
  isSeparator : ∀ cs, ∀ x ∈ f cs, isSeparator x = false
  code : ∀ cs, Zone.code.after (f cs) = .code
  hyphen : ∀ cs, f cs ≠ [] → Zone.hyphen.after (f cs) = .code

namespace Coded

variable {f g : List Char → List Char} {p : Char → Bool}

theorem takeWhile (hp : ∀ x, p x → Inert x) : Coded (List.takeWhile p) where
  isSeparator _ x hx := (hp x (List.mem_takeWhile_imp hx)).isSeparator
  code _ := Zone.after_inert fun x hx => hp x (List.mem_takeWhile_imp hx)
  hyphen
    | [], h => absurd rfl h
    | c :: cs, h => by
      cases hc : p c with
      | false => exact absurd (by rw [List.takeWhile_cons, hc]; rfl) h
      | true =>
        have hi := hp c hc
        rw [List.takeWhile_cons, if_pos hc, Zone.after_cons, Zone.next_of_ne (.inr rfl) hi.ne_hyphen hi.isQuote]
        exact Zone.after_inert fun x hx => hp x (List.mem_takeWhile_imp hx)

theorem append (hf : Coded f) (hg : Coded g) : Coded fun cs => f cs ++ g (cs.drop (f cs).length) where
  isSeparator cs := List.forall_mem_append.2 ⟨hf.isSeparator cs, hg.isSeparator _⟩
  code cs := by rw [Zone.after_append, hf.code, hg.code]
  hyphen cs h := by
    by_cases hn : f cs = []
    · rw [hn, List.nil_append] at h ⊢
      exact hg.hyphen _ h
    · rw [Zone.after_append, hf.hyphen cs hn, hg.code]

theorem ite (hf : Coded f) (hg : Coded g) (q : List Char → Prop) [DecidablePred q] :
    Coded fun cs => if q cs then f cs else g cs where
  isSeparator cs := by
    split
    · exact hf.isSeparator cs
    · exact hg.isSeparator cs
  code cs := by
    split
    · exact hf.code cs
    · exact hg.code cs
  hyphen cs h := by
    by_cases hq : q cs
    · rw [if_pos hq] at h ⊢
      exact hf.hyphen cs h
    · rw [if_neg hq] at h ⊢
      exact hg.hyphen cs h

theorem nil : Coded fun _ => [] := ⟨fun _ => List.forall_mem_nil _, fun _ => rfl, fun _ h => absurd rfl h⟩

end Coded

theorem leadBy_cases (p : Char → Bool) (f : List Char → List Char) (cs : List Char) :
    leadBy p f cs = [] ∨ ∃ c cs', p c ∧ f cs' ≠ [] ∧ leadBy p f cs = c :: f cs' := by
  cases cs with
  | nil => exact .inl rfl
  | cons c cs =>
    rw [leadBy]
    split
    · rename_i h
      exact .inr ⟨c, cs, h.1, h.2, rfl⟩
    · exact .inl rfl

/-- What needs no more of its prefix than the way from code to code. -/
theorem coded_leadBy {f : List Char → List Char} {p : Char → Bool} (hs : ∀ cs, ∀ x ∈ f cs, isSeparator x = false)
    (hf : ∀ cs, Zone.code.after (f cs) = .code) (hp : ∀ x, p x → Inert x) : Coded (leadBy p f) where
  isSeparator cs := by
    obtain h | ⟨c, cs', hc, -, h⟩ := leadBy_cases p f cs
    · rw [h]
      exact List.forall_mem_nil _
    · rw [h]
      exact List.forall_mem_cons.2 ⟨(hp c hc).isSeparator, hs cs'⟩
  code cs := by
    obtain h | ⟨c, cs', hc, -, h⟩ := leadBy_cases p f cs
    · rw [h, Zone.after_nil]
    · rw [h, Zone.after_cons, Zone.next_of_ne (.inl rfl) (hp c hc).ne_hyphen (hp c hc).isQuote, hf]
  hyphen cs hne := by
    obtain h | ⟨c, cs', hc, -, h⟩ := leadBy_cases p f cs
    · exact absurd h hne
    · rw [h, Zone.after_cons, Zone.next_of_ne (.inr rfl) (hp c hc).ne_hyphen (hp c hc).isQuote, hf]

/-- A sign may be a hyphen: what comes after it is not empty, and does not start with another one. -/
theorem Coded.sign {f : List Char → List Char} {p : Char → Bool} (hf : Coded f) (hp : ∀ x, p x → x = '+' ∨ x = '-')
    (cs : List Char) :
    (∀ x ∈ leadBy p f cs, Script.isSeparator x = false) ∧ Zone.code.after (leadBy p f cs) = .code := by
  obtain h | ⟨c, cs', hc, hne, h⟩ := leadBy_cases p f cs
  · rw [h]
    exact ⟨List.forall_mem_nil _, rfl⟩
  · rw [h]
    rcases hp c hc with rfl | rfl
    · exact ⟨List.forall_mem_cons.2 ⟨by decide, hf.isSeparator cs'⟩, hf.code cs'⟩
    · exact ⟨List.forall_mem_cons.2 ⟨by decide, hf.isSeparator cs'⟩, hf.hyphen cs' hne⟩

theorem coded_digits : Coded (List.takeWhile Char.isDigit) :=
  .takeWhile fun _ h => inert_of_isNameChar (isNameChar_of_isDigit h)

theorem coded_magnitudePrefix : Coded magnitudePrefix := by
  have one : ∀ {a b : Char}, Inert a → Inert b → ∀ x, (x = a || x = b) → Inert x := by
    intro a b ha hb x hx
    simp only [Bool.or_eq_true, decide_eq_true_eq] at hx
    rcases hx with rfl | rfl
    · exact ha
    · exact hb
  have hplaces : Coded placesPrefix := by
    rw [placesPrefix_eq]
    refine coded_leadBy coded_digits.isSeparator coded_digits.code fun x hx => ?_
    rw [of_decide_eq_true hx]
    exact ⟨by decide, by decide, by decide⟩
  have hsigned : ∀ cs, (∀ x ∈ signedDigits cs, isSeparator x = false) ∧ Zone.code.after (signedDigits cs) = .code := by
    intro cs
    rw [signedDigits]
    split
    · exact ⟨coded_digits.isSeparator cs, coded_digits.code cs⟩
    · exact coded_digits.sign (fun x hx => by simpa using hx) cs
  have hexponent : Coded exponentPrefix := by
    rw [exponentPrefix_eq]
    exact coded_leadBy (fun cs => (hsigned cs).1) (fun cs => (hsigned cs).2)
      (one (inert_of_isNameChar (by decide)) (inert_of_isNameChar (by decide)))
  have hhex : Coded hexPrefix := by
    have hdigits : Coded (List.takeWhile isHexDigit) := .takeWhile fun _ => inert_of_isHexDigit
    have hx := coded_leadBy hdigits.isSeparator hdigits.code
      (one (inert_of_isNameChar (show isNameChar 'x' by decide)) (inert_of_isNameChar (show isNameChar 'X' by decide)))
    rw [hexPrefix_eq]
    refine coded_leadBy hx.isSeparator hx.code fun x hx => ?_
    rw [of_decide_eq_true hx]
    exact inert_of_isNameChar (by decide)
  have hdecimal : Coded decimalPrefix := by
    rw [decimalPrefix_eq]
    exact Coded.nil.ite (coded_digits.append (hplaces.append hexponent)) _
  rw [magnitudePrefix_eq]
  exact hdecimal.ite hhex _

/-- A numeral leads from code to code, since a hyphen in it has a digit after it. -/
theorem after_numeralPrefix (cs : List Char) :
    (∀ x ∈ numeralPrefix cs, isSeparator x = false) ∧ Zone.code.after (numeralPrefix cs) = .code := by
  have hm := coded_magnitudePrefix
  rw [numeralPrefix_eq]
  dsimp only
  split
  · exact ⟨hm.isSeparator cs, hm.code cs⟩
  · exact hm.sign (fun x hx => .inr (of_decide_eq_true hx)) cs

theorem inert_of_identifierPrefix {cs : List Char} : ∀ x ∈ identifierPrefix cs, Inert x := by
  cases cs with
  | nil => exact List.forall_mem_nil _
  | cons c cs =>
    rw [identifierPrefix]
    split
    · rename_i hc
      have hname : isNameChar c := by
        rw [isNameStart, Bool.or_eq_true] at hc
        rw [isNameChar, Char.isAlphanum, Bool.or_eq_true, Bool.or_eq_true]
        exact hc.imp .inl id
      refine List.forall_mem_cons.2 ⟨inert_of_isNameChar hname, fun x hx => ?_⟩
      exact inert_of_isNameChar (List.mem_takeWhile_imp hx)
    · exact List.forall_mem_nil _

end SymbolBridge.Script
