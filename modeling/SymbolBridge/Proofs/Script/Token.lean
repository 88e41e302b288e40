import SymbolBridge.Proofs.Script.Blank
import SymbolBridge.Proofs.Script.Lexeme
import SymbolBridge.Script.Parser

/-!
# What tokens move over

`c.Spells l d` says that `l` is the text from the cursor `c` to the cursor `d`, and `c.Reaches d` that there is such a
text. Every token moves a cursor over the text it reads (`spells_skip`, `past?_eq_some_iff`, `identifier?_eq_some_iff`,
`number?_eq_some_iff`, `string_eq_ok_iff`), so cursors only move forward, and a place in a source is found again from
the text before it.
-/

namespace SymbolBridge.Script

open Text (byteLength)

theorem map_eq_ok_iff {ε α β : Type} {f : α → β} {r : Except ε α} {b : β} :
    r.map f = .ok b ↔ ∃ a, r = .ok a ∧ f a = b := by
  cases r <;> simp [Except.map]

theorem bind_eq_ok_iff {ε α β : Type} {f : α → Except ε β} {r : Except ε α} {b : β} :
    r >>= f = .ok b ↔ ∃ a, r = .ok a ∧ f a = .ok b := by
  cases r <;> simp [bind, Except.bind]

namespace Cursor

/-- The text between two cursors. -/
structure Spells (c : Cursor) (l : List Char) (d : Cursor) : Prop where
  rest : c.rest = l ++ d.rest
  offset : d.offset = c.offset + byteLength l

/-- The second cursor lies at the first or after it. -/
def Reaches (c d : Cursor) : Prop := ∃ l, c.Spells l d

section

variable {c d e : Cursor} {l m : List Char}

theorem spells_nil (c : Cursor) : c.Spells [] c := ⟨rfl, rfl⟩

theorem Spells.trans (h : c.Spells l d) (h' : d.Spells m e) : c.Spells (l ++ m) e :=
  ⟨by rw [h.rest, h'.rest, List.append_assoc], by rw [h'.offset, h.offset, Text.byteLength_append, Nat.add_assoc]⟩

theorem spells_advance (h : l <+: c.rest) : c.Spells l (c.advance l) := by
  obtain ⟨t, ht⟩ := h
  exact ⟨by rw [rest_advance, ← ht, List.drop_left], rfl⟩

theorem Spells.eq_advance (h : c.Spells l d) : d = c.advance l := by
  obtain ⟨rest, offset⟩ := d
  rw [advance, h.rest, List.drop_left, ← h.offset]

theorem Spells.isPrefix (h : c.Spells l d) : l <+: c.rest := ⟨d.rest, h.rest.symm⟩

theorem Spells.length (h : c.Spells l d) : c.rest.length = l.length + d.rest.length := by
  rw [h.rest, List.length_append]

theorem Spells.reaches (h : c.Spells l d) : c.Reaches d := ⟨l, h⟩

theorem Reaches.refl (c : Cursor) : c.Reaches c := ⟨[], spells_nil c⟩

theorem Reaches.trans (h : c.Reaches d) (h' : d.Reaches e) : c.Reaches e := by
  obtain ⟨l, hl⟩ := h
  obtain ⟨m, hm⟩ := h'
  exact ⟨l ++ m, hl.trans hm⟩

theorem Reaches.length_le (h : c.Reaches d) : d.rest.length ≤ c.rest.length := by
  obtain ⟨l, hl⟩ := h
  rw [hl.length]
  exact Nat.le_add_left _ _

theorem Reaches.offset_le (h : c.Reaches d) : c.offset ≤ d.offset := by
  obtain ⟨l, hl⟩ := h
  rw [hl.offset]
  exact Nat.le_add_right _ _

/-- What is left at a later cursor is the end of what is left at an earlier one. -/
theorem Reaches.isSuffix (h : c.Reaches d) : d.rest <:+ c.rest := by
  obtain ⟨l, hl⟩ := h
  exact ⟨l, hl.rest.symm⟩

end

end Cursor

/-! ## Blanks -/

namespace Cursor

variable {c d : Cursor}

theorem spells_skip (c : Cursor) : c.Spells (blankPrefix c.rest) c.skip := spells_advance (blankPrefix_isPrefix c.rest)

theorem reaches_skip (c : Cursor) : c.Reaches c.skip := (spells_skip c).reaches

theorem skip_of_blankPrefix (h : blankPrefix c.rest = []) : c.skip = c := by
  rw [skip, h]
  rfl

@[simp] theorem skip_skip (c : Cursor) : c.skip.skip = c.skip :=
  skip_of_blankPrefix (blankPrefix_drop false c.rest)

/-- Blanks with something after them end. -/
theorem blanks_of_skip (h : c.skip.rest ≠ []) : Blanks (blankPrefix c.rest) := by
  obtain ⟨x, l, hr⟩ := List.exists_cons_of_ne_nil h
  exact blanks_of_append (c.spells_skip.rest.trans (by rw [hr]))

theorem blankPrefix_of_skip (h : c.skip.rest = []) : blankPrefix c.rest = c.rest := by
  have hs := c.spells_skip.rest
  rw [h, List.append_nil] at hs
  exact hs.symm

/-! ## Fixed tokens and identifiers -/

theorem past?_eq_some_iff {token : List Char} : c.past? token = some d ↔ c.Spells token d := by
  constructor
  · intro h
    have hr := rest_past? h
    unfold past? at h
    split at h
    · cases h
      exact ⟨hr, rfl⟩
    · cases h
  · intro h
    rw [past?, if_pos (List.isPrefixOf_iff_prefix.2 h.isPrefix), h.eq_advance]

/-- A token is not there if its first character is not. -/
theorem past?_eq_none {x : Char} {token : List Char} (h : ∀ y ∈ c.rest.head?, y ≠ x) : c.past? (x :: token) = none := by
  refine Option.eq_none_iff_forall_ne_some.2 fun d hd => ?_
  have hr := (past?_eq_some_iff.1 hd).rest
  exact h x (by rw [hr]; rfl) rfl

theorem reaches_of_past? {token : List Char} (h : c.skip.past? token = some d) : c.Reaches d :=
  c.reaches_skip.trans (past?_eq_some_iff.1 h).reaches

theorem identifier?_eq_some_iff {name : String} :
    c.identifier? = some (name, d) ↔
      name.toList ≠ [] ∧ identifierPrefix c.rest = name.toList ∧ c.Spells name.toList d := by
  unfold identifier?
  constructor
  · intro h
    split at h
    · cases h
    · rename_i hn
      cases h
      rw [String.toList_ofList]
      exact ⟨hn, rfl, spells_advance (greedy_identifierPrefix.isPrefix _)⟩
  · rintro ⟨hn, hp, hs⟩
    split
    · rename_i he
      exact absurd (hp.symm.trans he) hn
    · rw [hp, String.ofList_toList, ← hs.eq_advance]

theorem reaches_of_identifier? {name : String} (h : c.skip.identifier? = some (name, d)) : c.Reaches d :=
  c.reaches_skip.trans (identifier?_eq_some_iff.1 h).2.2.reaches

theorem exists_of_identifier? {name : String} (h : c.identifier? = some (name, d)) :
    ∃ x cs, c.rest = x :: cs ∧ isNameStart x := by
  obtain ⟨hn, hp, -⟩ := identifier?_eq_some_iff.1 h
  cases hr : c.rest with
  | nil =>
    rw [hr] at hp
    exact absurd hp.symm hn
  | cons x cs =>
    rw [hr] at hp
    exact ⟨x, cs, rfl, isNameStart_of_identifierPrefix (by rw [hp]; exact hn)⟩

/-- An identifier takes at least one character. -/
theorem length_lt_of_identifier? {name : String} (h : c.identifier? = some (name, d)) :
    d.rest.length < c.rest.length := by
  obtain ⟨hn, -, hs⟩ := identifier?_eq_some_iff.1 h
  have := List.length_pos_iff.2 hn
  rw [hs.length]
  omega

/-! ## Numbers and strings -/

theorem number?_eq_some_iff {x : Number} :
    c.number? = some (x, d) ↔
      numeralPrefix c.rest ≠ [] ∧ Number.read? (numeralPrefix c.rest) = some x ∧ c.Spells (numeralPrefix c.rest) d := by
  have hs := spells_advance (greedy_numeralPrefix.isPrefix c.rest)
  unfold number?
  split
  · rename_i hn
    simp [hn]
  · rename_i hn
    simp only [Option.map_eq_some_iff, Prod.mk.injEq]
    constructor
    · rintro ⟨y, hy, rfl, rfl⟩
      exact ⟨hn, hy, hs⟩
    · rintro ⟨-, hy, hd⟩
      exact ⟨x, hy, rfl, hd.eq_advance.symm⟩

/-- No number starts with a character that is neither a digit nor a hyphen. -/
theorem number?_eq_none {x : Char} {cs : List Char} (h : c.rest = x :: cs) (hd : x.isDigit = false) (hx : x ≠ '-') :
    c.number? = none := by
  have hn : numeralPrefix (x :: cs) = [] := (numeralPrefix_of_ne hx).trans (magnitudePrefix_eq_nil hd)
  rw [number?, h, hn]

end Cursor

/-- The source of a text up to the quote that closes it. -/
inductive Quoted (quote : Char) : List Char → List Char → Prop where
  | close : Quoted quote [quote] []
  | escape {e x : Char} {l body : List Char} : '\\' ≠ quote → escape? e = some x → Quoted quote l body →
      Quoted quote ('\\' :: e :: l) (x :: body)
  | char {c : Char} {l body : List Char} : c ≠ quote → c ≠ '\\' → c ≠ '\n' → Quoted quote l body →
      Quoted quote (c :: l) (c :: body)

section

variable {quote : Char} {cs body l : List Char} {o : Nat} {d : Cursor}

theorem quoted_of_stringBody (h : stringBody quote cs o = .ok (body, d)) :
    ∃ l, Quoted quote l body ∧ (⟨cs, o⟩ : Cursor).Spells l d := by
  fun_induction stringBody quote cs o generalizing body with
  | case1 => cases h
  | case2 cs o =>
    cases h
    exact ⟨[quote], .close, rfl, by simp⟩
  | case3 => cases h
  | case4 => cases h
  | case5 o e cs x hx hq ih =>
    obtain ⟨⟨b, d'⟩, hb, he⟩ := map_eq_ok_iff.1 h
    cases he
    obtain ⟨l, hl, hs⟩ := ih hb
    refine ⟨'\\' :: e :: l, .escape hq hx hl, ?_, ?_⟩
    · simp only [show cs = l ++ d.rest from hs.rest, List.cons_append]
    · simp only [hs.offset, Text.byteLength_cons]
      omega
  | case6 => cases h
  | case7 c cs o hc hb hn ih =>
    obtain ⟨⟨b, d'⟩, hb', he⟩ := map_eq_ok_iff.1 h
    cases he
    obtain ⟨l, hl, hs⟩ := ih hb'
    refine ⟨c :: l, .char hc hb hn hl, ?_, ?_⟩
    · simp only [show cs = l ++ d.rest from hs.rest, List.cons_append]
    · simp only [hs.offset, Text.byteLength_cons]
      omega

theorem stringBody_of_quoted (h : Quoted quote l body) : ∀ {cs : List Char} {o : Nat},
    (⟨cs, o⟩ : Cursor).Spells l d → stringBody quote cs o = .ok (body, d) := by
  induction h with
  | close =>
    intro cs o hs
    obtain ⟨rest, offset⟩ := d
    obtain ⟨rfl, rfl⟩ : cs = quote :: rest ∧ offset = o + quote.utf8Size := ⟨hs.rest, by simpa using hs.offset⟩
    rw [stringBody.eq_def]
    simp only [if_true]
  | @escape e x l body hq hx _ ih =>
    intro cs o hs
    obtain rfl : cs = '\\' :: e :: (l ++ d.rest) := hs.rest
    have hi := @ih (l ++ d.rest) (o + '\\'.utf8Size + e.utf8Size)
      ⟨rfl, by simp only [hs.offset, Text.byteLength_cons]; omega⟩
    simp [stringBody, hq, hx, hi, Except.map]
  | @char c l body hc hb hn _ ih =>
    intro cs o hs
    obtain rfl : cs = c :: (l ++ d.rest) := hs.rest
    have hi := @ih (l ++ d.rest) (o + c.utf8Size)
      ⟨rfl, by simp only [hs.offset, Text.byteLength_cons]; omega⟩
    rw [stringBody.eq_def]
    simp only [if_neg hc, if_neg hb, if_neg hn, hi, Except.map]

end

/-- A string literal between two cursors. -/
def Cursor.Quotes (c : Cursor) (s : String) (d : Cursor) : Prop :=
  ∃ quote l, isQuote quote ∧ Quoted quote l s.toList ∧ c.Spells (quote :: l) d

theorem string_eq_ok_iff {c d : Cursor} {q : Char} {cs : List Char} {s : String} (hr : c.rest = q :: cs)
    (hq : isQuote q) : Parser.string c = .ok (s, d) ↔ c.Quotes s d := by
  have hs : ∀ {l : List Char}, c.Spells (q :: l) d ↔ (⟨cs, c.offset + q.utf8Size⟩ : Cursor).Spells l d := by
    intro l
    constructor
    · rintro ⟨h, h'⟩
      exact ⟨(List.cons.inj (hr.symm.trans h)).2, by rw [h', Text.byteLength_cons, Nat.add_assoc]⟩
    · rintro ⟨h, h'⟩
      refine ⟨by rw [hr, show cs = l ++ d.rest from h]; rfl, ?_⟩
      rw [h', Text.byteLength_cons, Nat.add_assoc]
  constructor
  · intro h
    simp only [Parser.string, hr] at h
    split at h
    · rename_i body d' hb
      cases h
      obtain ⟨l, hl, hsl⟩ := quoted_of_stringBody hb
      exact ⟨q, l, hq, by rwa [String.toList_ofList], hs.2 hsl⟩
    · cases h
    · cases h
  · rintro ⟨quote, l, -, hl, hsl⟩
    obtain rfl : q = quote := (List.cons.inj (hr.symm.trans hsl.rest)).1
    simp only [Parser.string, hr, stringBody_of_quoted hl (hs.1 hsl), String.ofList_toList]

end SymbolBridge.Script
