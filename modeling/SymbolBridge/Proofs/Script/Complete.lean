import SymbolBridge.Proofs.Script.Sound

/-!
# What is read the parsers give

What the grammar reads, the parsers give under every bound that is at least the length of the text left
(`Phrase.Parsed`, `Reads.parsed`). They give nothing else, so a source parses into exactly the statements it is read as
(`parse_eq_ok_iff`).
-/

namespace SymbolBridge.Script

open SymbolBridge.Script.Parser (constant?)

section Complete

/-- The parsers give a phrase, between two cursors, under the bound `n`. -/
def Phrase.Parsed (n : Nat) (c d : Cursor) : Phrase → Prop
  | .primary e => Parser.primary n c = .ok (e, d)
  | .chain e => Parser.expr n c = .ok (e, d)
  | .operands es => ∀ m, c.rest.length ≤ m → Parser.operands (Parser.primary n) m c = .ok (es, d)
  | .items close es => close = ')' ∨ close = '}' → ∀ m, c.rest.length ≤ m →
      Parser.items (Parser.expr n) close m c = .ok (es, d)
  | .list close es => close = ')' ∨ close = '}' → ∀ m, c.rest.length ≤ m →
      Parser.list (Parser.expr n) close m c = .ok (es, d)
  | .arguments es => ∀ m, c.rest.length ≤ m → Parser.arguments? (Parser.expr n) m c = .ok (some (es, d))

variable {n : Nat} {c d : Cursor}

theorem rest_of_past? {x : Char} (h : c.past? [x] = some d) : c.rest = x :: d.rest :=
  (Cursor.past?_eq_some_iff.1 h).rest

theorem primary_of_number? {x : Number} (h : c.skip.number? = some (x, d)) :
    Parser.primary (n + 1) c = .ok (.number x, d) := by
  simp only [Parser.primary, h]
  rfl

theorem primary_of_table {k : Cursor} {es : List Expr} (h : c.skip.past? ['{'] = some k)
    (hl : Parser.list (Parser.expr n) '}' n k = .ok (es, d)) : Parser.primary (n + 1) c = .ok (.table es, d) := by
  have hr := rest_of_past? h
  simp only [Parser.primary, Cursor.number?_eq_none hr (by decide) (by decide), hr]
  rw [← (Cursor.past?_eq_some_iff.1 h).eq_advance]
  exact bind_eq_ok_iff.2 ⟨(es, d), hl, rfl⟩

theorem primary_of_parens {k m : Cursor} {e : Expr} (h : c.skip.past? ['('] = some k)
    (he : Parser.expr n k = .ok (e, m)) (hd : m.skip.past? [')'] = some d) : Parser.primary (n + 1) c = .ok (e, d) := by
  have hr := rest_of_past? h
  simp only [Parser.primary, Cursor.number?_eq_none hr (by decide) (by decide), hr]
  rw [← (Cursor.past?_eq_some_iff.1 h).eq_advance]
  refine bind_eq_ok_iff.2 ⟨(e, m), he, ?_⟩
  simp only [hd]
  rfl

theorem isQuote_iff {x : Char} : isQuote x ↔ x = '"' ∨ x = '\'' := by simp [isQuote]

theorem isQuote_of_isNameStart {x : Char} (h : isNameStart x) : isQuote x = false := by
  rw [Bool.eq_false_iff, Ne, isQuote_iff, not_or]
  exact ⟨ne_of_isNameStart h (by decide), ne_of_isNameStart h (by decide)⟩

theorem primary_of_quotes {s : String} (h : c.skip.Quotes s d) : Parser.primary (n + 1) c = .ok (.str s, d) := by
  obtain ⟨q, l, hq, -, hs⟩ := id h
  have hr : c.skip.rest = q :: (l ++ d.rest) := hs.rest
  have hstring := (string_eq_ok_iff hr hq).2 h
  have hnumber : c.skip.number? = none := by
    rcases isQuote_iff.1 hq with rfl | rfl
    · exact Cursor.number?_eq_none hr (by decide) (by decide)
    · exact Cursor.number?_eq_none hr (by decide) (by decide)
  simp only [Parser.primary, hnumber, hr]
  split
  · rename_i he
    cases he
    exact absurd hq (by decide)
  · rename_i he
    cases he
    exact absurd hq (by decide)
  · rename_i q' _ _ _ he
    cases he
    rw [if_pos hq]
    exact bind_eq_ok_iff.2 ⟨(s, d), hstring, rfl⟩
  · rename_i he
    cases he

/-- A primary that starts with an identifier. -/
theorem primary_of_identifier? {k : Cursor} {name : String} (h : c.skip.identifier? = some (name, k)) :
    Parser.primary (n + 1) c =
      match constant? name with
      | some e => .ok (e, k)
      | none => do
        match ← Parser.arguments? (Parser.expr n) n k with
        | some (args, d) => return (.call name args (c.skip.spanTo d), d)
        | none => return (.var name (c.skip.spanTo k), k) := by
  obtain ⟨x, cs, hr, hx⟩ := Cursor.exists_of_identifier? h
  have hq := isQuote_of_isNameStart hx
  have hn := Cursor.number?_eq_none hr (isDigit_of_isNameStart hx) (ne_of_isNameStart hx (by decide))
  simp only [Parser.primary, hn, hr]
  split
  · rename_i he
    cases he
    exact absurd hx (by decide)
  · rename_i he
    cases he
    exact absurd hx (by decide)
  · rename_i he
    cases he
    rw [if_neg (by rw [hq]; exact Bool.false_ne_true), h]
    rfl
  · rename_i he
    cases he

/-- No primary starts with a bracket that closes a list. -/
theorem Reads.head_ne_close {e : Expr} {close : Char} (h : Reads (.primary e) c d)
    (hc : close = ')' ∨ close = '}') : ∀ y ∈ c.skip.rest.head?, y ≠ close := by
  have fixed : ∀ {x : Char} {cs : List Char}, c.skip.rest = x :: cs → x ≠ ')' → x ≠ '}' →
      ∀ y ∈ c.skip.rest.head?, y ≠ close := by
    intro x cs hr h₁ h₂ y hy
    rw [hr] at hy
    obtain rfl : x = y := Option.some.inj hy
    rintro rfl
    exact hc.elim h₁ h₂
  have named : ∀ {name : String} {k : Cursor}, c.skip.identifier? = some (name, k) →
      ∀ y ∈ c.skip.rest.head?, y ≠ close := by
    intro name k hn
    obtain ⟨x, cs, hr, hx⟩ := Cursor.exists_of_identifier? hn
    exact fixed hr (ne_of_isNameStart hx (by decide)) (ne_of_isNameStart hx (by decide))
  cases h with
  | number hx =>
    rintro y hy rfl
    obtain ⟨cs, hr⟩ := List.head?_eq_some_iff.1 hy
    have hn : c.skip.number? = none := by
      rcases hc with rfl | rfl
      · exact Cursor.number?_eq_none hr (by decide) (by decide)
      · exact Cursor.number?_eq_none hr (by decide) (by decide)
    rw [hn] at hx
    cases hx
  | string hs =>
    obtain ⟨q, l, hq, -, hs⟩ := hs
    rcases isQuote_iff.1 hq with rfl | rfl
    · exact fixed hs.rest (by decide) (by decide)
    · exact fixed hs.rest (by decide) (by decide)
  | table hk _ => exact fixed (rest_of_past? hk) (by decide) (by decide)
  | parens hk _ _ => exact fixed (rest_of_past? hk) (by decide) (by decide)
  | constant hn _ => exact named hn
  | call hn _ _ => exact named hn
  | var hn _ _ => exact named hn

theorem Reads.past?_close {es : List Expr} {close : Char} (h : Reads (.items close es) c d)
    (hc : close = ')' ∨ close = '}') : c.skip.past? [close] = none := by
  have chain : ∀ {e : Expr} {m : Cursor}, Reads (.chain e) c m → c.skip.past? [close] = none := by
    intro e m he
    cases he with
    | chain hf _ =>
      refine Cursor.past?_eq_none fun y hy => ?_
      rw [← c.skip_skip] at hy
      exact hf.head_ne_close hc y hy
  cases h with
  | last he _ => exact chain he
  | more he _ _ => exact chain he

theorem arguments?_of_noArguments {part : Parser Expr} (h : c.NoArguments) : Parser.arguments? part n c = .ok none := by
  unfold Parser.arguments?
  dsimp only
  split
  · rename_i hr
    exact absurd rfl (h '(' (by rw [hr, List.head?_cons, Option.mem_some_iff])).1
  · rename_i q _ _ hr
    rw [if_neg (Bool.eq_false_iff.1 (h q (by rw [hr, List.head?_cons, Option.mem_some_iff])).2)]
  · rfl

theorem arguments?_of_quotes {part : Parser Expr} {s : String} (h : c.skip.Quotes s d) :
    Parser.arguments? part n c = .ok (some ([.str s], d)) := by
  obtain ⟨q, l, hq, -, hs⟩ := id h
  have hr : c.skip.rest = q :: (l ++ d.rest) := hs.rest
  simp only [Parser.arguments?, hr]
  split
  · rename_i he
    cases he
    exact absurd hq (by decide)
  · rename_i he
    cases he
    rw [if_pos hq, (string_eq_ok_iff hr hq).2 h]
    rfl
  · rename_i he
    cases he

theorem arguments?_of_list {part : Parser Expr} {k : Cursor} {es : List Expr} (h : c.skip.past? ['('] = some k)
    (hl : Parser.list part ')' n k = .ok (es, d)) : Parser.arguments? part n c = .ok (some (es, d)) := by
  simp only [Parser.arguments?, rest_of_past? h]
  rw [← (Cursor.past?_eq_some_iff.1 h).eq_advance, hl]
  rfl

/-- A phrase that is read is given by its parser, under every bound that is at least the length of the text left. -/
theorem Reads.parsed {p : Phrase} (h : Reads p c d) : ∀ n, c.rest.length ≤ n → p.Parsed n c d := by
  -- Under the bound zero there is no text for a primary; otherwise the parts of a primary come after its first
  -- character, under the bound below.
  have step : ∀ {c d : Cursor} {e : Expr}, Reads (.primary e) c d →
      (∀ n, c.rest.length ≤ n + 1 → Parser.primary (n + 1) c = .ok (e, d)) →
      ∀ n, c.rest.length ≤ n → Parser.primary n c = .ok (e, d) := by
    intro c d e hr hs n hn
    cases n with
    | zero =>
      have := hr.length_pos
      have := c.reaches_skip.length_le
      omega
    | succ n => exact hs n hn
  induction h with
  | number hx => exact step (.number hx) fun _ _ => primary_of_number? hx
  | string hs => exact step (.string hs) fun _ _ => primary_of_quotes hs
  | table hk hl ih =>
    refine step (.table hk hl) fun n hn => ?_
    have hlt := Cursor.length_lt_of_past? hk
    exact primary_of_table hk (ih n (by omega) (.inr rfl) n (by omega))
  | parens hk he hd ih =>
    refine step (.parens hk he hd) fun n hn => ?_
    have hlt := Cursor.length_lt_of_past? hk
    exact primary_of_parens hk (ih n (by omega)) hd
  | constant hn hc =>
    refine step (.constant hn hc) fun n _ => ?_
    rw [primary_of_identifier? hn, hc]
  | @call c k d name args hn hc ha ih =>
    refine step (.call hn hc ha) fun n hb => ?_
    have hlt := Cursor.length_lt_of_skip_identifier? hn
    rw [primary_of_identifier? hn, hc]
    exact bind_eq_ok_iff.2 ⟨some (args, d), ih n (by omega) n (by omega), rfl⟩
  | var hn hc ha =>
    refine step (.var hn hc ha) fun n hb => ?_
    rw [primary_of_identifier? hn, hc]
    exact bind_eq_ok_iff.2 ⟨none, arguments?_of_noArguments ha, rfl⟩
  | @chain c m d first rest hf _ ih₁ ih₂ =>
    intro n hn
    have hle := c.reaches_skip.length_le
    have hle' := hf.reaches.length_le
    exact bind_eq_ok_iff.2 ⟨(first, m), ih₁ n (by omega),
      bind_eq_ok_iff.2 ⟨(rest, d), ih₂ n (by omega) n (by omega), rfl⟩⟩
  | done hk =>
    intro n _ m _
    cases m with
    | zero => rfl
    | succ m => simp only [Parser.operands, hk]
  | @operand c k m d e es hk he _ ih₁ ih₂ =>
    intro n hn i hi
    have hlt := Cursor.length_lt_of_past? hk
    have hle := he.reaches.length_le
    obtain ⟨i, rfl⟩ : ∃ j, i = j + 1 := ⟨i - 1, by omega⟩
    simp only [Parser.operands, hk]
    exact bind_eq_ok_iff.2 ⟨(e, m), ih₁ n (by omega),
      bind_eq_ok_iff.2 ⟨(es, d), ih₂ n (by omega) i (by omega), rfl⟩⟩
  | @last c m d close e he hd ih =>
    intro n hn hc i hi
    have hlt := Cursor.length_lt_of_past? hd
    have hle := he.reaches.length_le
    have hcomma : m.skip.past? [','] = none := by
      refine Cursor.past?_eq_none fun y hy => ?_
      rw [rest_of_past? hd] at hy
      obtain rfl : close = y := Option.some.inj hy
      rcases hc with rfl | rfl <;> decide
    obtain ⟨i, rfl⟩ : ∃ j, i = j + 1 := ⟨i - 1, by omega⟩
    refine bind_eq_ok_iff.2 ⟨(e, m), ih n hn, ?_⟩
    simp only [hcomma, hd]
    rfl
  | @more c m k d close e es he hk _ ih₁ ih₂ =>
    intro n hn hc i hi
    have hlt := Cursor.length_lt_of_past? hk
    have hle := he.reaches.length_le
    obtain ⟨i, rfl⟩ : ∃ j, i = j + 1 := ⟨i - 1, by omega⟩
    refine bind_eq_ok_iff.2 ⟨(e, m), ih₁ n hn, ?_⟩
    simp only [hk]
    exact bind_eq_ok_iff.2 ⟨(es, d), ih₂ n (by omega) hc i (by omega), rfl⟩
  | empty hd =>
    intro n _ _ m _
    simp only [Parser.list, hd]
  | items hi ih =>
    intro n hn hc m hm
    simp only [Parser.list, hi.past?_close hc]
    exact ih n hn hc m hm
  | inParens hk _ ih =>
    intro n hn m hm
    have hlt := Cursor.length_lt_of_past? hk
    exact arguments?_of_list hk (ih n (by omega) (.inl rfl) m (by omega))
  | oneString hs =>
    intro n _ m _
    exact arguments?_of_quotes hs

theorem ReadsStatement.parsed {s : Statement} (h : ReadsStatement s c d) (hn : c.rest.length ≤ n) :
    Parser.statement n c = .ok (s, d) := by
  cases h with
  | @assign _ k m _ name e hname hm he =>
    have hlt := Cursor.length_lt_of_identifier? hname
    have hlt' := Cursor.length_lt_of_past? hm
    simp only [Parser.statement, hname, hm]
    exact bind_eq_ok_iff.2 ⟨(e, d), he.parsed n (by omega), rfl⟩
  | @call _ k _ name args hname ha =>
    have hlt := Cursor.length_lt_of_identifier? hname
    have heq : k.skip.past? ['='] = none := by
      refine Cursor.past?_eq_none fun y hy => ?_
      cases ha with
      | inParens hk _ =>
        rw [rest_of_past? hk] at hy
        obtain rfl : '(' = y := Option.some.inj hy
        decide
      | oneString hs =>
        obtain ⟨q, l, hq, -, hs⟩ := hs
        rw [hs.rest] at hy
        obtain rfl : q = y := Option.some.inj hy
        rcases isQuote_iff.1 hq with rfl | rfl <;> decide
    simp only [Parser.statement, hname, heq]
    exact bind_eq_ok_iff.2 ⟨some (args, d), ha.parsed n (by omega) n (by omega), rfl⟩

theorem ReadsAll.parsed {ss : List Statement} (h : ReadsAll ss c) :
    ∀ n, c.rest.length ≤ n → Parser.statements n c = .ok ss := by
  induction h with
  | nil he =>
    intro n _
    cases n with
    | zero => rfl
    | succ n => simp only [Parser.statements, he, List.isEmpty_nil, if_true]
  | @cons c d s ss hs _ ih =>
    intro n hn
    have hlt := hs.length_lt
    have hle := c.reaches_skip.length_le
    obtain ⟨n, rfl⟩ : ∃ j, n = j + 1 := ⟨n - 1, by omega⟩
    have hne : c.skip.rest.isEmpty = false := by
      rw [List.isEmpty_eq_false_iff, ← List.length_pos_iff]
      omega
    simp only [Parser.statements, hne, Bool.false_eq_true, if_false]
    exact bind_eq_ok_iff.2 ⟨(s, d), hs.parsed (by omega), bind_eq_ok_iff.2 ⟨ss, ih n (by omega), rfl⟩⟩

end Complete

/-- A source parses into exactly the statements that it is read as. -/
theorem parse_eq_ok_iff {src : String} {ss : List Statement} :
    parse src = .ok ss ↔ ReadsAll ss (Cursor.ofSource src) :=
  ⟨readsAll_of_statements (Nat.le_refl _), fun h => h.parsed _ (Nat.le_refl _)⟩

end SymbolBridge.Script
