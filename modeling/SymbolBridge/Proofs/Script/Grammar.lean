import SymbolBridge.Proofs.Script.Token
import SymbolBridge.Proofs.Script.Tree

/-!
# The grammar of scripts, without the bound

`Reads p c d` says that the text from the cursor `c` to the cursor `d` is a phrase `p` in front of what follows, one
production for each way to read one. What follows matters in two places: a name is a variable only if no arguments
follow (`Cursor.NoArguments`), and a concatenation ends only where no `..` follows. Reading moves on (`Reads.reaches`),
and blanks may stand in front of a primary and of a chain (`Reads.primary_of_skip`, `Reads.chain_of_skip`).
-/

namespace SymbolBridge.Script

open SymbolBridge.Script.Parser (constant?)

/-- No arguments follow: neither a parenthesis nor a string. -/
def Cursor.NoArguments (c : Cursor) : Prop := ∀ x ∈ c.skip.rest.head?, x ≠ '(' ∧ isQuote x = false

/-- What a parser of a part of an expression reads. -/
inductive Phrase where
  | primary (e : Expr)
  /-- Primaries joined by `..`. -/
  | chain (e : Expr)
  /-- The primaries after each further `..`. -/
  | operands (es : List Expr)
  /-- One or more expressions between commas, up to a bracket. -/
  | items (close : Char) (es : List Expr)
  | list (close : Char) (es : List Expr)
  /-- The arguments of a call, after the name. -/
  | arguments (es : List Expr)

/-- The nodes of the expressions of a phrase. -/
def Phrase.nodes : Phrase → List Expr
  | .primary e => e.nodes
  | .chain e => e.nodes
  | .operands es => Expr.nodesAll es
  | .items _ es => Expr.nodesAll es
  | .list _ es => Expr.nodesAll es
  | .arguments es => Expr.nodesAll es

inductive Reads : Phrase → Cursor → Cursor → Prop where
  | number {c d : Cursor} {x : Number} : c.skip.number? = some (x, d) → Reads (.primary (.number x)) c d
  | string {c d : Cursor} {s : String} : c.skip.Quotes s d → Reads (.primary (.str s)) c d
  | table {c k d : Cursor} {es : List Expr} : c.skip.past? ['{'] = some k → Reads (.list '}' es) k d →
      Reads (.primary (.table es)) c d
  | parens {c k m d : Cursor} {e : Expr} : c.skip.past? ['('] = some k → Reads (.chain e) k m →
      m.skip.past? [')'] = some d → Reads (.primary e) c d
  | constant {c d : Cursor} {name : String} {e : Expr} : c.skip.identifier? = some (name, d) →
      constant? name = some e → Reads (.primary e) c d
  | call {c k d : Cursor} {name : String} {args : List Expr} : c.skip.identifier? = some (name, k) →
      constant? name = none → Reads (.arguments args) k d → Reads (.primary (.call name args (c.skip.spanTo d))) c d
  | var {c d : Cursor} {name : String} : c.skip.identifier? = some (name, d) → constant? name = none →
      d.NoArguments → Reads (.primary (.var name (c.skip.spanTo d))) c d
  | chain {c m d : Cursor} {first : Expr} {rest : List Expr} : Reads (.primary first) c.skip m →
      Reads (.operands rest) m d → Reads (.chain (.chain (c.skip.spanTo d) first rest)) c d
  | done {c : Cursor} : c.skip.past? ['.', '.'] = none → Reads (.operands []) c c
  | operand {c k m d : Cursor} {e : Expr} {es : List Expr} : c.skip.past? ['.', '.'] = some k →
      Reads (.primary e) k m → Reads (.operands es) m d → Reads (.operands (e :: es)) c d
  | last {c m d : Cursor} {close : Char} {e : Expr} : Reads (.chain e) c m → m.skip.past? [close] = some d →
      Reads (.items close [e]) c d
  | more {c m k d : Cursor} {close : Char} {e : Expr} {es : List Expr} : Reads (.chain e) c m →
      m.skip.past? [','] = some k → Reads (.items close es) k d → Reads (.items close (e :: es)) c d
  | empty {c d : Cursor} {close : Char} : c.skip.past? [close] = some d → Reads (.list close []) c d
  | items {c d : Cursor} {close : Char} {es : List Expr} : Reads (.items close es) c d → Reads (.list close es) c d
  | inParens {c k d : Cursor} {es : List Expr} : c.skip.past? ['('] = some k → Reads (.list ')' es) k d →
      Reads (.arguments es) c d
  | oneString {c d : Cursor} {s : String} : c.skip.Quotes s d → Reads (.arguments [.str s]) c d

/-- A statement at its first character. -/
inductive ReadsStatement : Statement → Cursor → Cursor → Prop where
  | assign {c k m d : Cursor} {name : String} {e : Expr} : c.identifier? = some (name, k) →
      k.skip.past? ['='] = some m → Reads (.chain e) m d → ReadsStatement (.assign name e (c.spanTo d)) c d
  | call {c k d : Cursor} {name : String} {args : List Expr} : c.identifier? = some (name, k) →
      Reads (.arguments args) k d → ReadsStatement (.call name args (c.spanTo d)) c d

/-- Statements to the end of the text. -/
inductive ReadsAll : List Statement → Cursor → Prop where
  | nil {c : Cursor} : c.skip.rest = [] → ReadsAll [] c
  | cons {c d : Cursor} {s : Statement} {ss : List Statement} : ReadsStatement s c.skip d → ReadsAll ss d →
      ReadsAll (s :: ss) c

/-! ## Reading moves on -/

section

variable {p : Phrase} {c d : Cursor}

theorem Reads.reaches (h : Reads p c d) : c.Reaches d := by
  have quotes : ∀ {c k : Cursor} {s : String}, c.skip.Quotes s k → c.Reaches k := fun {c _ _} ⟨_, _, _, _, hs⟩ =>
    c.reaches_skip.trans hs.reaches
  induction h with
  | @number c d x hx => exact c.reaches_skip.trans (Cursor.number?_eq_some_iff.1 hx).2.2.reaches
  | string hs => exact quotes hs
  | table hk _ ih => exact (Cursor.reaches_of_past? hk).trans ih
  | parens hk _ hd ih => exact ((Cursor.reaches_of_past? hk).trans ih).trans (Cursor.reaches_of_past? hd)
  | constant hn _ => exact Cursor.reaches_of_identifier? hn
  | call hn _ _ ih => exact (Cursor.reaches_of_identifier? hn).trans ih
  | var hn _ _ => exact Cursor.reaches_of_identifier? hn
  | @chain c m d first rest _ _ ih₁ ih₂ => exact (c.reaches_skip.trans ih₁).trans ih₂
  | done => exact .refl _
  | operand hk _ _ ih₁ ih₂ => exact ((Cursor.reaches_of_past? hk).trans ih₁).trans ih₂
  | last _ hd ih => exact ih.trans (Cursor.reaches_of_past? hd)
  | more _ hk _ ih₁ ih₂ => exact (ih₁.trans (Cursor.reaches_of_past? hk)).trans ih₂
  | empty hd => exact Cursor.reaches_of_past? hd
  | items _ ih => exact ih
  | inParens hk _ ih => exact (Cursor.reaches_of_past? hk).trans ih
  | oneString hs => exact quotes hs

end

/-- A token that is not empty leaves less than there was before the blanks in front of it. -/
theorem Cursor.length_lt_of_past? {c d : Cursor} {x : Char} {l : List Char} (h : c.skip.past? (x :: l) = some d) :
    d.rest.length < c.rest.length := by
  have hs := (Cursor.past?_eq_some_iff.1 h).length
  have := c.reaches_skip.length_le
  rw [List.length_cons] at hs
  omega

theorem Cursor.length_lt_of_skip_identifier? {c d : Cursor} {name : String} (h : c.skip.identifier? = some (name, d)) :
    d.rest.length < c.rest.length :=
  Nat.lt_of_lt_of_le (Cursor.length_lt_of_identifier? h) c.reaches_skip.length_le

/-- Every primary is at least one character. -/
theorem Reads.length_pos {e : Expr} {c d : Cursor} (h : Reads (.primary e) c d) : 0 < c.skip.rest.length := by
  have token : ∀ {k : Cursor} {x : Char} {l : List Char}, c.skip.past? (x :: l) = some k → 0 < c.skip.rest.length := by
    intro k x l h
    have hs := (Cursor.past?_eq_some_iff.1 h).length
    rw [List.length_cons] at hs
    omega
  cases h with
  | number hx =>
    obtain ⟨hn, -, hs⟩ := Cursor.number?_eq_some_iff.1 hx
    have := List.length_pos_iff.2 hn
    rw [hs.length]
    omega
  | string hs =>
    obtain ⟨_, _, _, _, hs⟩ := hs
    have := hs.length
    rw [List.length_cons] at this
    omega
  | table hk _ => exact token hk
  | parens hk _ _ => exact token hk
  | constant hn _ => exact Nat.lt_of_le_of_lt (Nat.zero_le _) (Cursor.length_lt_of_identifier? hn)
  | call hn _ _ => exact Nat.lt_of_le_of_lt (Nat.zero_le _) (Cursor.length_lt_of_identifier? hn)
  | var hn _ _ => exact Nat.lt_of_le_of_lt (Nat.zero_le _) (Cursor.length_lt_of_identifier? hn)

/-- Reading starts after the blanks. -/
theorem reads_primary_skip {e : Expr} {c d : Cursor} (h : Reads (.primary e) c d) : Reads (.primary e) c.skip d := by
  cases h with
  | number hx => exact .number (by rwa [c.skip_skip])
  | string hs => exact .string (by rwa [c.skip_skip])
  | table hk hl => exact .table (by rwa [c.skip_skip]) hl
  | parens hk he hd => exact .parens (by rwa [c.skip_skip]) he hd
  | constant hn hc => exact .constant (by rwa [c.skip_skip]) hc
  | call hn hc ha =>
    rw [← c.skip_skip] at hn
    simpa only [c.skip_skip] using Reads.call hn hc ha
  | var hn hc ha =>
    rw [← c.skip_skip] at hn
    simpa only [c.skip_skip] using Reads.var hn hc ha

theorem reads_chain_skip {e : Expr} {c d : Cursor} (h : Reads (.chain e) c d) : Reads (.chain e) c.skip d := by
  cases h with
  | chain hf hops =>
    rw [← c.skip_skip] at hf
    simpa only [c.skip_skip] using Reads.chain hf hops

/-- What is read after the blanks is read with them in front. -/
theorem Reads.primary_of_skip {e : Expr} {c d : Cursor} (h : Reads (.primary e) c.skip d) : Reads (.primary e) c d := by
  cases h with
  | number hx => exact .number (by rwa [c.skip_skip] at hx)
  | string hs => exact .string (by rwa [c.skip_skip] at hs)
  | table hk hl => exact .table (by rwa [c.skip_skip] at hk) hl
  | parens hk he hd => exact .parens (by rwa [c.skip_skip] at hk) he hd
  | constant hn hc => exact .constant (by rwa [c.skip_skip] at hn) hc
  | call hn hc ha =>
    rw [c.skip_skip] at hn ⊢
    exact .call hn hc ha
  | var hn hc ha =>
    rw [c.skip_skip] at hn ⊢
    exact .var hn hc ha

theorem Reads.chain_of_skip {e : Expr} {c d : Cursor} (h : Reads (.chain e) c.skip d) : Reads (.chain e) c d := by
  cases h with
  | chain hf hops =>
    rw [c.skip_skip] at hf ⊢
    exact .chain hf hops

end SymbolBridge.Script
