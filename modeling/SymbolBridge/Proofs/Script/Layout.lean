import SymbolBridge.Proofs.Script.Complete
import SymbolBridge.Proofs.Value.Numeral

/-!
# The layout of scripts

`render` writes statements as a source in one fixed layout: a statement to a line, every concatenation in parentheses,
strings in double quotes. A token ends where its text ends only if what follows does not continue it. `Cursor.Ends` says
so of the place after a primary; a blank, a comma, a closing bracket and the end of the source are such places.
-/

namespace SymbolBridge.Script

open SymbolBridge.Script.Parser (constant?)

/-! ## Names -/

/-- A letter or an underscore, then letters, digits and underscores. -/
def IsIdentifier (name : String) : Prop :=
  ∃ x xs, name.toList = x :: xs ∧ (x.isAlpha ∨ x = '_') ∧ ∀ y ∈ xs, y.isAlphanum ∨ y = '_'

/-- A name that an expression can use: an identifier that is no constant. -/
def IsReference (name : String) : Prop := IsIdentifier name ∧ name ≠ "nil" ∧ name ≠ "true" ∧ name ≠ "false"

namespace Expr

/-- The name in a node, if there is one, can be used in an expression. -/
def Named : Expr → Prop
  | .var name _ => IsReference name
  | .call callee _ _ => IsReference callee
  | _ => True

def isDouble : Expr → Bool
  | .number (.float _) => true
  | _ => false

end Expr

namespace Statement

/-- All names of a statement are names. The name in front may be that of a constant. -/
def WellNamed : Statement → Prop
  | .assign name value _ => IsIdentifier name ∧ ∀ e ∈ value.nodes, e.Named
  | .call callee args _ => IsIdentifier callee ∧ ∀ e ∈ Expr.nodesAll args, e.Named

def NoDoubles (s : Statement) : Prop := ∀ e ∈ s.nodes, e.isDouble = false

end Statement

/-! ## The layout -/

/-- A character in double quotes. -/
def escaped (c : Char) : List Char :=
  if c = '\\' then ['\\', '\\'] else if c = '"' then ['\\', '"'] else if c = '\n' then ['\\', 'n'] else [c]

namespace Expr

mutual

def render : Expr → List Char
  | .nil => ['n', 'i', 'l']
  | .bool b => if b then ['t', 'r', 'u', 'e'] else ['f', 'a', 'l', 's', 'e']
  | .number n => n.toText.toList
  | .str s => '"' :: (s.toList.flatMap escaped ++ ['"'])
  | .table items => '{' :: (renderItems items ++ ['}'])
  | .var name _ => name.toList
  | .call callee args _ => callee.toList ++ '(' :: (renderItems args ++ [')'])
  | .concat left right _ => '(' :: (left.render ++ ' ' :: '.' :: '.' :: ' ' :: (right.render ++ [')']))

/-- Expressions with a comma and a space between them. -/
def renderItems : List Expr → List Char
  | [] => []
  | [e] => e.render
  | e :: e' :: es => e.render ++ (',' :: ' ' :: renderItems (e' :: es))

end

end Expr

def Statement.render : Statement → List Char
  | .assign name value _ => name.toList ++ ' ' :: '=' :: ' ' :: value.render
  | .call callee args span => (Expr.call callee args span).render

/-- The source with one statement on each line. -/
def render (ss : List Statement) : String := String.ofList (ss.flatMap fun s => s.render ++ ['\n'])

/-! ## Tokens of the layout -/

section

variable {c d : Cursor} {l m : List Char} {x : Char}

theorem Cursor.Spells.split (h : c.Spells (l ++ m) d) : c.Spells l (c.advance l) ∧ (c.advance l).Spells m d := by
  have hl : c.Spells l (c.advance l) := Cursor.spells_advance (List.prefix_append l m |>.trans h.isPrefix)
  refine ⟨hl, ?_, ?_⟩
  · have hr := hl.rest
    rw [h.rest, List.append_assoc] at hr
    exact (List.append_cancel_left hr).symm
  · rw [h.offset, Cursor.offset_advance, Text.byteLength_append, Nat.add_assoc]

theorem blankPrefix_toText (n : Int64) (r : List Char) : blankPrefix ((Number.int n).toText.toList ++ r) = [] := by
  obtain ⟨negative, m, -, ht⟩ := Number.exists_toList_toText n
  obtain ⟨x, xs, hd, hx, -⟩ := exists_toDigits m
  have hne : x ≠ '-' := fun he => absurd hx (by rw [he]; decide)
  rw [ht, hd]
  cases negative with
  | true => exact blankPrefix_hyphen hne
  | false => exact blankPrefix_cons (isSeparator_of_isDigit hx) hne

theorem skip_of_cons (hr : c.rest = x :: l) (hs : isSeparator x = false) (hx : x ≠ '-') : c.skip = c :=
  Cursor.skip_of_blankPrefix (by rw [hr]; exact blankPrefix_cons hs hx)

/-- A separator is skipped with the blanks after it. -/
theorem skip_of_separator (hr : c.rest = x :: l) (hs : isSeparator x) : c.skip = (c.advance [x]).skip := by
  have hb : blankPrefix (x :: l) = x :: blankPrefix l := by simp [blankPrefix, blankPrefixFrom, hs]
  have ha : (c.advance [x]).rest = l := by rw [Cursor.rest_advance, hr]; rfl
  simp only [Cursor.skip, ha, hr, hb]
  simp only [Cursor.advance, List.drop_drop, List.length_cons, List.length_nil, Text.byteLength_cons,
    Text.byteLength_nil, Nat.add_zero, Nat.zero_add, Nat.add_assoc, Nat.add_comm 1]

/-! ## Names -/

theorem isNameStart_iff : isNameStart x ↔ x.isAlpha ∨ x = '_' := by
  rw [isNameStart, Bool.or_eq_true, decide_eq_true_eq]

theorem isNameChar_iff : isNameChar x ↔ x.isAlphanum ∨ x = '_' := by
  rw [isNameChar, Bool.or_eq_true, decide_eq_true_eq]

theorem isIdentifier_of_all {name : String} {xs : List Char} (h : name.toList = x :: xs) (hx : isNameStart x)
    (hxs : xs.all isNameChar) : IsIdentifier name :=
  ⟨x, xs, h, isNameStart_iff.1 hx, fun y hy => isNameChar_iff.1 (List.all_eq_true.1 hxs y hy)⟩

theorem isIdentifier_of_identifier? {name : String} (h : c.identifier? = some (name, d)) : IsIdentifier name := by
  obtain ⟨x, cs, hr, hx⟩ := Cursor.exists_of_identifier? h
  obtain ⟨-, hp, -⟩ := Cursor.identifier?_eq_some_iff.1 h
  rw [hr, identifierPrefix_cons hx] at hp
  exact isIdentifier_of_all hp.symm hx List.all_takeWhile

/-- An identifier that nothing continues is read whole. -/
theorem identifier?_of_isIdentifier {name : String} (hn : IsIdentifier name) (h : c.Spells name.toList d)
    (ha : Apart d.rest) : c.identifier? = some (name, d) := by
  obtain ⟨x, xs, ht, hx, hxs⟩ := hn
  have htake : (xs ++ d.rest).takeWhile isNameChar = xs :=
    ha.takeWhile_append (fun _ => id) fun y hy => isNameChar_iff.2 (hxs y hy)
  refine Cursor.identifier?_eq_some_iff.2 ⟨by rw [ht]; exact List.cons_ne_nil x xs, ?_, h⟩
  rw [h.rest, ht, List.cons_append, identifierPrefix_cons (isNameStart_iff.2 hx), htake]

theorem constant?_eq_none_iff {name : String} :
    constant? name = none ↔ name ≠ "nil" ∧ name ≠ "true" ∧ name ≠ "false" := by
  unfold constant?
  split <;> simp_all

/-! ## Strings -/

theorem quoted_escaped : ∀ s : List Char, Quoted '"' (s.flatMap escaped ++ ['"']) s
  | [] => .close
  | c :: cs => by
    have ih := quoted_escaped cs
    rw [List.flatMap_cons, escaped, List.append_assoc]
    split
    · rename_i h
      rw [h]
      exact .escape (by decide) (by decide) ih
    · rename_i hb
      split
      · rename_i h
        rw [h]
        exact .escape (by decide) (by decide) ih
      · rename_i hq
        split
        · rename_i h
          rw [h]
          exact .escape (by decide) (by decide) ih
        · rename_i hn
          exact .char hq hb hn ih

/-! ## Where a primary ends -/

/-- What follows continues neither a name or a numeral nor a name to a call. -/
structure Cursor.Ends (c : Cursor) : Prop where
  apart : Apart c.rest
  noArguments : c.NoArguments

theorem skip_of_mark (hr : c.rest = x :: l) (hx : x = ',' ∨ x = ')' ∨ x = '}') : c.skip = c := by
  rcases hx with rfl | rfl | rfl <;> exact skip_of_cons hr (by decide) (by decide)

theorem past?_of_mark (hs : c.Spells [x] d) (hx : x = ',' ∨ x = ')' ∨ x = '}') : c.skip.past? [x] = some d := by
  rw [skip_of_mark hs.rest hx]
  exact Cursor.past?_eq_some_iff.2 hs

/-- In front of a comma or a closing bracket a primary ends, and a chain too. -/
theorem ends_of_mark (hr : c.rest = x :: l) (hx : x = ',' ∨ x = ')' ∨ x = '}') :
    c.Ends ∧ c.skip.past? ['.', '.'] = none := by
  have hskip := skip_of_mark hr hx
  refine ⟨⟨?_, ?_⟩, ?_⟩
  · intro y hy
    rw [hr, List.head?_cons, Option.mem_some_iff] at hy
    subst hy
    rcases hx with rfl | rfl | rfl <;> decide
  · intro y hy
    rw [hskip, hr, List.head?_cons, Option.mem_some_iff] at hy
    subst hy
    rcases hx with rfl | rfl | rfl <;> decide
  · refine Cursor.past?_eq_none fun y hy => ?_
    rw [hskip, hr, List.head?_cons, Option.mem_some_iff] at hy
    subst hy
    rcases hx with rfl | rfl | rfl <;> decide

/-- At the end of the text a primary ends, and a chain too. -/
theorem ends_of_nil (hr : c.rest = []) : c.Ends ∧ c.skip.rest = [] ∧ c.skip.past? ['.', '.'] = none := by
  have hskip : c.skip.rest = [] := by
    rw [Cursor.skip_of_blankPrefix (by rw [hr]; rfl), hr]
  refine ⟨⟨?_, ?_⟩, hskip, Cursor.past?_eq_none ?_⟩
  · intro y hy
    rw [hr] at hy
    cases hy
  · intro y hy
    rw [hskip] at hy
    cases hy
  · intro y hy
    rw [hskip] at hy
    cases hy

/-- In front of a separator a primary ends if no arguments and no further operand come after it. -/
theorem ends_of_separator (hr : c.rest = x :: l) (hx : x = ' ' ∨ x = '\n')
    (hl : ∀ y ∈ (c.advance [x]).skip.rest.head?, y ≠ '(' ∧ isQuote y = false) : c.Ends := by
  have hs : isSeparator x := by rcases hx with rfl | rfl <;> rfl
  refine ⟨?_, ?_⟩
  · intro y hy
    rw [hr, List.head?_cons, Option.mem_some_iff] at hy
    subst hy
    rcases hx with rfl | rfl <;> decide
  · rw [Cursor.NoArguments, skip_of_separator hr hs]
    exact hl

/-- A primary that no operand follows is an expression. -/
theorem reads_chain_of_primary {e : Expr} (h : Reads (.primary e) c d) (hd : d.skip.past? ['.', '.'] = none) :
    Reads (.chain e) c d := .chain (reads_primary_skip h) (.done hd)

end

end SymbolBridge.Script
