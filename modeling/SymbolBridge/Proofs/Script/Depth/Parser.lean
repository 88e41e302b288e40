import SymbolBridge.Proofs.Script.Progress
import SymbolBridge.Script.Error

/-!
# Parsers with a bound on their depth

The bounded parsers give an answer also when their bound is used up. Here are the same loops and recursions with a bound on
the depth of their calls alone, one round of a loop being one call: a `Run` that would have to go deeper has no outcome. It
has none either if a round of `skip` passes no character, or if `offset?` is asked for a place in front of the source, since
it takes what is left from the whole.
-/

namespace SymbolBridge.Script.Depth

open Text (byteLength)
open Cursor (ofSource)
open SymbolBridge.Script.Parser (constant?)

variable {α β : Type}

/-- The outcome of a parser, if it has one. -/
abbrev Run (α : Type) := ExceptT SyntaxFault Option α

def ended (r : Except SyntaxFault α) : Run α := ExceptT.mk (some r)

def stuck : Run α := ExceptT.mk none

/-! ## The parsers -/

/-- Past all separators and comments, one after the other. -/
def skip : Nat → Cursor → Run Cursor
  | 0, _ => stuck
  | depth + 1, c =>
    match separator? c.rest with
    | none => pure c
    | some l => if (c.advance l).rest.length = c.rest.length then stuck else skip depth (c.advance l)

/-- The bytes of the source less those that are left. -/
def offset? (src : String) (c : Cursor) : Option Nat :=
  if byteLength c.rest ≤ src.utf8ByteSize then some (src.utf8ByteSize - byteLength c.rest) else none

def spanTo (src : String) (c d : Cursor) : Run Span := return ⟨← offset? src c, ← offset? src d⟩

mutual

def primary (src : String) : Nat → Cursor → Run (Expr × Cursor)
  | 0, _ => stuck
  | depth + 1, c => do
    let c ← skip (depth + 1) c
    if let some (x, c) := c.number? then return (.number x, c)
    match c.rest with
    | '{' :: _ =>
      let (es, c) ← list src '}' depth (c.advance ['{'])
      return (.table es, c)
    | '(' :: _ =>
      let (e, c) ← expr src depth (c.advance ['('])
      let c ← skip (depth + 1) c
      match c.past? [')'] with
      | some c => return (e, c)
      | none => throw ⟨.expected ')', c⟩
    | q :: _ =>
      if isQuote q then
        let (s, c) ← ended (Parser.string c)
        return (.str s, c)
      else
        match c.identifier? with
        | none => throw ⟨.expectedExpression, c⟩
        | some (name, after) =>
          match constant? name with
          | some e => return (e, after)
          | none =>
            match ← arguments? src depth after with
            | some (args, d) => return (.call name args (← spanTo src c d), d)
            | none => return (.var name (← spanTo src c after), after)
    | [] => throw ⟨.expectedExpression, c⟩

/-- Primaries joined by `..`. -/
def expr (src : String) : Nat → Cursor → Run (Expr × Cursor)
  | 0, _ => stuck
  | depth + 1, c => do
    let start ← skip (depth + 1) c
    let (first, c) ← primary src depth start
    let (rest, c) ← operands src depth c
    return (.chain (← spanTo src start c) first rest, c)

/-- The primaries after each further `..`. -/
def operands (src : String) : Nat → Cursor → Run (List Expr × Cursor)
  | 0, _ => stuck
  | depth + 1, c => do
    let next ← skip (depth + 1) c
    match next.past? ['.', '.'] with
    | none => return ([], c)
    | some c =>
      let (e, c) ← primary src depth c
      let (es, c) ← operands src depth c
      return (e :: es, c)

/-- Expressions between commas, up to `close`, after the opening bracket. -/
def list (src : String) (close : Char) : Nat → Cursor → Run (List Expr × Cursor)
  | 0, _ => stuck
  | depth + 1, c => do
    let next ← skip (depth + 1) c
    match next.past? [close] with
    | some c => return ([], c)
    | none => items src close depth c

/-- One or more expressions between commas, up to `close`. -/
def items (src : String) (close : Char) : Nat → Cursor → Run (List Expr × Cursor)
  | 0, _ => stuck
  | depth + 1, c => do
    let (e, c) ← expr src depth c
    let c ← skip (depth + 1) c
    match c.past? [','], c.past? [close] with
    | some c, _ =>
      let (es, c) ← items src close depth c
      return (e :: es, c)
    | none, some c => return ([e], c)
    | none, none => throw ⟨.expected close, c⟩

/-- The arguments of a call after the name, if there are any. -/
def arguments? (src : String) : Nat → Cursor → Run (Option (List Expr × Cursor))
  | 0, _ => stuck
  | depth + 1, c => do
    let c ← skip (depth + 1) c
    match c.rest with
    | '(' :: _ =>
      let (es, c) ← list src ')' depth (c.advance ['('])
      return some (es, c)
    | q :: _ =>
      if isQuote q then
        let (s, c) ← ended (Parser.string c)
        return some ([.str s], c)
      else return none
    | [] => return none

end

/-- A statement at its first character. -/
def statement (src : String) (depth : Nat) (c : Cursor) : Run (Statement × Cursor) :=
  match c.identifier? with
  | none => throw ⟨.expectedStatement, c⟩
  | some (name, after) => do
    let next ← skip depth after
    match next.past? ['='] with
    | some d =>
      let (e, d) ← expr src depth d
      return (.assign name e (← spanTo src c d), d)
    | none =>
      match ← arguments? src depth after with
      | some (args, d) => return (.call name args (← spanTo src c d), d)
      | none => throw ⟨.expectedStatement, c⟩

/-- Statements to the end of the text. -/
def statements (src : String) : Nat → Cursor → Run (List Statement)
  | 0, _ => stuck
  | depth + 1, c => do
    let c ← skip (depth + 1) c
    if c.rest.isEmpty then return []
    else
      let (s, c) ← statement src depth c
      let ss ← statements src depth c
      return s :: ss

/-- The statements of a source, or what is wrong with it. -/
def load (src : String) (depth : Nat) : Option (Except Error (List Statement)) := do
  match ← (statements src depth (ofSource src)).run with
  | .ok ss => return .ok ss
  | .error fault =>
    let start ← offset? src fault.place
    return .error (.parse fault.cause ⟨start, start + byteLength (fault.place.rest.take 1)⟩)

end SymbolBridge.Script.Depth
