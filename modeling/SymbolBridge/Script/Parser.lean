import SymbolBridge.Script.Token

/-!
# Reading scripts

The grammar, with separators and comments allowed between any two tokens:

* a script is a list of statements;
* a statement is `name = expr` or a call;
* a call is `name (expr, …)` or `name string`;
* an expression is one or more primaries joined by `..`, which nests to the right;
* a primary is a literal, a variable, a call, a table `{expr, …}` or an expression in parentheses.

Parsers of nested parts are bounded by a number that is at least the length of the text left. Every step down moves
past a character, so a bound of zero means that no text is left, where an expression is missing.
-/

namespace SymbolBridge.Script

/-- Why a text is no script. -/
inductive SyntaxError where
  | expected (c : Char)
  | expectedExpression
  | expectedStatement
  | unterminatedString
  | invalidEscape (c : Char)
  deriving DecidableEq, Repr

def SyntaxError.message : SyntaxError → String
  | expected c => "expected '" ++ c.toString ++ "'"
  | expectedExpression => "expected expression"
  | expectedStatement => "expected statement (assignment or call)"
  | unterminatedString => "unterminated string"
  | invalidEscape c => "invalid escape sequence '\\" ++ c.toString ++ "'"

/-- A syntax error at a place of the source. -/
structure SyntaxFault where
  cause : SyntaxError
  place : Cursor
  deriving DecidableEq, Repr

/-- A parser reads from a cursor and moves it. -/
abbrev Parser (α : Type) := Cursor → Except SyntaxFault (α × Cursor)

namespace Parser

/-- A string literal, at its opening quote. -/
def string : Parser String := fun c =>
  match c.rest with
  | [] => .error ⟨.unterminatedString, c⟩
  | quote :: cs =>
    match stringBody quote cs (c.offset + quote.utf8Size) with
    | .ok (s, d) => .ok (String.ofList s, d)
    | .error .unterminated => .error ⟨.unterminatedString, c⟩
    | .error (.invalidEscape e place) => .error ⟨.invalidEscape e, place⟩

/-! ## Lists and chains, over a parser of their parts -/

section

variable (part : Parser Expr)

/-- One or more parts between commas, up to `close`. -/
def items (close : Char) : Nat → Parser (List Expr)
  | 0, c => .error ⟨.expectedExpression, c⟩
  | n + 1, c => do
    let (e, c) ← part c
    let c := c.skip
    match c.past? [','], c.past? [close] with
    | some c, _ =>
      let (es, c) ← items close n c
      return (e :: es, c)
    | none, some c => return ([e], c)
    | none, none => .error ⟨.expected close, c⟩

/-- Parts between commas, up to `close`, after the opening bracket. -/
def list (close : Char) (n : Nat) : Parser (List Expr) := fun c =>
  match c.skip.past? [close] with
  | some c => .ok ([], c)
  | none => items part close n c

/-- The parts after each further `..`. -/
def operands : Nat → Parser (List Expr)
  | 0, c => .ok ([], c)
  | n + 1, c =>
    match c.skip.past? ['.', '.'] with
    | none => .ok ([], c)
    | some c => do
      let (e, c) ← part c
      let (es, c) ← operands n c
      return (e :: es, c)

/-- Parts joined by `..`. -/
def chain (n : Nat) : Parser Expr := fun c => do
  let start := c.skip
  let (first, c) ← part start
  let (rest, c) ← operands part n c
  return (.chain (start.spanTo c) first rest, c)

end

/-- The arguments of a call after the name, if there are any: a list in parentheses or one string. -/
def arguments? (expr : Parser Expr) (n : Nat) (c : Cursor) : Except SyntaxFault (Option (List Expr × Cursor)) :=
  let c := c.skip
  match c.rest with
  | '(' :: _ => (list expr ')' n (c.advance ['('])).map some
  | q :: _ => if isQuote q then (string c).map fun (s, c) => some ([.str s], c) else .ok none
  | [] => .ok none

/-! ## Expressions -/

/-- What a name stands for that is followed by no arguments. -/
def constant? : String → Option Expr
  | "nil" => some .nil
  | "true" => some (.bool true)
  | "false" => some (.bool false)
  | _ => none

/-- A literal, a variable, a call, a table or an expression in parentheses. -/
def primary : Nat → Parser Expr
  | 0, c => .error ⟨.expectedExpression, c⟩
  | n + 1, c => do
    let expr := chain (primary n) n
    let c := c.skip
    if let some (x, c) := c.number? then return (.number x, c)
    match c.rest with
    | '{' :: _ =>
      let (es, c) ← list expr '}' n (c.advance ['{'])
      return (.table es, c)
    | '(' :: _ =>
      let (e, c) ← expr (c.advance ['('])
      let c := c.skip
      match c.past? [')'] with
      | some c => return (e, c)
      | none => .error ⟨.expected ')', c⟩
    | q :: _ =>
      if isQuote q then
        let (s, c) ← string c
        return (.str s, c)
      else
        match c.identifier? with
        | none => .error ⟨.expectedExpression, c⟩
        | some (name, after) =>
          match constant? name with
          | some e => return (e, after)
          | none =>
            match ← arguments? expr n after with
            | some (args, d) => return (.call name args (c.spanTo d), d)
            | none => return (.var name (c.spanTo after), after)
    | [] => .error ⟨.expectedExpression, c⟩

/-- An expression in a text of at most `n` characters. -/
def expr (n : Nat) : Parser Expr := chain (primary n) n

/-! ## Statements -/

/-- A statement at its first character, in a text of at most `n` characters. -/
def statement (n : Nat) : Parser Statement := fun c =>
  match c.identifier? with
  | none => .error ⟨.expectedStatement, c⟩
  | some (name, after) =>
    match after.skip.past? ['='] with
    | some d => do
      let (e, d) ← expr n d
      return (.assign name e (c.spanTo d), d)
    | none => do
      match ← arguments? (expr n) n after with
      | some (args, d) => return (.call name args (c.spanTo d), d)
      | none => .error ⟨.expectedStatement, c⟩

/-- Statements to the end of a text of at most `n` characters. -/
def statements : Nat → Cursor → Except SyntaxFault (List Statement)
  | 0, _ => .ok []
  | n + 1, c =>
    let c := c.skip
    if c.rest.isEmpty then .ok []
    else do
      let (s, c) ← statement (n + 1) c
      let ss ← statements n c
      return s :: ss

end Parser

/-- The statements of a source. -/
def parse (src : String) : Except SyntaxFault (List Statement) :=
  Parser.statements (src.toList.length) (Cursor.ofSource src)

end SymbolBridge.Script
