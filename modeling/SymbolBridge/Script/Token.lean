import SymbolBridge.Script.Cursor

/-!
# Tokens

Blanks, identifiers and numerals are prefixes of the text that is left: `blankPrefix`, `identifierPrefix` and
`numeralPrefix` say which. A string literal is read up to its closing quote by `stringBody`.
-/

namespace SymbolBridge.Script

/-! ## What separates tokens -/

def isLineEnd (c : Char) : Bool := c = '\n' || c = '\r'

/-- White space and the semicolon. -/
def isSeparator (c : Char) : Bool := c = ' ' || c = '\t' || c = '\r' || c = '\n' || c = ';'

/-- A comment starts with two hyphens and runs to the end of the line. A carriage return ends a line only before a
line feed; a text whose first line end is another one starts no comment. -/
def startsComment : List Char → Bool
  | '-' :: '-' :: rest =>
    match rest.dropWhile (!isLineEnd ·) with
    | '\r' :: '\n' :: _ => true
    | '\r' :: _ => false
    | _ => true
  | _ => false

/-- The separators and comments that a text starts with; `comment` says that it starts inside a comment. -/
def blankPrefixFrom (comment : Bool) : List Char → List Char
  | [] => []
  | c :: cs =>
    if comment then c :: blankPrefixFrom (!isLineEnd c) cs
    else if isSeparator c then c :: blankPrefixFrom false cs
    else if startsComment (c :: cs) then c :: blankPrefixFrom true cs
    else []

def blankPrefix (cs : List Char) : List Char := blankPrefixFrom false cs

/-- Past all separators and comments. -/
def Cursor.skip (c : Cursor) : Cursor := c.advance (blankPrefix c.rest)

/-! ## Identifiers -/

def isNameStart (c : Char) : Bool := c.isAlpha || c = '_'

def isNameChar (c : Char) : Bool := c.isAlphanum || c = '_'

/-- The identifier that a text starts with, or nothing. -/
def identifierPrefix : List Char → List Char
  | [] => []
  | c :: cs => if isNameStart c then c :: cs.takeWhile isNameChar else []

def Cursor.identifier? (c : Cursor) : Option (String × Cursor) :=
  match identifierPrefix c.rest with
  | [] => none
  | name => some (String.ofList name, c.advance name)

/-! ## Numerals -/

/-- A point and the digits after it, or nothing. -/
def placesPrefix : List Char → List Char
  | '.' :: cs => if (cs.takeWhile Char.isDigit).isEmpty then [] else '.' :: cs.takeWhile Char.isDigit
  | _ => []

/-- The mark of an exponent, a sign or none, and digits, or nothing. -/
def exponentPrefix : List Char → List Char
  | e :: cs =>
    if e = 'e' ∨ e = 'E' then
      let sign := match cs with
        | '+' :: _ => ['+']
        | '-' :: _ => ['-']
        | _ => []
      let digits := (cs.drop sign.length).takeWhile Char.isDigit
      if digits.isEmpty then [] else e :: sign ++ digits
    else []
  | [] => []

/-- Digits with the places and the exponent that follow, or nothing. -/
def decimalPrefix (cs : List Char) : List Char :=
  let digits := cs.takeWhile Char.isDigit
  if digits.isEmpty then []
  else
    let rest := cs.dropWhile Char.isDigit
    let places := placesPrefix rest
    digits ++ places ++ exponentPrefix (rest.drop places.length)

/-- Hexadecimal digits after `0x` or `0X`, or nothing. -/
def hexPrefix : List Char → List Char
  | '0' :: x :: cs =>
    if (x = 'x' ∨ x = 'X') ∧ !(cs.takeWhile isHexDigit).isEmpty then '0' :: x :: cs.takeWhile isHexDigit else []
  | _ => []

/-- A numeral without its sign, or nothing. -/
def magnitudePrefix (cs : List Char) : List Char :=
  match hexPrefix cs with
  | [] => decimalPrefix cs
  | hex => hex

/-- The numeral that a text starts with, or nothing. -/
def numeralPrefix : List Char → List Char
  | '-' :: cs =>
    match magnitudePrefix cs with
    | [] => []
    | m => '-' :: m
  | cs => magnitudePrefix cs

/-- The number that a text starts with. -/
def Cursor.number? (c : Cursor) : Option (Number × Cursor) :=
  match numeralPrefix c.rest with
  | [] => none
  | numeral => (Number.read? numeral).map (·, c.advance numeral)

/-! ## Strings -/

def isQuote (c : Char) : Bool := c = '"' || c = '\''

/-- The character that a backslash and `c` stand for. -/
def escape? : Char → Option Char
  | 'n' => some '\n'
  | 't' => some '\t'
  | 'r' => some '\r'
  | '0' => some '\x00'
  | '\\' => some '\\'
  | '"' => some '"'
  | '\'' => some '\''
  | _ => none

/-- Why a string literal cannot be read. -/
inductive StringFault where
  /-- A line feed or the end of the source comes before the closing quote. -/
  | unterminated
  /-- The character at the cursor names no escape. -/
  | invalidEscape (c : Char) (place : Cursor)
  deriving DecidableEq, Repr

/-- The characters up to the closing quote, and the place after it; the text starts `offset` bytes into the source. -/
def stringBody (quote : Char) : List Char → Nat → Except StringFault (List Char × Cursor)
  | [], _ => .error .unterminated
  | c :: cs, offset =>
    if c = quote then .ok ([], ⟨cs, offset + c.utf8Size⟩)
    else if c = '\\' then
      match cs with
      | [] => .error .unterminated
      | e :: cs' =>
        match escape? e with
        | none => .error (.invalidEscape e ⟨e :: cs', offset + c.utf8Size⟩)
        | some x => (stringBody quote cs' (offset + c.utf8Size + e.utf8Size)).map fun (s, d) => (x :: s, d)
    else if c = '\n' then .error .unterminated
    else (stringBody quote cs (offset + c.utf8Size)).map fun (s, d) => (c :: s, d)

end SymbolBridge.Script
