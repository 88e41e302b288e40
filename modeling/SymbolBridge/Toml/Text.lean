import SymbolBridge.Value.Numeral

/-!
# Texts, numbers, points in time and keys of TOML

Readers of the smallest parts of a document. Each takes the characters from its first one on and gives what it read with
the characters that are left, or nothing. What a configuration has no field for is read as the text it is written with.
-/

namespace SymbolBridge.Toml

/-- A reader of one part of a document. -/
abbrev Reader (α : Type) := List Char → Option (α × List Char)

/-- Reads what `past?` goes past as the text it is written with. -/
def spelled? (past? : List Char → Option (List Char)) : Reader String := fun cs =>
  (past? cs).map fun rest => (String.ofList (cs.take (cs.length - rest.length)), rest)

/-- Past a character. -/
def past? (x : Char) : List Char → Option (List Char)
  | c :: cs => if c = x then some cs else none
  | [] => none

/-! ## Blanks, comments and ends of lines -/

def isSpace (c : Char) : Bool := c = ' ' || c = '\t'

/-- Past spaces and tabs. -/
def skipSpace (cs : List Char) : List Char := cs.dropWhile isSpace

/-- Every character but the control characters; the tab is none of these. -/
def isPlain (c : Char) : Bool := c = '\t' || (' ' ≤ c && c ≠ '\x7f')

/-- Past the end of a line: a line feed, or a carriage return and a line feed. -/
def newline? : List Char → Option (List Char)
  | '\n' :: cs => some cs
  | '\r' :: '\n' :: cs => some cs
  | _ => none

/-- Past blanks and ends of lines. -/
def skipBlankLines : List Char → List Char
  | '\r' :: '\n' :: cs => skipBlankLines cs
  | c :: cs => if isSpace c || c = '\n' then skipBlankLines cs else c :: cs
  | [] => []

/-- Past blanks and a comment. -/
def skipComment (cs : List Char) : List Char :=
  match skipSpace cs with
  | '#' :: cs => cs.dropWhile isPlain
  | cs => cs

/-- Past the rest of a line that holds nothing more. -/
def endOfLine? (cs : List Char) : Option (List Char) :=
  match skipComment cs with
  | [] => some []
  | cs => newline? cs

/-- Past blanks, comments and the ends of lines, in a text of at most `n` characters. -/
def skipLines : Nat → List Char → List Char
  | 0, cs => cs
  | n + 1, cs =>
    match skipSpace cs with
    | [] => []
    | cs => ((endOfLine? cs).map (skipLines n)).getD cs

/-! ## Strings -/

/-- The character of an escape, after its backslash. -/
def escape? : Reader Char
  | 'b' :: cs => some ('\x08', cs)
  | 't' :: cs => some ('\t', cs)
  | 'n' :: cs => some ('\n', cs)
  | 'f' :: cs => some ('\x0c', cs)
  | 'r' :: cs => some ('\r', cs)
  | '"' :: cs => some ('"', cs)
  | '\\' :: cs => some ('\\', cs)
  | 'u' :: cs => if cs.length < 4 then none else (charOfHex? (cs.take 4)).map (·, cs.drop 4)
  | 'U' :: cs => if cs.length < 8 then none else (charOfHex? (cs.take 8)).map (·, cs.drop 8)
  | _ => none

/-- A string with escapes, after its quote, in a text of at most `n` characters. -/
def basicBody : Nat → Reader (List Char)
  | 0, _ => none
  | _ + 1, [] => none
  | n + 1, c :: cs =>
    if c = '"' then some ([], cs)
    else if c = '\\' then do
      let (x, cs) ← escape? cs
      let (s, cs) ← basicBody n cs
      return (x :: s, cs)
    else if isPlain c then (basicBody n cs).map fun (s, cs) => (c :: s, cs)
    else none

/-- A string without escapes, after its quote. -/
def literalBody : Reader (List Char)
  | [] => none
  | c :: cs =>
    if c = '\'' then some ([], cs)
    else if isPlain c then (literalBody cs).map fun (s, cs) => (c :: s, cs)
    else none

/-- The quotes that a string over several lines may end with, from three to five, of which the last three close it. -/
def closing? (quote : Char) (cs : List Char) : Option (List Char × List Char) :=
  let quotes := min (cs.takeWhile (· = quote)).length 5
  if quotes < 3 then none else some (List.replicate (quotes - 3) quote, cs.drop quotes)

/-- Past a line end after a backslash, with all blanks and line ends that follow. -/
def continuation? (cs : List Char) : Option (List Char) := (newline? (skipSpace cs)).map skipBlankLines

/-- A string over several lines, after its opening quotes, in a text of at most `n` characters; `escapes` says whether a
backslash is special. Every line end reads as a line feed. -/
def longBody (quote : Char) (escapes : Bool) : Nat → Reader (List Char)
  | 0, _ => none
  | _ + 1, [] => none
  | n + 1, c :: cs =>
    let next (x : List Char) (cs : List Char) : Option (List Char × List Char) :=
      (longBody quote escapes n cs).map fun (s, cs) => (x ++ s, cs)
    match closing? quote (c :: cs), newline? (c :: cs) with
    | some (last, cs), _ => some (last, cs)
    | none, some cs => next ['\n'] cs
    | none, none =>
      if c = '\\' && escapes then
        match continuation? cs with
        | some cs => next [] cs
        | none => (escape? cs).bind fun (x, cs) => next [x] cs
      else if isPlain c then next [c] cs
      else none

/-- A string of any of the four forms. A line end right after the opening quotes of a long one does not count. -/
def string? : Reader String
  | '"' :: '"' :: '"' :: cs =>
    let cs := (newline? cs).getD cs
    (longBody '"' true cs.length cs).map fun (s, cs) => (String.ofList s, cs)
  | '\'' :: '\'' :: '\'' :: cs =>
    let cs := (newline? cs).getD cs
    (longBody '\'' false cs.length cs).map fun (s, cs) => (String.ofList s, cs)
  | '"' :: cs => (basicBody cs.length cs).map fun (s, cs) => (String.ofList s, cs)
  | '\'' :: cs => (literalBody cs).map fun (s, cs) => (String.ofList s, cs)
  | _ => none

/-! ## Integers -/

/-- Digits, between which single underscores may stand; the first character is a digit. -/
def digits? (isDigit : Char → Bool) : Reader (List Char)
  | [] => none
  | c :: cs =>
    if isDigit c then
      let following := match cs with
        | '_' :: cs => digits? isDigit cs
        | cs => digits? isDigit cs
      some ((following.map fun (ds, cs) => (c :: ds, cs)).getD ([c], cs))
    else none

/-- The value of digits in a base up to sixteen. -/
def valueIn (base : Nat) (ds : List Char) : Nat := ds.foldl (fun n d => n * base + (hexDigit? d).getD 0) 0

/-- A decimal integer without its sign; zero is the only one that starts with a zero. -/
def unsigned? : Reader Nat
  | '0' :: cs => some (0, cs)
  | cs => (digits? Char.isDigit cs).map fun (ds, cs) => (valueIn 10 ds, cs)

/-- An integer in decimal, with a sign or none, or after the mark of another base. -/
def number? : Reader Int
  | '0' :: 'x' :: cs => (digits? isHexDigit cs).map fun (ds, cs) => (↑(valueIn 16 ds), cs)
  | '0' :: 'o' :: cs => (digits? (fun c => '0' ≤ c && c ≤ '7') cs).map fun (ds, cs) => (↑(valueIn 8 ds), cs)
  | '0' :: 'b' :: cs => (digits? (fun c => c = '0' || c = '1') cs).map fun (ds, cs) => (↑(valueIn 2 ds), cs)
  | '-' :: cs => (unsigned? cs).map fun (n, cs) => (-(n : Int), cs)
  | '+' :: cs => (unsigned? cs).map fun (n, cs) => (↑n, cs)
  | cs => (unsigned? cs).map fun (n, cs) => (↑n, cs)

/-- An integer of 64 bits. -/
def integer? (cs : List Char) : Option (Int × List Char) := do
  let (n, cs) ← number? cs
  if fitsInt64 n then return (n, cs) else none

/-! ## Numbers that are no integers -/

/-- Past a sign, if there is one. -/
def skipSign : List Char → List Char
  | '+' :: cs | '-' :: cs => cs
  | cs => cs

/-- Past an exponent, which may start with zeros. -/
def exponent? : List Char → Option (List Char)
  | 'e' :: cs | 'E' :: cs => (digits? Char.isDigit (skipSign cs)).map (·.2)
  | _ => none

/-- Past a number with a fraction, an exponent or both, or one of the names for what is no finite number. -/
def float? (cs : List Char) : Option (List Char) :=
  match skipSign cs with
  | 'i' :: 'n' :: 'f' :: cs | 'n' :: 'a' :: 'n' :: cs => some cs
  | cs => do
    let (_, cs) ← unsigned? cs
    match cs with
    | '.' :: cs =>
      let (_, cs) ← digits? Char.isDigit cs
      return (exponent? cs).getD cs
    | cs => exponent? cs

/-! ## Points in time -/

/-- A number of exactly `k` digits. -/
def fixed? (k : Nat) : Reader Nat := fun cs =>
  let ds := cs.take k
  if ds.length = k && ds.all Char.isDigit then some (valueIn 10 ds, cs.drop k) else none

def daysIn (year month : Nat) : Nat :=
  if month = 2 then
    if year % 4 = 0 && (year % 100 ≠ 0 || year % 400 = 0) then 29 else 28
  else if month ∈ [4, 6, 9, 11] then 30
  else 31

/-- Past a day of the calendar. -/
def date? (cs : List Char) : Option (List Char) := do
  let (year, cs) ← fixed? 4 cs
  let (month, cs) ← fixed? 2 (← past? '-' cs)
  let (day, cs) ← fixed? 2 (← past? '-' cs)
  if 1 ≤ month && month ≤ 12 && 1 ≤ day && day ≤ daysIn year month then return cs else none

/-- Past an hour and a minute. -/
def minute? (cs : List Char) : Option (List Char) := do
  let (hour, cs) ← fixed? 2 cs
  let (minute, cs) ← fixed? 2 (← past? ':' cs)
  if hour ≤ 23 && minute ≤ 59 then return cs else none

/-- Past a time of the day. A minute may have a leap second, and a second any digits after its point. -/
def time? (cs : List Char) : Option (List Char) := do
  let (second, cs) ← fixed? 2 (← past? ':' (← minute? cs))
  if 60 < second then none
  else
    match cs with
    | '.' :: cs => if cs.head?.any Char.isDigit then return cs.dropWhile Char.isDigit else none
    | cs => return cs

/-- Past the offset of a time from the universal one. -/
def offset? : List Char → Option (List Char)
  | 'Z' :: cs | 'z' :: cs => some cs
  | '+' :: cs | '-' :: cs => minute? cs
  | _ => none

/-- Past a date, a time, or both with an offset or without. -/
def moment? (cs : List Char) : Option (List Char) :=
  match date? cs with
  | none => time? cs
  | some cs =>
    match cs with
    | 'T' :: rest | 't' :: rest | ' ' :: rest => some (((time? rest).map fun cs => (offset? cs).getD cs).getD cs)
    | cs => some cs

/-! ## Keys -/

def isBare (c : Char) : Bool := c.isAlphanum || c = '_' || c = '-'

/-- A key in quotes or bare. -/
def simpleKey? (cs : List Char) : Option (String × List Char) :=
  match cs with
  | '"' :: cs => (basicBody cs.length cs).map fun (s, cs) => (String.ofList s, cs)
  | '\'' :: cs => (literalBody cs).map fun (s, cs) => (String.ofList s, cs)
  | cs => if (cs.takeWhile isBare).isEmpty then none else some (String.ofList (cs.takeWhile isBare), cs.dropWhile isBare)

/-- Keys between dots, with blanks around each, in a text of at most `n` characters. -/
def keyPath? : Nat → Reader (List String)
  | 0, _ => none
  | n + 1, cs => do
    let (k, cs) ← simpleKey? (skipSpace cs)
    match skipSpace cs with
    | '.' :: cs =>
      let (ks, cs) ← keyPath? n cs
      return (k :: ks, cs)
    | cs => return ([k], cs)

end SymbolBridge.Toml
