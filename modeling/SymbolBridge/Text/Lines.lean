import SymbolBridge.Text.Utf8

/-!
# Lines
-/

namespace SymbolBridge.Text

/-- The text before the first `sep` and the text after it. -/
def splitAtFirst (sep : Char) (cs : List Char) : Option (List Char × List Char) :=
  match cs.dropWhile (· ≠ sep) with
  | [] => none
  | _ :: rest => some (cs.takeWhile (· ≠ sep), rest)

/-- The lines of a text, the first of which continues the characters `line`, last first. -/
def linesFrom (line : List Char) : List Char → List (List Char)
  | [] => if line.isEmpty then [] else [line.reverse]
  | c :: cs => if c = '\n' then line.reverse :: linesFrom [] cs else linesFrom (c :: line) cs

/-- The texts between the line feeds; after a line feed at the end there is none. -/
def lines (cs : List Char) : List (List Char) := linesFrom [] cs

/-- Without `c`, if it is the last character. -/
def dropLast (c : Char) (cs : List Char) : List Char := if cs.getLast? = some c then cs.dropLast else cs

/-- Without the line feed at the end, and then without the carriage return at the end. -/
def dropLineEnd (cs : List Char) : List Char := dropLast '\r' (dropLast '\n' cs)

end SymbolBridge.Text
