/-!
# Blank characters

The characters with the property White_Space. Trimming a text and splitting it into words go by this set.
-/

namespace SymbolBridge.Text

/-- The White_Space characters: five controls and the space, next line, no-break space, and the spaces and separators
outside Latin. -/
def blanks : List Char :=
  ['\t', '\n', '\x0b', '\x0c', '\r', ' ', '\x85', '\xa0', '\u1680', '\u2000', '\u2001', '\u2002', '\u2003', '\u2004',
    '\u2005', '\u2006', '\u2007', '\u2008', '\u2009', '\u200a', '\u2028', '\u2029', '\u202f', '\u205f', '\u3000']

def isBlank (c : Char) : Bool := blanks.contains c

/-- Without the blanks at both ends. -/
def trim (cs : List Char) : List Char :=
  ((cs.dropWhile isBlank).reverse.dropWhile isBlank).reverse

/-- The maximal runs of characters for which `sep` fails, of at most `fuel` characters of text. -/
def fieldsAux (sep : Char → Bool) : Nat → List Char → List (List Char)
  | 0, _ => []
  | fuel + 1, cs =>
    match cs.dropWhile sep with
    | [] => []
    | c :: rest =>
      (c :: rest.takeWhile (!sep ·)) :: fieldsAux sep fuel (rest.dropWhile (!sep ·))

/-- The maximal runs of characters for which `sep` fails. -/
def fields (sep : Char → Bool) (cs : List Char) : List (List Char) := fieldsAux sep cs.length cs

/-- The words of a text: its maximal runs of characters that are not blank. -/
def words (cs : List Char) : List (List Char) := fields isBlank cs

end SymbolBridge.Text
