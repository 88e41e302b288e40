import SymbolBridge.Text.Alphanumeric
import SymbolBridge.Text.Blank
import SymbolBridge.Value.Numeral

/-!
# Patterns

Which texts are regular expressions: alternatives of literals, classes between brackets, assertions and groups, each of
which may be repeated. `Pattern.depth?` reads such a text and gives how deeply its parts are nested; `Pattern.isPattern`
holds of those that are not nested too deeply.

Patterns match text in UTF-8 and know no properties of characters beyond ASCII. So the classes `\d`, `\s` and `\w`, word
boundaries, and letters of either case need the flag `-u`, and under that flag nothing may match a single byte beyond
ASCII. Counted repetitions and other forms with braces are not patterns here.
-/

namespace SymbolBridge.Text.Pattern

/-! ## Modes -/

/-- The flags in force that decide what is a pattern. -/
structure Mode where
  ignoreCase : Bool := false
  unicode : Bool := true
  /-- Blanks and comments are skipped. -/
  verbose : Bool := false
  deriving DecidableEq, Repr

/-- Past blanks and comments; `comment` says that the text starts inside a comment. -/
def dropRemarks (comment : Bool) : List Char → List Char
  | [] => []
  | c :: cs =>
    if comment then dropRemarks (c ≠ '\n') cs
    else if isBlank c then dropRemarks false cs
    else if c = '#' then dropRemarks true cs
    else c :: cs

namespace Mode

/-- Past what the mode skips. -/
def skip (m : Mode) (cs : List Char) : List Char := if m.verbose then dropRemarks false cs else cs

/-- The next character that counts, where a comment counts from its second character on. -/
def peek (m : Mode) (cs : List Char) : Option Char :=
  if !m.verbose then cs.head?
  else
    match cs.dropWhile isBlank with
    | '#' :: rest => (rest.dropWhile isBlank).head?.or cs.head?
    | rest => rest.head?.or cs.head?

/-- The mode with the flags before a hyphen set and those after it cleared. -/
def withFlags (m : Mode) (flags : List Char) : Mode :=
  let on := flags.takeWhile (· ≠ '-')
  let off := flags.dropWhile (· ≠ '-')
  let flag (c : Char) (old : Bool) : Bool := on.contains c || (!off.contains c && old)
  { ignoreCase := flag 'i' m.ignoreCase
    unicode := flag 'u' m.unicode
    verbose := flag 'x' m.verbose }

end Mode

/-! ## Atoms -/

inductive Atom where
  /-- A character, which `byte` says is written as the number of a byte. -/
  | literal (c : Char) (byte : Bool)
  | anchor
  | boundary
  /-- A class of digits, blanks or word characters. -/
  | family (negated : Bool)
  | dot
  deriving DecidableEq, Repr

namespace Atom

/-- Whether an atom may stand by itself. -/
def allowed (m : Mode) : Atom → Bool
  | literal c byte => if m.unicode then !m.ignoreCase else !(byte && 0x80 ≤ c.toNat)
  | anchor => true
  | boundary => !m.unicode
  | family negated => !m.unicode && !negated
  | dot => m.unicode

/-- Whether an atom may stand in a class. -/
def allowedInClass (m : Mode) : Atom → Bool
  | literal c _ => if m.unicode then !m.ignoreCase else c.toNat < 0x80
  | family negated => !m.unicode && !negated
  | anchor | boundary | dot => false

end Atom

/-- The characters with a meaning of their own somewhere in a pattern. -/
def metaCharacters : List Char := "\\.+*?()|[]\x7b\x7d^$#&-~".toList

/-- Whether a backslash before a character just stands for the character. -/
def isEscapable (c : Char) : Bool :=
  metaCharacters.contains c || (c.toNat < 0x80 && !c.isAlphanum && c ≠ '<' && c ≠ '>')

/-- A number of hexadecimal digits. -/
def hexDigits? (m : Mode) : Nat → List Char → Option (List Char × List Char)
  | 0, cs => some ([], cs)
  | n + 1, cs =>
    match m.skip cs with
    | c :: cs => if isHexDigit c then (hexDigits? m n cs).map fun (ds, cs) => (c :: ds, cs) else none
    | [] => none

/-- What follows a backslash. -/
def escape? (m : Mode) : List Char → Option (Atom × List Char)
  | [] => none
  | c :: cs =>
    let hex (n : Nat) (byte : Bool) : Option (Atom × List Char) := do
      let (ds, cs) ← hexDigits? m n cs
      return (.literal (← charOfHex? ds) byte, cs)
    if isEscapable c then some (.literal c false, cs)
    else
      match c with
      | 'x' => hex 2 true
      | 'u' => hex 4 false
      | 'U' => hex 8 false
      | 'd' | 's' | 'w' => some (.family false, cs)
      | 'D' | 'S' | 'W' => some (.family true, cs)
      | 'a' => some (.literal '\x07' false, cs)
      | 'f' => some (.literal '\x0c' false, cs)
      | 't' => some (.literal '\t' false, cs)
      | 'n' => some (.literal '\n' false, cs)
      | 'r' => some (.literal '\r' false, cs)
      | 'v' => some (.literal '\x0b' false, cs)
      | 'A' | 'z' => some (.anchor, cs)
      | 'b' | 'B' | '<' | '>' => some (.boundary, cs)
      | _ => none

/-! ## Depth -/

/-- The depth of parts side by side. A single part needs no node of its own. -/
def depthOfParts : List Nat → Nat
  | [] => 0
  | [d] => d
  | d :: ds => ds.foldl Nat.max d + 1

/-! ## Classes -/

/-- An open class: the depth of the operands before its last operator, and of the items after it. -/
structure Class where
  left : Option Nat := none
  items : List Nat := []

namespace Class

def depth (k : Class) : Nat :=
  match k.left with
  | none => depthOfParts k.items
  | some l => Nat.max l (depthOfParts k.items) + 1

def push (k : Class) (depth : Nat) : Class := { k with items := depth :: k.items }

/-- The class after an operator. -/
def operate (k : Class) : Class := { left := some k.depth }

end Class

/-- The names of classes of ASCII characters. -/
def asciiClasses : List String :=
  ["alnum", "alpha", "ascii", "blank", "cntrl", "digit", "graph", "lower", "print", "punct", "space", "upper", "word",
    "xdigit"]

/-- A class of ASCII characters by its name, after the bracket: whether it is negated. -/
def asciiClass? : List Char → Option (Bool × List Char)
  | ':' :: cs =>
    let (negated, cs) := match cs with
      | '^' :: cs => (true, cs)
      | cs => (false, cs)
    match cs.dropWhile (· ≠ ':') with
    | ':' :: ']' :: rest =>
      if asciiClasses.contains (String.ofList (cs.takeWhile (· ≠ ':'))) then some (negated, rest) else none
    | _ => none
  | _ => none

/-- Whether a class of ASCII characters may stand in a class. -/
def allowsAsciiClass (m : Mode) (negated : Bool) : Bool := if m.unicode then !m.ignoreCase else !negated

/-- The hyphens at the start of a class, which are literals: how many, of at most `n`, and the rest. -/
def openingHyphens (m : Mode) : Nat → List Char → Nat × List Char
  | 0, cs => (0, cs)
  | n + 1, cs =>
    match m.skip cs with
    | '-' :: cs =>
      let (k, cs) := openingHyphens m n cs
      (k + 1, cs)
    | cs => (0, cs)

/-- The start of a class after its bracket: a negation, hyphens, and if there is none a closing bracket. -/
def openClass? (m : Mode) (cs : List Char) : Option (Class × List Char) :=
  let (negated, cs) := match m.skip cs with
    | '^' :: cs => (true, cs)
    | cs => (false, cs)
  let (hyphens, cs) := openingHyphens m cs.length cs
  let (literals, cs) := match hyphens, cs with
    | 0, ']' :: cs => (1, cs)
    | k, cs => (k, cs)
  if negated && !m.unicode || literals ≠ 0 && !(Atom.literal '-' false).allowedInClass m then none
  else some ({ items := List.replicate literals 0 }, cs)

def classAtom? (m : Mode) : List Char → Option (Atom × List Char)
  | '\\' :: cs => escape? m cs
  | c :: cs => some (.literal c false, cs)
  | [] => none

/-- Past an atom of a class or a range of characters. -/
def classItem? (m : Mode) (cs : List Char) : Option (List Char) := do
  let (first, cs) ← classAtom? m cs
  if !first.allowedInClass m then none
  match m.skip cs with
  | '-' :: rest =>
    if m.peek rest = some ']' || m.peek rest = some '-' then return '-' :: rest
    else
      match first, ← classAtom? m (m.skip rest) with
      | .literal a _, (.literal b byte, rest) =>
        if (Atom.literal b byte).allowedInClass m && a ≤ b then return rest else none
      | _, _ => none
  | cs => return cs

/-- The rest of a class inside the open classes `k :: outer`, of at most `n` items: its depth, and what follows. -/
def class? (m : Mode) : Nat → Class → List Class → List Char → Option (Nat × List Char)
  | 0, _, _, _ => none
  | n + 1, k, outer, cs =>
    match m.skip cs with
    | [] => none
    | '[' :: cs =>
      match asciiClass? cs with
      | some (negated, cs) => if allowsAsciiClass m negated then class? m n (k.push 0) outer cs else none
      | none => do
        let (inner, cs) ← openClass? m cs
        class? m n inner (k :: outer) cs
    | ']' :: cs =>
      match outer with
      | [] => some (k.depth + 1, cs)
      | parent :: outer => class? m n (parent.push (k.depth + 1)) outer cs
    | '&' :: '&' :: cs | '-' :: '-' :: cs | '~' :: '~' :: cs => class? m n k.operate outer cs
    | cs => do class? m n (k.push 0) outer (← classItem? m cs)

/-! ## Groups -/

/-- How a group begins. -/
inductive Opening where
  /-- Flags in parentheses, which hold up to the end of the group around them. -/
  | flags (mode : Mode)
  | group (mode : Mode) (name : Option String)

def isNameStart (c : Char) : Bool := c = '_' || isAlphabetic c

def isNameChar (c : Char) : Bool := ['_', '.', '[', ']'].contains c || isAlphanumeric c

/-- The name of a group and the bracket after it. -/
def groupName? (cs : List Char) : Option (String × List Char) :=
  match cs.takeWhile (· ≠ '>'), cs.dropWhile (· ≠ '>') with
  | c :: name, _ :: rest =>
    if isNameStart c && name.all isNameChar then some (String.ofList (c :: name), rest) else none
  | _, _ => none

/-- Whether flags are written rightly: each once, and a hyphen only before others. -/
def areFlags (flags : List Char) : Bool :=
  flags.all "imsUuRx-".toList.contains && flags.Nodup && flags.getLast? ≠ some '-'

/-- The start of a group after its parenthesis. -/
def openGroup? (m : Mode) (cs : List Char) : Option (Opening × List Char) :=
  match m.skip cs with
  | '?' :: '<' :: '=' :: _ | '?' :: '<' :: '!' :: _ => none
  | '?' :: 'P' :: '<' :: cs | '?' :: '<' :: cs => (groupName? cs).map fun (name, cs) => (.group m (some name), cs)
  | '?' :: cs =>
    let flags := cs.takeWhile fun c => c ≠ ':' && c ≠ ')'
    if !areFlags flags then none
    else
      match cs.drop flags.length with
      | ':' :: rest => some (.group (m.withFlags flags) none, rest)
      | ')' :: rest => if flags.isEmpty then none else some (.flags (m.withFlags flags), rest)
      | _ => none
  | cs => some (.group m none, cs)

/-- An open group, or the whole pattern: the mode in force, the depths of finished alternatives, and the parts of the
current one, last first. Flags are parts without a depth, which cannot be repeated. -/
structure Group where
  mode : Mode := {}
  alternatives : List Nat := []
  parts : List (Option Nat) := []

namespace Group

def push (g : Group) (depth : Nat) : Group := { g with parts := some depth :: g.parts }

/-- The depth of the current alternative. -/
def current (g : Group) : Nat := depthOfParts (g.parts.map (·.getD 0))

def depth (g : Group) : Nat := depthOfParts (g.current :: g.alternatives)

/-- The group after a bar. -/
def alternate (g : Group) : Group := { g with alternatives := g.current :: g.alternatives, parts := [] }

/-- The group with its last part repeated. -/
def repeat? (g : Group) : Option Group :=
  match g.parts with
  | some d :: parts => some { g with parts := some (d + 1) :: parts }
  | _ => none

end Group

/-- Past a question mark, which makes a repetition match as little as it can. -/
def dropLazy : List Char → List Char
  | '?' :: cs => cs
  | cs => cs

def atom? (m : Mode) : List Char → Option (Atom × List Char)
  | '\\' :: cs => escape? m cs
  | '.' :: cs => some (.dot, cs)
  | '^' :: cs | '$' :: cs => some (.anchor, cs)
  | '\x7b' :: _ => none
  | c :: cs => some (.literal c false, cs)
  | [] => none

/-- The depth of a pattern from inside the open groups `g :: outer` on, of at most `n` parts. No name of a group is
among those of the groups before it. -/
def read? : Nat → Group → List Group → List String → List Char → Option Nat
  | 0, _, _, _, _ => none
  | n + 1, g, outer, names, cs =>
    match g.mode.skip cs with
    | [] => if outer.isEmpty then some g.depth else none
    | '(' :: cs => do
      match ← openGroup? g.mode cs with
      | (.flags mode, cs) => read? n { g with mode, parts := none :: g.parts } outer names cs
      | (.group mode none, cs) => read? n { mode } (g :: outer) names cs
      | (.group mode (some name), cs) =>
        if names.contains name then none else read? n { mode } (g :: outer) (name :: names) cs
    | ')' :: cs =>
      match outer with
      | [] => none
      | parent :: outer => read? n (parent.push (g.depth + 1)) outer names cs
    | '|' :: cs => read? n g.alternate outer names cs
    | '[' :: cs => do
      let (k, cs) ← openClass? g.mode cs
      let (depth, cs) ← class? g.mode (cs.length + 1) k [] cs
      read? n (g.push depth) outer names cs
    | '?' :: cs | '*' :: cs | '+' :: cs => do read? n (← g.repeat?) outer names (dropLazy cs)
    | cs => do
      let (atom, cs) ← atom? g.mode cs
      if atom.allowed g.mode then read? n (g.push 0) outer names cs else none

/-- How deeply the parts of a pattern are nested. -/
def depth? (cs : List Char) : Option Nat := read? (cs.length + 1) {} [] [] cs

/-- The deepest nesting of a pattern. -/
def depthLimit : Nat := 250

def isPattern (cs : List Char) : Bool :=
  match depth? cs with
  | some depth => depth ≤ depthLimit
  | none => false

end SymbolBridge.Text.Pattern
