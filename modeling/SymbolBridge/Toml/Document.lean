import SymbolBridge.Dictionary
import SymbolBridge.Toml.Text

/-!
# Documents

A document in TOML is a list of lines, which define a tree of tables. Every value of the format is read; what a value is
good for is up to the reader of the tree.
-/

namespace SymbolBridge.Toml

/-! ## Lines -/

inductive Value where
  | integer (n : Int)
  | float (text : String)
  | boolean (b : Bool)
  /-- A date, a time or both. -/
  | moment (text : String)
  | text (s : String)
  /-- A table within braces, with the path of each of its values. -/
  | inline (entries : List (List String × Value))
  | array (elements : List Value)
  deriving Repr

inductive Line where
  /-- The start of a table. -/
  | header (path : List String)
  /-- The start of the next table of an array. -/
  | element (path : List String)
  | assign (path : List String) (value : Value)
  deriving Repr

/-- The entries of an inline table up to its closing brace, over a reader of values, with at most `n` of them. No path may
lead to another's value or through it. -/
def entries? (value? : Reader Value) : Nat → Reader (List (List String × Value))
  | 0, _ => none
  | n + 1, cs => do
    let (path, cs) ← keyPath? cs.length cs
    match cs with
    | '=' :: cs =>
      let (v, cs) ← value? (skipSpace cs)
      match skipSpace cs with
      | '}' :: cs => return ([(path, v)], cs)
      | ',' :: cs =>
        let (es, cs) ← entries? value? n cs
        if es.any fun (other, _) => path.isPrefixOf other || other.isPrefixOf path then none
        else return ((path, v) :: es, cs)
      | _ => none
    | _ => none

/-- The elements of an array up to its closing bracket, over a reader of values, in a text of at most `n` characters. A
comma may stand after the last of them. -/
def elements? (value? : Reader Value) : Nat → Reader (List Value)
  | 0, _ => none
  | n + 1, cs =>
    match skipLines n cs with
    | ']' :: cs => some ([], cs)
    | cs => do
      let (v, cs) ← value? cs
      match skipLines n cs with
      | ']' :: cs => return ([v], cs)
      | ',' :: cs =>
        let (vs, cs) ← elements? value? n cs
        return (v :: vs, cs)
      | _ => none

/-- A value without parts that is no string. A date or a number that is no integer may start as an integer does. -/
def scalar? : Reader Value
  | 't' :: 'r' :: 'u' :: 'e' :: cs => some (.boolean true, cs)
  | 'f' :: 'a' :: 'l' :: 's' :: 'e' :: cs => some (.boolean false, cs)
  | cs =>
    match spelled? moment? cs, spelled? float? cs with
    | some (s, cs), _ => some (.moment s, cs)
    | none, some (s, cs) => some (.float s, cs)
    | none, none => (integer? cs).map fun (i, cs) => (.integer i, cs)

/-- A value in a text of at most `n` characters. -/
def value? : Nat → Reader Value
  | 0, _ => none
  | n + 1, cs =>
    match string? cs with
    | some (s, cs) => some (.text s, cs)
    | none =>
      match cs with
      | '{' :: cs =>
        match skipSpace cs with
        | '}' :: cs => some (.inline [], cs)
        | cs => (entries? (value? n) n cs).map fun (es, cs) => (.inline es, cs)
      | '[' :: cs => (elements? (value? n) (cs.length + 1) cs).map fun (vs, cs) => (.array vs, cs)
      | cs => scalar? cs

/-- A line that is not blank, with its end. -/
def line? (cs : List Char) : Option (Line × List Char) :=
  match cs with
  | '[' :: '[' :: cs => do
    let (path, cs) ← keyPath? cs.length cs
    match cs with
    | ']' :: ']' :: cs => return (.element path, ← endOfLine? cs)
    | _ => none
  | '[' :: cs => do
    let (path, cs) ← keyPath? cs.length cs
    match cs with
    | ']' :: cs => return (.header path, ← endOfLine? cs)
    | _ => none
  | cs => do
    let (path, cs) ← keyPath? cs.length cs
    match cs with
    | '=' :: cs =>
      let (v, cs) ← value? cs.length (skipSpace cs)
      return (.assign path v, ← endOfLine? cs)
    | _ => none

/-- The lines of a text of at most `n` characters. -/
def lines? : Nat → List Char → Option (List Line)
  | 0, cs => if cs.isEmpty then some [] else none
  | n + 1, cs =>
    match skipSpace cs with
    | [] => some []
    | cs =>
      match endOfLine? cs with
      | some cs => lines? n cs
      | none => do
        let (line, cs) ← line? cs
        return line :: (← lines? n cs)

/-! ## Tables -/

/-- How a table came about. -/
inductive Origin where
  /-- By a header of its own. -/
  | header
  /-- As the parent of a table with a header. -/
  | implied
  /-- By a key with a dot. -/
  | dotted
  deriving DecidableEq, Repr

inductive Node where
  | value (v : Value)
  | table (origin : Origin) (entries : List (String × Node))
  /-- An array of tables, each with a header of its own. -/
  | tables (elements : List (List (String × Node)))
  deriving Repr

/-- The entries of a table. -/
abbrev Entries := List (String × Node)

namespace Entries

open Dictionary (lookupEntry putEntry)

/-- Defines the value of a path. Only tables that dotted keys have made can be extended so. -/
def define (v : Value) : List String → Entries → Option Entries
  | [], _ => none
  | [k], es =>
    match lookupEntry k es with
    | none => some (putEntry k (.value v) es)
    | some _ => none
  | k :: ks, es =>
    match lookupEntry k es with
    | none => (define v ks []).map fun inner => putEntry k (.table .dotted inner) es
    | some (.table .dotted inner) => (define v ks inner).map fun inner => putEntry k (.table .dotted inner) es
    | some _ => none

/-- Changes the last of the tables of an array. -/
def changeLast (change : Entries → Option Entries) (elements : List Entries) : Option (List Entries) := do
  let last ← elements.getLast?
  return elements.dropLast ++ [← change last]

/-- Opens a table at the end of a path, which `openLast` does at the last key. A key before that stands for its table,
which comes to be if there is none, or for the last table of its array. -/
def openPath (openLast : String → Entries → Option Entries) : List String → Entries → Option Entries
  | [], _ => none
  | [k], es => openLast k es
  | k :: ks, es =>
    match lookupEntry k es with
    | none => (openPath openLast ks []).map fun inner => putEntry k (.table .implied inner) es
    | some (.table origin inner) => (openPath openLast ks inner).map fun inner => putEntry k (.table origin inner) es
    | some (.tables elements) =>
      (changeLast (openPath openLast ks) elements).map fun elements => putEntry k (.tables elements) es
    | some (.value _) => none

/-- Opens the table of a header. A table may have one header, which may come after those of its parts. -/
def openTable (k : String) (es : Entries) : Option Entries :=
  match lookupEntry k es with
  | none => some (putEntry k (.table .header []) es)
  | some (.table .implied inner) => some (putEntry k (.table .header inner) es)
  | some _ => none

/-- Opens the next table of an array. -/
def openElement (k : String) (es : Entries) : Option Entries :=
  match lookupEntry k es with
  | none => some (putEntry k (.tables [[]]) es)
  | some (.tables elements) => some (putEntry k (.tables (elements ++ [[]])) es)
  | some _ => none

/-- Changes the table at a path. -/
def within (change : Entries → Option Entries) : List String → Entries → Option Entries
  | [], es => change es
  | k :: ks, es =>
    match lookupEntry k es with
    | some (.table origin inner) => (within change ks inner).map fun inner => putEntry k (.table origin inner) es
    | some (.tables elements) =>
      (changeLast (within change ks) elements).map fun elements => putEntry k (.tables elements) es
    | _ => none

/-- Adds lines to the table at `path`, or to those whose headers are among them. -/
def addLines : List String → Entries → List Line → Option Entries
  | _, es, [] => some es
  | _, es, .header path :: rest => do addLines path (← openPath openTable path es) rest
  | _, es, .element path :: rest => do addLines path (← openPath openElement path es) rest
  | path, es, .assign key v :: rest => do addLines path (← within (define v key) path es) rest

end Entries

/-- The tree of a document. A byte order mark in front does not count. -/
def read? (text : String) : Option Entries := do
  let cs := match text.toList with
    | '\ufeff' :: cs => cs
    | cs => cs
  Entries.addLines [] [] (← lines? cs.length cs)

end SymbolBridge.Toml
