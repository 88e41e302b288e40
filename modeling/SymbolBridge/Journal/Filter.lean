import SymbolBridge.Journal.Event
import SymbolBridge.Text.Pattern
import SymbolBridge.Text.Utf8

/-!
# Which events reach the log

A filter is a list of directives between commas: a level for everything, the beginning of a target, or both as
`target=level`. Between brackets a directive may name a span, to which events never belong, or a field that events must
have; a field with a value belongs to spans too. Of the directives about an event the most specific decides, and the
last of those that are equally specific.
-/

namespace SymbolBridge

/-- The most that is let through: a level and those more severe, or nothing. -/
abbrev LevelLimit := Option Level

namespace LevelLimit

def ofNumber? : Nat → Option LevelLimit
  | 0 => some none
  | 1 => some (some .error)
  | 2 => some (some .warn)
  | 3 => some (some .info)
  | 4 => some (some .debug)
  | 5 => some (some .trace)
  | _ => none

/-- The word of a limit, in letters of either case. -/
def ofWord? (cs : List Char) : Option LevelLimit :=
  match String.ofList (cs.map Char.toLower) with
  | "off" => some none
  | "error" => some (some .error)
  | "warn" => some (some .warn)
  | "info" => some (some .info)
  | "debug" => some (some .debug)
  | "trace" => some (some .trace)
  | _ => none

/-- Digits as a number. -/
def ofDigits? (cs : List Char) : Option LevelLimit :=
  if !cs.isEmpty && cs.all Char.isDigit then ofNumber? (cs.foldl (fun n c => 10 * n + (c.toNat - '0'.toNat)) 0) else none

/-- A limit by its word or its number, in front of which a plus may stand. -/
def ofChars? (cs : List Char) : Option LevelLimit :=
  match cs with
  | '+' :: digits => ofDigits? digits
  | cs => (ofDigits? cs).orElse fun () => ofWord? cs

/-- The limit behind an equals sign; none written is no limit. -/
def ofSuffix? (cs : List Char) : Option LevelLimit := if cs.isEmpty then some (some .trace) else ofChars? cs

def allows (limit : LevelLimit) (level : Level) : Bool := level.rank ≤ (limit.map Level.rank).getD 0

end LevelLimit

/-- What is wrong with a filter. -/
inductive FilterFault where
  | malformed
  /-- A part of a directive would start or end inside a character. -/
  | insideCharacter
  deriving DecidableEq, Repr

structure Directive where
  /-- What the target begins with. -/
  target : Option (List Char) := none
  /-- Whether it is about spans, and so about no event. -/
  spans : Bool := false
  field : Option (List Char) := none
  limit : LevelLimit := some .trace
  deriving DecidableEq, Repr

namespace Directive

/-- Characters that a directive may begin with. -/
def canStart (c : Char) : Bool := Text.isAlphanumeric c || ['-', ':', '_'].contains c

/-! ## Values of fields -/

/-- Whether a text is a number: an integer or a fraction, with an exponent or none, or a word for one that is not
finite. A sign may stand in front. -/
def isNumber (cs : List Char) : Bool :=
  let cs := match cs with
    | '+' :: cs | '-' :: cs => cs
    | cs => cs
  let digits := cs.takeWhile Char.isDigit
  let (places, rest) := match cs.drop digits.length with
    | '.' :: rest => (rest.takeWhile Char.isDigit, rest.dropWhile Char.isDigit)
    | rest => ([], rest)
  ["inf", "infinity", "nan"].contains (String.ofList (cs.map Char.toLower)) ||
    !(digits ++ places).isEmpty && (readExponent? rest).isSome

/-- Whether a field may be asked for a value: a number, or a pattern of its text. -/
def isFieldValue (cs : List Char) : Bool := isNumber cs || Text.Pattern.isPattern cs

/-! ## Reading -/

/-- What a text holds from the byte `start` up to the byte `stop`. -/
def part (raw : List Char) (start stop : Nat) : Except FilterFault (List Char) :=
  match (Text.splitBytes? start raw).bind fun (_, rest) => Text.splitBytes? (stop - start) rest with
  | some (cs, _) => .ok cs
  | none => .error .insideCharacter

/-- The directive with the level that a text holds from the byte `start` on. -/
def limited (d : Directive) (raw : List Char) (start : Nat) : Except FilterFault Directive := do
  match LevelLimit.ofSuffix? (← part raw start (Text.byteLength raw)) with
  | some limit => return { d with limit }
  | none => throw .malformed

/-- The directive with what follows its brackets, from the byte `start` on: nothing, or a level. -/
def closed (d : Directive) (raw : List Char) (start : Nat) : List Char → Except FilterFault Directive
  | [] => .ok d
  | '=' :: _ => d.limited raw (start + 1)
  | _ => .error .malformed

/-- The directive with the field of a text, which the text may ask for a value. -/
def withField (d : Directive) (text : List Char) : Except FilterFault Directive :=
  let value := ((text.dropWhile (· ≠ '=')).drop 1).takeWhile (· ≠ '=')
  if text.isEmpty || !isFieldValue value then .error .malformed
  else .ok { d with spans := d.spans || text.contains '=', field := some (text.takeWhile (· ≠ '=')) }

/-- The directive with what stands between its brackets and after them, from the byte `start` on: a name, a field
between braces or both, and the closing bracket. -/
def bracketed (d : Directive) (raw : List Char) (start : Nat) (trimmed : List Char) : Except FilterFault Directive := do
  let name := trimmed.takeWhile fun c => c ≠ ']' && c ≠ '\x7b'
  let stop := start + Text.byteLength name
  match trimmed.drop name.length with
  | ']' :: rest =>
    let _ ← part raw start stop
    { d with spans := true }.closed raw (stop + 1) rest
  | '\x7b' :: inner =>
    let _ ← part raw start stop
    let field := inner.takeWhile (· ≠ '\x7d')
    let last := stop + 1 + Text.byteLength field
    match inner.drop field.length with
    | '\x7d' :: rest =>
      let d ← { d with spans := !name.isEmpty }.withField (← part raw (stop + 1) last)
      match rest with
      | ']' :: rest => d.closed raw (last + 2) rest
      | _ => throw .malformed
    | _ => throw .malformed
  | _ => throw .malformed

/-- The directive of a text. Its parts are found without the blanks around the text, and then are what stands at these
bytes of the text with its blanks. -/
def ofChars (raw : List Char) : Except FilterFault Directive :=
  match Text.trim raw with
  | [] => .error .malformed
  | '[' :: rest => bracketed {} raw 1 rest
  | c :: cs =>
    if !canStart c then .error .malformed
    else do
      let target := c :: cs.takeWhile fun c => c ≠ '=' && c ≠ '['
      let stop := Text.byteLength target
      match (c :: cs).drop target.length with
      | '[' :: rest => bracketed { target := some (← part raw 0 stop) } raw (stop + 1) rest
      | '=' :: _ => limited { target := some (← part raw 0 stop) } raw (stop + 1)
      | _ =>
        match LevelLimit.ofChars? raw with
        | some limit => return { limit }
        | none => return { target := some raw }

/-! ## Deciding -/

/-- Whether a directive is about an event. -/
def covers (d : Directive) (e : Event) : Bool :=
  !d.spans && (d.target.all (·.isPrefixOf e.target.toList)) && (d.field.all fun f => e.hasField (String.ofList f))

/-- Whether the first of two directives gives way to the second: a longer target is more specific; of equal ones, that with
a field; and of two fields the later one in order. -/
def yields (a b : Directive) : Bool :=
  let m := (a.target.map (·.length + 1)).getD 0
  let n := (b.target.map (·.length + 1)).getD 0
  m < n || (m = n && String.ofList (a.field.getD []) ≤ String.ofList (b.field.getD []))

end Directive

/-- A filter of events. -/
abbrev LogFilter := List Directive

namespace LogFilter

/-- The filter that `n` requests for more output make. -/
def ofVerbosity : Nat → LogFilter
  | 0 => [{ limit := some .warn }]
  | 1 => [{ limit := some .info }]
  | _ => [{ limit := some .debug }]

/-- The filter of a text; one without directives lets errors through. -/
def ofText (text : String) : Except FilterFault LogFilter :=
  match (Text.fields (· = ',') text.toList).mapM Directive.ofChars with
  | .ok [] => .ok [{ limit := some .error }]
  | other => other

/-- The directive that decides about an event. -/
def decisive? (f : LogFilter) (e : Event) : Option Directive :=
  (f.filter (·.covers e)).foldl
    (fun best d =>
      match best with
      | some b => if b.yields d then some d else some b
      | none => some d)
    none

/-- Whether an event reaches the log. -/
def passes (f : LogFilter) (e : Event) : Bool :=
  match f.decisive? e with
  | some d => d.limit.allows e.level
  | none => false

end LogFilter

end SymbolBridge
