import SymbolBridge.Script.Parser
import SymbolBridge.Script.Position

/-!
# Errors of scripts and how they are shown

A script fails because its text is none, because running it goes wrong, or because its file cannot be read. The first
two point at a span of the source, and a `Diagnostic` shows them there.
-/

namespace SymbolBridge.Script

/-- What goes wrong while a script runs. -/
inductive RuntimeError where
  /-- The callee is a variable that holds no function. -/
  | notCallable (typeName callee : String)
  /-- No builtin has the name. -/
  | unknownFunction (name : String)
  /-- An operand of a concatenation is neither a string nor a number. -/
  | notConcatenable (typeName : String)
  /-- The sink of printed text refuses it. -/
  | outputFailed (reason : String)
  deriving DecidableEq, Repr

def RuntimeError.message : RuntimeError → String
  | notCallable typeName callee => "attempt to call a " ++ typeName ++ " value ('" ++ callee ++ "')"
  | unknownFunction name => "attempt to call unknown function '" ++ name ++ "'"
  | notConcatenable typeName => "attempt to concatenate a " ++ typeName ++ " value"
  | outputFailed reason => "cannot write output: " ++ reason

inductive Error where
  | parse (cause : SyntaxError) (span : Span)
  | runtime (cause : RuntimeError) (span : Span)
  | unreadable (path reason : String)
  deriving DecidableEq, Repr

/-- When a script fails. -/
inductive Phase where
  | parse
  | runtime
  deriving DecidableEq, Repr

def Phase.name : Phase → String
  | parse => "parse error"
  | runtime => "runtime error"

/-- An error at a span of the source. -/
structure Report where
  phase : Phase
  message : String
  span : Span
  deriving DecidableEq, Repr

namespace Error

def ofFault (f : SyntaxFault) : Error := .parse f.cause f.place.charSpan

/-- The error as a report, if it points at the source. -/
def report? : Error → Option Report
  | parse cause span => some ⟨.parse, cause.message, span⟩
  | runtime cause span => some ⟨.runtime, cause.message, span⟩
  | unreadable .. => none

/-- The reason alone. -/
def reason : Error → String
  | parse cause _ => cause.message
  | runtime cause _ => cause.message
  | unreadable _ reason => reason

def message : Error → String
  | parse cause _ => "parse error: " ++ cause.message
  | runtime cause _ => "runtime error: " ++ cause.message
  | unreadable path reason => "cannot read script " ++ path ++ ": " ++ reason

end Error

/-- What a reader is shown of a report. -/
structure Diagnostic where
  headline : String
  help : Option String
  label : String
  offset : Nat
  length : Nat
  deriving DecidableEq, Repr

/-- Advice on a report. -/
def Report.help? (r : Report) : Option String :=
  match r.phase with
  | .parse => none
  | .runtime =>
    if r.message.startsWith "attempt to call unknown function" then
      some "available functions: print, call, getGlobal, setGlobal, readLine"
    else if r.message.startsWith "attempt to concatenate" then some "only strings and numbers can be concatenated"
    else none

/-- The report shown in a source, its span cut to the source. A span that starts inside a character cannot be shown. -/
def Report.diagnostic? (r : Report) (src : String) : Option Diagnostic :=
  let start := min r.span.start src.utf8ByteSize
  (Position.at? src start).map fun p =>
    { headline := r.phase.name ++ " at " ++ p.toText
      help := r.help?
      label := r.message
      offset := start
      length := min r.span.length (src.utf8ByteSize - start) }

/-- The statements of a source, or what is wrong with it. -/
def load (src : String) : Except Error (List Statement) := (parse src).mapError Error.ofFault

end SymbolBridge.Script
