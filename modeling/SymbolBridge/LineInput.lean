import SymbolBridge.Bridge.Error
import SymbolBridge.Text.Lines

/-!
# Bounded lines of input

A prompt and the line that answers it live in buffers of a fixed size, terminator included, so both are cut to one byte
less. The end of input reads as an empty line.
-/

namespace SymbolBridge

/-- A source of lines shows a prompt and gives the next line, or nothing at the end of input, or fails. -/
abbrev LineSource (σ : Type) := String → StateM σ (Except LineError (Option String))

/-- What is kept of a line: no line end, and what fits in `capacity` bytes. -/
def keptLine (capacity : Nat) (line : String) : String :=
  String.ofList (Text.takeBytes capacity (Text.dropLineEnd line.toList))

/-- Reads a line with buffers of `buffer` bytes. What the source fails with is passed on. -/
def LineSource.readBounded {σ : Type} (read : LineSource σ) (prompt : String) (buffer : Nat) :
    StateM σ (Except LineError String) :=
  if buffer < 2 then pure (.error (.bufferTooSmall buffer))
  else do
    match ← read (Text.truncate (buffer - 1) prompt) with
    | .error cause => pure (.error cause)
    | .ok none => pure (.ok "")
    | .ok (some line) => pure (.ok (keptLine (buffer - 1) line))

/-- Lines waiting to be read, and the prompts shown so far. -/
structure LineQueue where
  lines : List String := []
  prompts : Array String := #[]
  deriving Repr

namespace LineQueue

def read : LineSource LineQueue := fun prompt q =>
  (.ok q.lines.head?, { lines := q.lines.tail, prompts := q.prompts.push prompt })

/-- A source that always fails and shows no prompt. -/
def failing (reason : String) : LineSource LineQueue := fun _ q => (.error (.source reason), q)

end LineQueue

end SymbolBridge
