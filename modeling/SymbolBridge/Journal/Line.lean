import SymbolBridge.Journal.Event
import SymbolBridge.Text.Quoted

/-!
# Lines of the log

An event on one line: its level, where it comes from, its message, and its fields.
-/

namespace SymbolBridge

namespace Field

def toText (f : Field) : String := f.name ++ "=" ++ (if f.quoted then Text.quoted f.text else f.text)

end Field

namespace Event

/-- The event as a line of the log. No character of the message drives a terminal. -/
def line (e : Event) : String :=
  " ".intercalate ((e.level.name ++ " " ++ e.target ++ ": " ++ Text.withoutControls e.message) :: e.fields.map (·.toText))

end Event

end SymbolBridge
