/-!
# Reading files as text
-/

namespace SymbolBridge.Text

/-- Why a file is not there. -/
def noSuchFile : String := "No such file or directory (os error 2)"

/-- Why bytes are no text. -/
def notUtf8 : String := "stream did not contain valid UTF-8"

/-- The bytes of a file, or why they cannot be read. -/
abbrev File := Except String ByteArray

/-- The text in a file. -/
def ofFile (file : File) : Except String String := do
  match String.fromUTF8? (← file) with
  | some text => .ok text
  | none => .error notUtf8

end SymbolBridge.Text
