/-!
# Escaped text

How texts are shown that may hold characters which are not printed: between quotes with escapes, or plain but for the
controls that drive a terminal.
-/

namespace SymbolBridge.Text

/-- A number in hexadecimal, with small letters. -/
def hexText (n : Nat) : String := String.ofList (Nat.toDigits 16 n)

/-- The control characters: those below the space, delete, and those between ASCII and Latin. -/
def isControl (c : Char) : Bool := c.toNat < 0x20 || (0x7f ≤ c.toNat && c.toNat ≤ 0x9f)

/-- A character between quotes. -/
def quotedChar (c : Char) : String :=
  match c with
  | '"' => "\\\""
  | '\\' => "\\\\"
  | '\n' => "\\n"
  | '\r' => "\\r"
  | '\t' => "\\t"
  | '\x00' => "\\0"
  | c => if isControl c then "\\u\x7b" ++ hexText c.toNat ++ "\x7d" else c.toString

/-- A text between quotes. -/
def quoted (s : String) : String := "\"" ++ String.join (s.toList.map quotedChar) ++ "\""

/-- The controls below the space that a terminal takes as the start of a command or as a change of the screen: bell,
backspace, form feed and escape. -/
def terminalControls : List Char := ['\x07', '\x08', '\x0c', '\x1b']

/-- A character, written out if it drives a terminal. -/
def withoutControl (c : Char) : String :=
  if terminalControls.contains c then (if c.toNat < 0x10 then "\\x0" else "\\x") ++ hexText c.toNat
  else if c = '\x7f' then "\\x7f"
  else if isControl c && 0x80 ≤ c.toNat then "\\u\x7b" ++ hexText c.toNat ++ "\x7d"
  else c.toString

/-- A text with every character that drives a terminal written out. -/
def withoutControls (s : String) : String := String.join (s.toList.map withoutControl)

end SymbolBridge.Text
