import SymbolBridge.Invoke.Width

/-!
# Configurations

Bounds on names, arguments and lines, the decoration of symbols, and the widths of numbers and cells. `Config.check` says
which configurations can do their work.
-/

namespace SymbolBridge

/-- The slots of every native call. -/
def maxSlots : Nat := 15

/-- Which spelling of a name is looked up first. -/
inductive LookupOrder where
  | undecoratedFirst
  | decoratedFirst
  deriving DecidableEq, Repr

structure Config where
  /-- The bytes of a name that take part in a lookup. -/
  maxNameLength : Nat := 127
  /-- The slots that arguments may fill. -/
  maxArguments : Nat := maxSlots
  /-- The character in front of a decorated name, or nothing. -/
  decoration : String := "_"
  lookupOrder : LookupOrder := .undecoratedFirst
  /-- The width of numbers in slots. -/
  numberWidth : Width := .native
  /-- The width of global variables. -/
  variableWidth : Width := .native
  /-- The bytes of prompts and lines, with a terminator. -/
  lineBuffer : Nat := 128
  deriving DecidableEq, Repr

/-- Why a configuration cannot work. -/
inductive ConfigFault where
  | noName
  | tooManyArguments (n : Nat)
  | longDecoration (text : String)
  | smallLineBuffer
  deriving DecidableEq, Repr

def ConfigFault.message : ConfigFault → String
  | noName => "max_name_len must be at least 1"
  | tooManyArguments n => "max_args must be between 0 and " ++ toString maxSlots ++ ", got " ++ toString n
  | longDecoration text => "decoration must be a single character, got '" ++ text ++ "'"
  | smallLineBuffer => "line_buffer must be at least 2 bytes"

inductive ConfigError where
  | invalid (fault : ConfigFault)
  /-- The text is no document of the format, or no configuration. -/
  | malformed
  | unreadable (reason : String)
  deriving DecidableEq, Repr

/-- The error of a configuration, read from a path. -/
def ConfigError.message (path : String) : ConfigError → String
  | invalid fault => "Invalid config: " ++ fault.message
  | malformed => "TOML parse error"
  | unreadable reason => "Failed to read config at " ++ path ++ ": " ++ reason

namespace Config

/-- The character that decorates names. -/
def decorationChar? (c : Config) : Option Char := c.decoration.toList.head?

def check (c : Config) : Except ConfigFault Unit :=
  if c.maxNameLength = 0 then .error .noName
  else if maxSlots < c.maxArguments then .error (.tooManyArguments c.maxArguments)
  else if 1 < c.decoration.length then .error (.longDecoration c.decoration)
  else if c.lineBuffer < 2 then .error .smallLineBuffer
  else .ok ()

end Config

end SymbolBridge
