import SymbolBridge.Config.Basic
import SymbolBridge.Text.Decode
import SymbolBridge.Toml.Document

/-!
# Configurations in TOML

A document may set any of the fields once; the others keep their defaults. Choices are written by name, as a string or
as a table whose only entry has that name and is an empty table or array. What is read is checked before it is used.
-/

namespace SymbolBridge

namespace Toml.Node

/-- A number that is not negative. -/
def natural? : Node → Option Nat
  | .value (.integer n) => if 0 ≤ n then some n.toNat else none
  | _ => none

def text? : Node → Option String
  | .value (.text s) => some s
  | _ => none

/-- Whether a node is a table or an array and holds nothing. -/
def isEmpty : Node → Bool
  | .value (.inline []) | .value (.array []) | .table _ [] | .tables [] => true
  | _ => false

/-- The name of a choice. -/
def choice? : Node → Option String
  | .value (.text s) => some s
  | .value (.inline [([name], v)]) => if (Node.value v).isEmpty then some name else none
  | .table _ [(name, node)] => if node.isEmpty then some name else none
  | _ => none

end Toml.Node

def LookupOrder.ofName? : String → Option LookupOrder
  | "undecorated-first" => some .undecoratedFirst
  | "decorated-first" => some .decoratedFirst
  | _ => none

def LookupOrder.name : LookupOrder → String
  | undecoratedFirst => "undecorated-first"
  | decoratedFirst => "decorated-first"

def Width.ofName? : String → Option Width
  | "native" => some .native
  | "bits32" => some .bits32
  | _ => none

def Width.name : Width → String
  | native => "native"
  | bits32 => "bits32"

namespace Config

/-- Sets the field of a key. -/
def set? (c : Config) (key : String) (node : Toml.Node) : Option Config :=
  match key with
  | "max_name_len" => node.natural?.map fun n => { c with maxNameLength := n }
  | "max_args" => node.natural?.map fun n => { c with maxArguments := n }
  | "decoration" => node.text?.map fun s => { c with decoration := s }
  | "lookup_order" => (node.choice?.bind LookupOrder.ofName?).map fun o => { c with lookupOrder := o }
  | "number_width" => (node.choice?.bind Width.ofName?).map fun w => { c with numberWidth := w }
  | "variable_width" => (node.choice?.bind Width.ofName?).map fun w => { c with variableWidth := w }
  | "line_buffer" => node.natural?.map fun n => { c with lineBuffer := n }
  | _ => none

/-- The configuration that the entries of a document describe. -/
def ofEntries? (es : Toml.Entries) : Option Config := es.foldlM (fun c (key, node) => c.set? key node) {}

/-- The checked configuration of a document. -/
def ofToml (text : String) : Except ConfigError Config :=
  match (Toml.read? text).bind ofEntries? with
  | none => .error .malformed
  | some c =>
    match c.check with
    | .ok () => .ok c
    | .error fault => .error (.invalid fault)

/-- The checked configuration in a file. -/
def ofFile (file : Text.File) : Except ConfigError Config :=
  match Text.ofFile file with
  | .ok text => ofToml text
  | .error reason => .error (.unreadable reason)

end Config

end SymbolBridge
