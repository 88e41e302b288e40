import SymbolBridge.Value.Numeral

/-!
# Scripts as trees

A script is a list of statements: assignments and calls. Spans are ranges of bytes in the source.
-/

namespace SymbolBridge.Script

/-- The bytes of the source from `start` up to `stop`. -/
structure Span where
  start : Nat
  stop : Nat
  deriving DecidableEq, Repr

namespace Span

def length (s : Span) : Nat := s.stop - s.start

def isEmpty (s : Span) : Bool := s.start == s.stop

def toText (s : Span) : String := toString s.start ++ ".." ++ toString s.stop

/-- The same range in a source with `n` more bytes in front. -/
def shift (n : Nat) (s : Span) : Span := ⟨s.start + n, s.stop + n⟩

end Span

inductive Expr where
  | nil
  | bool (b : Bool)
  | number (n : Number)
  | str (s : String)
  | table (items : List Expr)
  | var (name : String) (span : Span)
  | call (callee : String) (args : List Expr) (span : Span)
  | concat (left right : Expr) (span : Span)
  deriving Repr

/-- The concatenation of `first` with the rest, nested to the right; every node has the span of the whole. -/
def Expr.chain (span : Span) : Expr → List Expr → Expr
  | first, [] => first
  | first, second :: rest => .concat first (chain span second rest) span

inductive Statement where
  | assign (name : String) (value : Expr) (span : Span)
  | call (callee : String) (args : List Expr) (span : Span)
  deriving Repr

end SymbolBridge.Script
