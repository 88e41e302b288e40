import SymbolBridge.Script.Syntax
import SymbolBridge.Text.Utf8

/-!
# Cursors

A cursor is a place in a source: the characters that are left and the bytes before them. Tokens are read as prefixes of
what is left, and `advance` moves over such a prefix.
-/

namespace SymbolBridge.Script

structure Cursor where
  rest : List Char
  offset : Nat
  deriving DecidableEq, Repr

namespace Cursor

/-- The start of a source. -/
def ofSource (src : String) : Cursor := ⟨src.toList, 0⟩

/-- Past `lexeme`, which the rest starts with. -/
def advance (c : Cursor) (lexeme : List Char) : Cursor :=
  ⟨c.rest.drop lexeme.length, c.offset + Text.byteLength lexeme⟩

/-- Past `token`, if the rest starts with it. -/
def past? (c : Cursor) (token : List Char) : Option Cursor :=
  if token.isPrefixOf c.rest then some (c.advance token) else none

/-- The bytes from one cursor to a later one. -/
def spanTo (c d : Cursor) : Span := ⟨c.offset, d.offset⟩

/-- The character at the cursor, or the empty span at the end. -/
def charSpan (c : Cursor) : Span := ⟨c.offset, c.offset + Text.byteLength (c.rest.take 1)⟩

@[simp] theorem rest_advance (c : Cursor) (l : List Char) : (c.advance l).rest = c.rest.drop l.length := rfl

@[simp] theorem offset_advance (c : Cursor) (l : List Char) :
    (c.advance l).offset = c.offset + Text.byteLength l := rfl

theorem rest_past? {c d : Cursor} {token : List Char} (h : c.past? token = some d) : c.rest = token ++ d.rest := by
  unfold past? at h
  split at h
  · rename_i hp
    obtain ⟨t, ht⟩ := List.isPrefixOf_iff_prefix.1 hp
    cases h
    simp [← ht]
  · cases h

end Cursor

end SymbolBridge.Script
