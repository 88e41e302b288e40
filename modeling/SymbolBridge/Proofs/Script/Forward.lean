import SymbolBridge.Proofs.Script.Token

/-!
# Parsers only move forward

A parser that succeeds stops at the cursor it started from or after it, and one that fails points there too.
`c.Yields P r` says this of an outcome `r` at the cursor `c`, with `P` for what is known of its value; it is closed under
running one parser after the other (`Cursor.Yields.bind`). So every fault of a source lies in the source, at the start of
a character or at the end (`reaches_of_parse_error`).
-/

namespace SymbolBridge.Script

variable {α β : Type}

/-- A value with a property, or a fault at the cursor or after it. -/
def Cursor.Yields (c : Cursor) (P : α → Prop) : Except SyntaxFault α → Prop
  | .ok a => P a
  | .error f => c.Reaches f.place

namespace Cursor

variable {c d : Cursor} {P : α → Prop} {Q : β → Prop}

theorem Yields.bind {r : Except SyntaxFault α} {f : α → Except SyntaxFault β} (hr : c.Yields P r)
    (hf : ∀ a, P a → c.Yields Q (f a)) : c.Yields Q (r >>= f) := by
  cases r with
  | error fault => exact hr
  | ok a => exact hf a hr

theorem Yields.map {r : Except SyntaxFault α} {f : α → β} (hr : c.Yields P r) (hf : ∀ a, P a → Q (f a)) :
    c.Yields Q (r.map f) := by
  cases r with
  | error fault => exact hr
  | ok a => exact hf a hr

/-- What a later cursor yields an earlier one yields too. -/
theorem Yields.of_reaches {P' : α → Prop} {r : Except SyntaxFault α} (hr : d.Yields P r) (h : c.Reaches d)
    (hP : ∀ a, P a → P' a) : c.Yields P' r := by
  cases r with
  | error fault => exact h.trans hr
  | ok a => exact hP a hr

end Cursor

namespace Parser

/-- A parser moves forward from every cursor. -/
def Forward (p : Parser α) : Prop := ∀ c : Cursor, c.Yields (fun a => c.Reaches a.2) (p c)

theorem Forward.from {p : Parser α} (hp : p.Forward) {c d : Cursor} (h : c.Reaches d) :
    c.Yields (fun a => c.Reaches a.2) (p d) :=
  (hp d).of_reaches h fun _ => h.trans

open Cursor

/-! ## Strings -/

theorem reaches_of_stringBody_error {quote e : Char} {cs : List Char} {o : Nat} {place : Cursor}
    (h : stringBody quote cs o = .error (.invalidEscape e place)) : (⟨cs, o⟩ : Cursor).Reaches place := by
  have step : ∀ (l : List Char) {cs : List Char} {o : Nat}, (⟨cs, o + Text.byteLength l⟩ : Cursor).Reaches place →
      (⟨l ++ cs, o⟩ : Cursor).Reaches place := fun l _ _ hr => (Spells.reaches ⟨rfl, rfl⟩).trans hr
  have tail : ∀ {r : Except StringFault (List Char × Cursor)} {f : List Char × Cursor → List Char × Cursor},
      r.map f = .error (.invalidEscape e place) → r = .error (.invalidEscape e place) := by
    intro r f h
    cases r with
    | error fault => exact h
    | ok a => cases h
  fun_induction stringBody quote cs o with
  | case1 => cases h
  | case2 => cases h
  | case3 => cases h
  | case4 o e' cs _ _ =>
    cases h
    exact step ['\\'] (.refl _)
  | case5 o e' cs x _ _ ih =>
    refine step ['\\', e'] ?_
    have := ih (tail h)
    rwa [Nat.add_assoc] at this
  | case6 => cases h
  | case7 c cs o _ _ _ ih => exact step [c] (ih (tail h))

theorem forward_string : string.Forward := by
  intro c
  unfold string
  split
  · exact Reaches.refl c
  · rename_i quote cs hr
    have hquote : c.Reaches ⟨cs, c.offset + quote.utf8Size⟩ := Spells.reaches (l := [quote]) ⟨hr, rfl⟩
    split
    · rename_i s d hs
      obtain ⟨l, -, hl⟩ := quoted_of_stringBody hs
      exact hquote.trans hl.reaches
    · exact Reaches.refl c
    · rename_i e place hs
      exact hquote.trans (reaches_of_stringBody_error hs)

/-! ## Lists and chains -/

section

variable {part : Parser Expr} {close : Char} {c : Cursor}

theorem forward_items (hp : part.Forward) : ∀ n, (items part close n).Forward
  | 0, c => Reaches.refl c
  | n + 1, c => by
    refine (hp c).bind fun (e, d) hd => ?_
    dsimp only
    split
    · rename_i k hk
      have hck : c.Reaches k := hd.trans (reaches_of_past? hk)
      exact ((forward_items hp n).from hck).bind fun _ h => h
    · rename_i k _ hk
      exact hd.trans (reaches_of_past? hk)
    · exact hd.trans d.reaches_skip

theorem forward_list (hp : part.Forward) (n : Nat) : (list part close n).Forward := by
  intro c
  unfold list
  split
  · rename_i k hk
    exact reaches_of_past? hk
  · exact forward_items hp n c

theorem forward_operands (hp : part.Forward) : ∀ n, (operands part n).Forward
  | 0, c => Reaches.refl c
  | n + 1, c => by
    unfold operands
    split
    · exact Reaches.refl c
    · rename_i k hk
      refine (hp.from (reaches_of_past? hk)).bind fun (e, m) hm => ?_
      exact ((forward_operands hp n).from hm).bind fun _ h => h

theorem forward_chain (hp : part.Forward) (n : Nat) : (chain part n).Forward := fun c =>
  (hp.from c.reaches_skip).bind fun (_, _) hm => ((forward_operands hp n).from hm).bind fun _ h => h

theorem reaches_advance {x : Char} {cs : List Char} (h : c.rest = x :: cs) : c.Reaches (c.advance [x]) :=
  (spells_advance ⟨cs, h.symm⟩).reaches

/-- Arguments after a name, for a cursor at the name. -/
theorem yields_arguments? (hp : part.Forward) (n : Nat) {k : Cursor} (hk : c.Reaches k) :
    c.Yields (fun r => ∀ a ∈ r, c.Reaches a.2) (arguments? part n k) := by
  have hskip : c.Reaches k.skip := hk.trans k.reaches_skip
  unfold arguments?
  dsimp only
  split
  · rename_i cs hr
    refine ((forward_list hp n).from (hskip.trans (reaches_advance hr))).map fun a ha b hb => ?_
    rwa [← Option.some.inj hb]
  · split
    · refine (forward_string.from hskip).map fun a ha b hb => ?_
      rwa [← Option.some.inj hb]
    · exact fun a ha => nomatch ha
  · exact fun a ha => nomatch ha

end

/-! ## Expressions and statements -/

theorem forward_primary : ∀ n, (primary n).Forward
  | 0, c => Reaches.refl c
  | n + 1, c => by
    have hexpr : (chain (primary n) n).Forward := forward_chain (forward_primary n) n
    unfold primary
    dsimp only
    split
    · rename_i x d hx
      exact c.reaches_skip.trans (number?_eq_some_iff.1 hx).2.2.reaches
    · split
      · rename_i cs hr
        have hk : c.Reaches (c.skip.advance ['{']) := c.reaches_skip.trans (reaches_advance hr)
        exact ((forward_list hexpr n).from hk).bind fun _ h => h
      · rename_i cs hr
        have hk : c.Reaches (c.skip.advance ['(']) := c.reaches_skip.trans (reaches_advance hr)
        refine (hexpr.from hk).bind fun (e, m) hm => ?_
        dsimp only
        split
        · rename_i d hd
          exact hm.trans (reaches_of_past? hd)
        · exact hm.trans m.reaches_skip
      · split
        · exact (forward_string.from c.reaches_skip).bind fun _ h => h
        · split
          · exact c.reaches_skip
          · rename_i name k hname
            have hk : c.Reaches k := reaches_of_identifier? hname
            split
            · exact hk
            · refine (yields_arguments? hexpr n hk).bind fun r hr => ?_
              split
              · exact hr _ rfl
              · exact hk
      · exact c.reaches_skip

theorem forward_expr (n : Nat) : (expr n).Forward := forward_chain (forward_primary n) n

theorem forward_statement (n : Nat) : (statement n).Forward := by
  intro c
  unfold statement
  split
  · exact Reaches.refl c
  · rename_i name k hname
    have hk : c.Reaches k := (identifier?_eq_some_iff.1 hname).2.2.reaches
    split
    · rename_i m hm
      exact ((forward_expr n).from (hk.trans (reaches_of_past? hm))).bind fun _ h => h
    · refine (yields_arguments? (forward_expr n) n hk).bind fun r hr => ?_
      split
      · exact hr _ rfl
      · exact Reaches.refl c

theorem yields_statements : ∀ (n : Nat) (c : Cursor), c.Yields (fun _ => True) (statements n c)
  | 0, _ => trivial
  | n + 1, c => by
    unfold statements
    dsimp only
    split
    · trivial
    · refine ((forward_statement (n + 1)).from c.reaches_skip).bind fun (s, d) hd => ?_
      exact ((yields_statements n d).of_reaches hd fun _ h => h).bind fun _ h => h

end Parser

/-- A fault of a source lies in the source. -/
theorem reaches_of_parse_error {src : String} {fault : SyntaxFault} (h : parse src = .error fault) :
    (Cursor.ofSource src).Reaches fault.place := by
  have hy := Parser.yields_statements src.toList.length (Cursor.ofSource src)
  rwa [show Parser.statements src.toList.length (Cursor.ofSource src) = .error fault from h] at hy

end SymbolBridge.Script
