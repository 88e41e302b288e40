import SymbolBridge.Proofs.Script.Grammar

/-!
# What the parsers give is read

Whatever their bound, the parsers give a phrase between two cursors only if the grammar reads it there: over parsers of
their parts for lists and chains (`reads_of_list`, `reads_of_chain`), then for primaries by induction on the bound
(`reads_of_primary`), and so for the statements of a source (`readsAll_of_statements`).
-/

namespace SymbolBridge.Script

section Sound

variable {part : Parser Expr} {close : Char} {b : Nat}

theorem reads_of_items (hp : ∀ {c e d}, c.rest.length ≤ b → part c = .ok (e, d) → Reads (.chain e) c d) :
    ∀ {n : Nat} {c d : Cursor} {es : List Expr}, c.rest.length ≤ b → Parser.items part close n c = .ok (es, d) →
      Reads (.items close es) c d
  | 0, _, _, _, _, h => by cases h
  | n + 1, c, d, es, hb, h => by
    obtain ⟨⟨e, m⟩, he, h⟩ := bind_eq_ok_iff.1 h
    have he := hp hb he
    dsimp only at h
    split at h
    · rename_i k hk
      obtain ⟨⟨es', d'⟩, hes, h⟩ := bind_eq_ok_iff.1 h
      cases h
      have hkb : k.rest.length ≤ b :=
        Nat.le_trans (Nat.le_of_lt (Cursor.length_lt_of_past? hk)) (Nat.le_trans he.reaches.length_le hb)
      exact .more he hk (reads_of_items hp hkb hes)
    · rename_i k _ hk
      cases h
      exact .last he hk
    · cases h

theorem reads_of_list (hp : ∀ {c e d}, c.rest.length ≤ b → part c = .ok (e, d) → Reads (.chain e) c d) {n : Nat}
    {c d : Cursor} {es : List Expr} (hb : c.rest.length ≤ b) (h : Parser.list part close n c = .ok (es, d)) :
    Reads (.list close es) c d := by
  unfold Parser.list at h
  split at h
  · rename_i k hk
    cases h
    exact .empty hk
  · exact .items (reads_of_items hp hb h)

theorem reads_of_operands (hp : ∀ {c e d}, c.rest.length ≤ b → part c = .ok (e, d) → Reads (.primary e) c d) :
    ∀ {n : Nat} {c d : Cursor} {es : List Expr}, c.rest.length ≤ b → c.rest.length ≤ n →
      Parser.operands part n c = .ok (es, d) → Reads (.operands es) c d
  | 0, c, d, es, _, hn, h => by
    cases h
    refine .done (Option.eq_none_iff_forall_ne_some.2 fun k hk => ?_)
    have := Cursor.length_lt_of_past? hk
    omega
  | n + 1, c, d, es, hb, hn, h => by
    unfold Parser.operands at h
    split at h
    · rename_i hk
      cases h
      exact .done hk
    · rename_i k hk
      obtain ⟨⟨e, m⟩, he, h⟩ := bind_eq_ok_iff.1 h
      obtain ⟨⟨es', d'⟩, hes, h⟩ := bind_eq_ok_iff.1 h
      cases h
      have hlt := Cursor.length_lt_of_past? hk
      have he := hp (by omega) he
      have hle := he.reaches.length_le
      exact .operand hk he (reads_of_operands hp (by omega) (by omega) hes)

theorem reads_of_chain (hp : ∀ {c e d}, c.rest.length ≤ b → part c = .ok (e, d) → Reads (.primary e) c d) {n : Nat}
    {c d : Cursor} {e : Expr} (hb : c.rest.length ≤ b) (hn : c.rest.length ≤ n)
    (h : Parser.chain part n c = .ok (e, d)) : Reads (.chain e) c d := by
  obtain ⟨⟨first, m⟩, hf, h⟩ := bind_eq_ok_iff.1 h
  obtain ⟨⟨rest, d'⟩, hr, h⟩ := bind_eq_ok_iff.1 h
  cases h
  have hle := c.reaches_skip.length_le
  have hf := hp (by omega) hf
  have hle' := hf.reaches.length_le
  exact .chain hf (reads_of_operands hp (by omega) (by omega) hr)

theorem past?_of_rest {c : Cursor} {x : Char} {cs : List Char} (h : c.rest = x :: cs) :
    c.past? [x] = some (c.advance [x]) :=
  Cursor.past?_eq_some_iff.2 (Cursor.spells_advance ⟨cs, h.symm⟩)

theorem reads_of_arguments? (hp : ∀ {c e d}, c.rest.length ≤ b → part c = .ok (e, d) → Reads (.chain e) c d) {n : Nat}
    {c d : Cursor} {es : List Expr} (hb : c.rest.length ≤ b)
    (h : Parser.arguments? part n c = .ok (some (es, d))) : Reads (.arguments es) c d := by
  unfold Parser.arguments? at h
  dsimp only at h
  split at h
  · rename_i cs hr
    obtain ⟨⟨es', d'⟩, hl, h⟩ := map_eq_ok_iff.1 h
    cases h
    have hk := past?_of_rest hr
    have hlt := Cursor.length_lt_of_past? hk
    exact .inParens hk (reads_of_list hp (by omega) hl)
  · rename_i q cs _ hr
    split at h
    · rename_i hq
      obtain ⟨⟨s, d'⟩, hs, h⟩ := map_eq_ok_iff.1 h
      cases h
      exact .oneString ((string_eq_ok_iff hr hq).1 hs)
    · cases h
  · cases h

theorem noArguments_of_arguments? {n : Nat} {c : Cursor} (h : Parser.arguments? part n c = .ok none) :
    c.NoArguments := by
  unfold Parser.arguments? at h
  dsimp only at h
  intro x hx
  split at h
  · obtain ⟨_, _, h⟩ := map_eq_ok_iff.1 h
    cases h
  · rename_i q cs hne hr
    split at h
    · obtain ⟨_, _, h⟩ := map_eq_ok_iff.1 h
      cases h
    · rename_i hq
      rw [hr, List.head?_cons, Option.mem_some_iff] at hx
      subst hx
      exact ⟨hne, Bool.eq_false_iff.2 hq⟩
  · rename_i hr
    rw [hr] at hx
    cases hx

/-- A primary that the parser gives is read. -/
theorem reads_of_primary : ∀ {n : Nat} {c d : Cursor} {e : Expr}, c.rest.length ≤ n →
    Parser.primary n c = .ok (e, d) → Reads (.primary e) c d
  | 0, _, _, _, _, h => by cases h
  | n + 1, c, d, e, hn, h => by
    have hexpr : ∀ {c d : Cursor} {e : Expr}, c.rest.length ≤ n → Parser.chain (Parser.primary n) n c = .ok (e, d) →
        Reads (.chain e) c d := fun hn h => reads_of_chain reads_of_primary hn hn h
    have hle := c.reaches_skip.length_le
    unfold Parser.primary at h
    dsimp only at h
    split at h
    · rename_i x k hx
      cases h
      exact .number hx
    · split at h
      · rename_i cs hr
        obtain ⟨⟨es, k⟩, hl, h⟩ := bind_eq_ok_iff.1 h
        cases h
        have hk := past?_of_rest hr
        have hlt := Cursor.length_lt_of_past? hk
        exact .table hk (reads_of_list hexpr (by omega) hl)
      · rename_i cs hr
        obtain ⟨⟨e', m⟩, he, h⟩ := bind_eq_ok_iff.1 h
        have hk := past?_of_rest hr
        have hlt := Cursor.length_lt_of_past? hk
        dsimp only at h
        split at h
        · rename_i k hd
          cases h
          exact .parens hk (hexpr (by omega) he) hd
        · cases h
      · rename_i q cs _ _ hr
        split at h
        · rename_i hq
          obtain ⟨⟨s, k⟩, hs, h⟩ := bind_eq_ok_iff.1 h
          cases h
          exact .string ((string_eq_ok_iff hr hq).1 hs)
        · split at h
          · cases h
          · rename_i name k hname
            have hlt := Cursor.length_lt_of_skip_identifier? hname
            split at h
            · rename_i e' hc
              cases h
              exact .constant hname hc
            · rename_i hc
              obtain ⟨r, hr, h⟩ := bind_eq_ok_iff.1 h
              split at h
              · cases h
                exact .call hname hc (reads_of_arguments? hexpr (by omega) hr)
              · cases h
                exact .var hname hc (noArguments_of_arguments? hr)
      · cases h

/-- An expression that the parser gives is read. -/
theorem reads_of_expr {n : Nat} {c d : Cursor} {e : Expr} (hn : c.rest.length ≤ n)
    (h : Parser.expr n c = .ok (e, d)) : Reads (.chain e) c d := reads_of_chain reads_of_primary hn hn h

theorem readsStatement_of_statement {n : Nat} {c d : Cursor} {s : Statement} (hn : c.rest.length ≤ n)
    (h : Parser.statement n c = .ok (s, d)) : ReadsStatement s c d := by
  unfold Parser.statement at h
  split at h
  · cases h
  · rename_i name k hname
    have hlt := Cursor.length_lt_of_identifier? hname
    split at h
    · rename_i m hm
      have hlt' := Cursor.length_lt_of_past? hm
      obtain ⟨⟨e, d'⟩, he, h⟩ := bind_eq_ok_iff.1 h
      cases h
      exact .assign hname hm (reads_of_expr (by omega) he)
    · obtain ⟨r, hr, h⟩ := bind_eq_ok_iff.1 h
      split at h
      · cases h
        exact .call hname (reads_of_arguments? reads_of_expr (by omega) hr)
      · cases h

theorem ReadsStatement.length_lt {s : Statement} {c d : Cursor} (h : ReadsStatement s c d) :
    d.rest.length < c.rest.length := by
  cases h with
  | assign hn hm he =>
    have := Cursor.length_lt_of_identifier? hn
    have := Cursor.length_lt_of_past? hm
    have := he.reaches.length_le
    omega
  | call hn ha =>
    have := Cursor.length_lt_of_identifier? hn
    have := ha.reaches.length_le
    omega

theorem readsAll_of_statements : ∀ {n : Nat} {c : Cursor} {ss : List Statement}, c.rest.length ≤ n →
    Parser.statements n c = .ok ss → ReadsAll ss c
  | 0, c, ss, hn, h => by
    cases h
    have := c.reaches_skip.length_le
    exact .nil (List.length_eq_zero_iff.1 (by omega))
  | n + 1, c, ss, hn, h => by
    unfold Parser.statements at h
    dsimp only at h
    split at h
    · rename_i he
      cases h
      exact .nil (List.isEmpty_iff.1 he)
    · obtain ⟨⟨s, d⟩, hs, h⟩ := bind_eq_ok_iff.1 h
      obtain ⟨ss', hss, h⟩ := bind_eq_ok_iff.1 h
      cases h
      have hle := c.reaches_skip.length_le
      have hs := readsStatement_of_statement (by omega) hs
      have hlt := hs.length_lt
      exact .cons hs (readsAll_of_statements (by omega) hss)

end Sound

end SymbolBridge.Script
