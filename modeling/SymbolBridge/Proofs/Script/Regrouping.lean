import SymbolBridge.Proofs.Script.Evaluation

/-!
# Concatenations and their operands

`Expr.operands` are the operands of a tree of concatenations from left to right, whatever the grouping. A concatenation
succeeds exactly if evaluating them one after the other does and gives strings and numbers only, and then it has done
just that and gives their texts in order (`eval_eq_ok_iff_of_isConcat`). The induction is over the tree (`eval_text_iff`).
What it carries is about the text of a value and not about the value: a single operand may give a number, where a
concatenation gives a string.
-/

namespace SymbolBridge

theorem Value.hasText_iff {v : Value} : v.HasText ↔ v.text? = some v.toText := by
  cases v <;> simp [HasText, text?, toText]

namespace Script

namespace Expr

/-- The operands of a concatenation from left to right. Any other expression is its own only operand. -/
def operands : Expr → List Expr
  | .concat left right _ => left.operands ++ right.operands
  | e => [e]

def IsConcat (e : Expr) : Prop := ∃ left right span, e = .concat left right span

theorem operands_of_not_isConcat {e : Expr} (h : ¬ e.IsConcat) : e.operands = [e] := by
  cases e with
  | concat left right span => exact absurd ⟨left, right, span, rfl⟩ h
  | _ => rfl

/-- The calls of a concatenation are those of its operands. -/
theorem calls_eq_flatMap_operands (e : Expr) : e.calls = e.operands.flatMap calls := by
  induction e using operands.induct with
  | case1 left right span ihl ihr => rw [calls_concat, operands, List.flatMap_append, ← ihl, ← ihr]
  | case2 e he => rw [operands_of_not_isConcat fun ⟨l, r, s, hc⟩ => he l r s hc, List.flatMap_singleton]

end Expr

variable {σ : Type}

theorem operandText_eq_ok_iff {v : Value} {s : String} : operandText v = .ok s ↔ v.HasText ∧ v.toText = s := by
  constructor
  · intro h
    have hv := operandText_eq_ok h
    rw [operandText, Value.hasText_iff.1 hv] at h
    exact ⟨hv, Except.ok.inj h⟩
  · rintro ⟨hv, rfl⟩
    rw [operandText, Value.hasText_iff.1 hv]

theorem atSpan_eq_ok_iff {α : Type} {span : Span} {r : Except RuntimeError α} {a : α} {w w' : World σ} :
    atSpan span r w = (.ok a, w') ↔ r = .ok a ∧ w = w' := by
  constructor
  · intro h
    cases r <;> cases h
    exact ⟨rfl, rfl⟩
  · rintro ⟨rfl, rfl⟩
    rfl

section

variable {b : Bridge σ} {host : Host σ} {vs : Variables} {w w' : World σ}

theorem evalAll_cons_eq_ok_iff {e : Expr} {es : List Expr} {values : List Value} :
    evalAll b host vs (e :: es) w = (.ok values, w') ↔ ∃ v w₁, eval b host vs e w = (.ok v, w₁) ∧
      ∃ us, evalAll b host vs es w₁ = (.ok us, w') ∧ v :: us = values := by
  simp only [evalAll, Op.bind_eq_ok_iff, Op.pure_eq_ok_iff]
  constructor
  · rintro ⟨v, w₁, h, us, _, h', rfl, rfl⟩
    exact ⟨v, w₁, h, us, h', rfl⟩
  · rintro ⟨v, w₁, h, us, h', rfl⟩
    exact ⟨v, w₁, h, us, w', h', rfl, rfl⟩

theorem evalAll_singleton_eq_ok_iff {e : Expr} {values : List Value} :
    evalAll b host vs [e] w = (.ok values, w') ↔ ∃ v, eval b host vs e w = (.ok v, w') ∧ [v] = values := by
  simp only [evalAll, Op.bind_eq_ok_iff, Op.pure_eq_ok_iff]
  constructor
  · rintro ⟨v, _, h, _, _, ⟨rfl, rfl⟩, rfl, rfl⟩
    exact ⟨v, h, rfl⟩
  · rintro ⟨v, h, rfl⟩
    exact ⟨v, w', h, [], w', ⟨rfl, rfl⟩, rfl, rfl⟩

theorem evalAll_append_eq_ok_iff {xs ys : List Expr} {values : List Value} :
    evalAll b host vs (xs ++ ys) w = (.ok values, w') ↔ ∃ us w₁, evalAll b host vs xs w = (.ok us, w₁) ∧
      ∃ ts, evalAll b host vs ys w₁ = (.ok ts, w') ∧ us ++ ts = values := by
  induction xs generalizing w values with
  | nil =>
    constructor
    · exact fun h => ⟨[], w, rfl, values, h, rfl⟩
    · rintro ⟨us, w₁, hnil, ts, h, rfl⟩
      cases hnil
      exact h
  | cons x xs ih =>
    simp only [List.cons_append, evalAll_cons_eq_ok_iff, ih]
    constructor
    · rintro ⟨v, w₁, hx, _, ⟨us, w₂, hxs, ts, hys, rfl⟩, rfl⟩
      exact ⟨v :: us, w₂, ⟨v, w₁, hx, us, hxs, rfl⟩, ts, hys, rfl⟩
    · rintro ⟨_, w₂, ⟨v, w₁, hx, us, hxs, rfl⟩, ts, hys, rfl⟩
      exact ⟨v, w₁, hx, us ++ ts, ⟨us, w₂, hxs, ts, hys, rfl⟩, rfl⟩

theorem eval_concat_eq_ok_iff {left right : Expr} {span : Span} {v : Value} :
    eval b host vs (.concat left right span) w = (.ok v, w') ↔ ∃ x w₁, eval b host vs left w = (.ok x, w₁) ∧
      ∃ y, eval b host vs right w₁ = (.ok y, w') ∧ x.HasText ∧ y.HasText ∧ .str (x.toText ++ y.toText) = v := by
  simp only [eval, Op.bind_eq_ok_iff, Op.pure_eq_ok_iff, atSpan_eq_ok_iff, operandText_eq_ok_iff]
  constructor
  · rintro ⟨x, w₁, hl, y, _, hr, _, _, ⟨⟨hx, rfl⟩, rfl⟩, _, _, ⟨⟨hy, rfl⟩, rfl⟩, rfl, rfl⟩
    exact ⟨x, w₁, hl, y, hr, hx, hy, rfl⟩
  · rintro ⟨x, w₁, hl, y, hr, hx, hy, rfl⟩
    exact ⟨x, w₁, hl, y, w', hr, _, w', ⟨⟨hx, rfl⟩, rfl⟩, _, w', ⟨⟨hy, rfl⟩, rfl⟩, rfl, rfl⟩

/-- All values are strings and numbers, and their texts in order are `s`. -/
def Joins (values : List Value) (s : String) : Prop :=
  (∀ v ∈ values, v.HasText) ∧ String.join (values.map Value.toText) = s

theorem joins_singleton_iff {v : Value} {s : String} : Joins [v] s ↔ v.HasText ∧ v.toText = s := by
  simp [Joins, String.join_cons]

theorem joins_append_iff {us ts : List Value} {s : String} :
    Joins (us ++ ts) s ↔ ∃ s₁ s₂, Joins us s₁ ∧ Joins ts s₂ ∧ s₁ ++ s₂ = s := by
  simp only [Joins, List.forall_mem_append, List.map_append, String.join_append]
  constructor
  · rintro ⟨⟨hus, hts⟩, rfl⟩
    exact ⟨_, _, ⟨hus, rfl⟩, ⟨hts, rfl⟩, rfl⟩
  · rintro ⟨_, _, ⟨hus, rfl⟩, ⟨hts, rfl⟩, rfl⟩
    exact ⟨⟨hus, hts⟩, rfl⟩

/-- An expression has a text exactly if its operands have texts, and it is these. -/
theorem eval_text_iff {e : Expr} {s : String} :
    (∃ v, eval b host vs e w = (.ok v, w') ∧ v.HasText ∧ v.toText = s) ↔
      ∃ values, evalAll b host vs e.operands w = (.ok values, w') ∧ Joins values s := by
  induction e using Expr.operands.induct generalizing w w' s with
  | case1 left right span ihl ihr =>
    constructor
    · rintro ⟨_, h, -, rfl⟩
      obtain ⟨x, w₁, hl, y, hr, hx, hy, rfl⟩ := eval_concat_eq_ok_iff.1 h
      obtain ⟨us, hus, hs⟩ := ihl.1 ⟨x, hl, hx, rfl⟩
      obtain ⟨ts, hts, ht⟩ := ihr.1 ⟨y, hr, hy, rfl⟩
      exact ⟨us ++ ts, evalAll_append_eq_ok_iff.2 ⟨us, w₁, hus, ts, hts, rfl⟩, joins_append_iff.2 ⟨_, _, hs, ht, rfl⟩⟩
    · rintro ⟨values, h, hjoins⟩
      obtain ⟨us, w₁, hus, ts, hts, rfl⟩ := evalAll_append_eq_ok_iff.1 h
      obtain ⟨_, _, hs, ht, rfl⟩ := joins_append_iff.1 hjoins
      obtain ⟨x, hl, hx, rfl⟩ := ihl.2 ⟨us, hus, hs⟩
      obtain ⟨y, hr, hy, rfl⟩ := ihr.2 ⟨ts, hts, ht⟩
      exact ⟨_, eval_concat_eq_ok_iff.2 ⟨x, w₁, hl, y, hr, hx, hy, rfl⟩, .inl ⟨_, rfl⟩, rfl⟩
  | case2 e he =>
    rw [Expr.operands_of_not_isConcat fun ⟨l, r, s, hc⟩ => he l r s hc]
    simp only [evalAll_singleton_eq_ok_iff]
    constructor
    · rintro ⟨v, h, hv⟩
      exact ⟨[v], ⟨v, h, rfl⟩, joins_singleton_iff.2 hv⟩
    · rintro ⟨_, ⟨v, h, rfl⟩, hv⟩
      exact ⟨v, h, joins_singleton_iff.1 hv⟩

/-- A concatenation succeeds exactly if its operands do, one after the other, with strings and numbers only. It gives
their texts in order and does what they do. -/
theorem eval_eq_ok_iff_of_isConcat {e : Expr} (he : e.IsConcat) {v : Value} :
    eval b host vs e w = (.ok v, w') ↔ ∃ values, evalAll b host vs e.operands w = (.ok values, w') ∧
      (∀ x ∈ values, x.HasText) ∧ v = .str (String.join (values.map Value.toText)) := by
  obtain ⟨left, right, span, rfl⟩ := he
  constructor
  · intro h
    obtain ⟨x, w₁, -, y, -, -, -, rfl⟩ := eval_concat_eq_ok_iff.1 h
    obtain ⟨values, hvalues, htext, hs⟩ := eval_text_iff.1 ⟨_, h, .inl ⟨_, rfl⟩, rfl⟩
    exact ⟨values, hvalues, htext, congrArg Value.str hs.symm⟩
  · rintro ⟨values, hvalues, htext, rfl⟩
    obtain ⟨v, h, -, hv⟩ := eval_text_iff.2 ⟨values, hvalues, htext, rfl⟩
    obtain ⟨x, w₁, -, y, -, -, -, rfl⟩ := eval_concat_eq_ok_iff.1 h
    exact hv ▸ h

end

end Script

end SymbolBridge
