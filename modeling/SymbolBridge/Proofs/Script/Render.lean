import SymbolBridge.Proofs.Script.Reread

/-!
# Scripts written out

Writing statements out is an inverse of `parse` up to spans, on all statements whose names are names and that hold no
double (`parse_render`), and `parse` gives no others but for doubles: every name it gives is an identifier, and in an
expression none is a constant (`ReadsAll.wellNamed`).
-/

namespace SymbolBridge.Script

open SymbolBridge.Script.Parser (constant?)
open SymbolBridge.Script.Expr

section

variable {c d : Cursor}

theorem named_of_constant? {name : String} {e : Expr} (h : constant? name = some e) : ∀ x ∈ e.nodes, x.Named := by
  unfold constant? at h
  split at h <;> cases h <;> simp [nodes, Named]

theorem Reads.named {p : Phrase} (h : Reads p c d) : ∀ x ∈ p.nodes, x.Named := by
  induction h with
  | number _ => simp [Phrase.nodes, nodes, Named]
  | string _ => simp [Phrase.nodes, nodes, Named]
  | table _ _ ih =>
    intro x hx
    rw [Phrase.nodes, nodes, List.mem_append, List.mem_singleton] at hx
    rcases hx with hx | rfl
    · exact ih x hx
    · trivial
  | parens _ _ _ ih => exact ih
  | constant _ hc => exact named_of_constant? hc
  | call hn hc _ ih =>
    intro x hx
    rw [Phrase.nodes, nodes, List.mem_append, List.mem_singleton] at hx
    rcases hx with hx | rfl
    · exact ih x hx
    · exact ⟨isIdentifier_of_identifier? hn, constant?_eq_none_iff.1 hc⟩
  | var hn hc _ =>
    intro x hx
    rw [Phrase.nodes, nodes, List.mem_singleton] at hx
    subst hx
    exact ⟨isIdentifier_of_identifier? hn, constant?_eq_none_iff.1 hc⟩
  | chain _ _ ih₁ ih₂ =>
    intro x hx
    rcases mem_nodes_chain hx with hx | hx | ⟨_, _, rfl⟩
    · exact ih₁ x hx
    · exact ih₂ x hx
    · trivial
  | done _ => simp [Phrase.nodes, nodesAll]
  | operand _ _ _ ih₁ ih₂ => exact fun x hx => (List.mem_append.1 hx).elim (ih₁ x) (ih₂ x)
  | last _ _ ih => exact fun x hx => ih x (by simpa [Phrase.nodes, nodesAll] using hx)
  | more _ _ _ ih₁ ih₂ => exact fun x hx => (List.mem_append.1 hx).elim (ih₁ x) (ih₂ x)
  | empty _ => simp [Phrase.nodes, nodesAll]
  | items _ ih => exact ih
  | inParens _ _ ih => exact ih
  | oneString _ => simp [Phrase.nodes, nodesAll, nodes, Named]

theorem ReadsAll.wellNamed {ss : List Statement} (h : ReadsAll ss c) : ∀ s ∈ ss, s.WellNamed := by
  induction h with
  | nil _ => exact fun s hs => by cases hs
  | cons hs _ ih =>
    refine List.forall_mem_cons.2 ⟨?_, ih⟩
    cases hs with
    | assign hn _ he => exact ⟨isIdentifier_of_identifier? hn, he.named⟩
    | call hn ha => exact ⟨isIdentifier_of_identifier? hn, ha.named⟩

end

/-- **Writing out and reading are inverse up to spans.** Statements with good names and without doubles are read back
from their rendering; and all statements that a source is read as have good names, so that they are read back from
their rendering unless they hold a double. -/
theorem parse_render :
    (∀ ss : List Statement, (∀ s ∈ ss, s.WellNamed ∧ s.NoDoubles) →
      ∃ ss', parse (render ss) = .ok ss' ∧ ss'.map Statement.withoutSpans = ss.map Statement.withoutSpans) ∧
    ∀ (src : String) (ss : List Statement), parse src = .ok ss →
      (∀ s ∈ ss, s.WellNamed) ∧
      ((∀ s ∈ ss, s.NoDoubles) →
        ∃ ss', parse (render ss) = .ok ss' ∧ ss'.map Statement.withoutSpans = ss.map Statement.withoutSpans) := by
  have hrender : ∀ ss : List Statement, (∀ s ∈ ss, s.WellNamed ∧ s.NoDoubles) →
      ∃ ss', parse (render ss) = .ok ss' ∧ ss'.map Statement.withoutSpans = ss.map Statement.withoutSpans := by
    intro ss h
    have hrest : (Cursor.ofSource (render ss)).rest = ss.flatMap fun s => s.render ++ ['\n'] := String.toList_ofList
    have hskip := Cursor.skip_of_blankPrefix (c := Cursor.ofSource (render ss))
      (by rw [hrest]; exact (head_lines fun s hs => (h s hs).1).1)
    obtain ⟨ss', hss, hr⟩ := readsAll_render h (hskip.symm ▸ hrest)
    exact ⟨ss', parse_eq_ok_iff.2 hr, hss⟩
  refine ⟨hrender, fun src ss h => ?_⟩
  have hnamed := (parse_eq_ok_iff.1 h).wellNamed
  exact ⟨hnamed, fun hp => hrender ss fun s hs => ⟨hnamed s hs, hp s hs⟩⟩

/-- The layout of a script with a nested concatenation. -/
example : render [.assign "x" (.number (.int (-7))) ⟨0, 0⟩,
    .call "print" [.concat (.var "x" ⟨0, 0⟩) (.str "a\n\"") ⟨0, 0⟩, .table []] ⟨0, 0⟩] =
    "x = -7\nprint((x .. \"a\\n\\\"\"), \x7b\x7d)\n" := by
  decide

end SymbolBridge.Script
