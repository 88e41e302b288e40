import SymbolBridge.Script.Syntax

/-!
# Scripts as trees: nodes and spans

The nodes of an expression are its parts and itself, in post-order: the parts from left to right, each node after its
own parts. What holds of all names, all spans or all calls of a script is stated of its nodes. `mapSpans` changes the
spans and nothing else, so two trees are the same up to spans if `withoutSpans` takes them to one tree.
-/

namespace SymbolBridge.Script

namespace Expr

/-! ## Nodes -/

mutual

/-- The parts of an expression and the expression itself, in post-order. -/
def nodes : Expr → List Expr
  | .nil => [.nil]
  | .bool b => [.bool b]
  | .number n => [.number n]
  | .str s => [.str s]
  | .var name span => [.var name span]
  | .table items => nodesAll items ++ [.table items]
  | .call callee args span => nodesAll args ++ [.call callee args span]
  | .concat left right span => left.nodes ++ right.nodes ++ [.concat left right span]

/-- The nodes of expressions from left to right. -/
def nodesAll : List Expr → List Expr
  | [] => []
  | e :: es => e.nodes ++ nodesAll es

end

/-- The span of a node that has one. -/
def span? : Expr → Option Span
  | .var _ span => some span
  | .call _ _ span => some span
  | .concat _ _ span => some span
  | _ => none

def isCall : Expr → Bool
  | .call .. => true
  | _ => false

theorem mem_nodesAll {x : Expr} : ∀ {es : List Expr}, x ∈ nodesAll es ↔ ∃ e ∈ es, x ∈ e.nodes
  | [] => by simp [nodesAll]
  | e :: es => by simp [nodesAll, @mem_nodesAll x es]

theorem self_mem_nodes (e : Expr) : e ∈ e.nodes := by
  cases e <;> simp [nodes]

mutual

/-- The nodes of a node are nodes. -/
theorem nodes_trans {x y : Expr} (hy : y ∈ x.nodes) : ∀ {e : Expr}, x ∈ e.nodes → y ∈ e.nodes
  | .nil, h | .bool _, h | .number _, h | .str _, h | .var _ _, h => by
    rw [nodes, List.mem_singleton] at h
    rwa [h] at hy
  | .table items, h => by
    rw [nodes, List.mem_append, List.mem_singleton] at h
    rcases h with h | rfl
    · exact List.mem_append_left _ (nodesAll_trans hy h)
    · exact hy
  | .call callee args span, h => by
    rw [nodes, List.mem_append, List.mem_singleton] at h
    rcases h with h | rfl
    · exact List.mem_append_left _ (nodesAll_trans hy h)
    · exact hy
  | .concat left right span, h => by
    rw [nodes, List.mem_append, List.mem_append, List.mem_singleton] at h
    rcases h with (h | h) | rfl
    · exact List.mem_append_left _ (List.mem_append_left _ (nodes_trans hy h))
    · exact List.mem_append_left _ (List.mem_append_right _ (nodes_trans hy h))
    · exact hy

theorem nodesAll_trans {x y : Expr} (hy : y ∈ x.nodes) : ∀ {es : List Expr}, x ∈ nodesAll es → y ∈ nodesAll es
  | [], h => by cases h
  | _ :: _, h => by
    rcases List.mem_append.1 h with h | h
    · exact List.mem_append_left _ (nodes_trans hy h)
    · exact List.mem_append_right _ (nodesAll_trans hy h)

end

/-- The nodes of a chain are those of its parts, and concatenations that have its span. -/
theorem mem_nodes_chain {x : Expr} {span : Span} : ∀ {first : Expr} {rest : List Expr},
    x ∈ (chain span first rest).nodes →
      x ∈ first.nodes ∨ x ∈ nodesAll rest ∨ ∃ left right, x = .concat left right span
  | _, [], h => .inl h
  | first, second :: rest, h => by
    rw [chain, nodes, List.mem_append, List.mem_append, List.mem_singleton] at h
    rcases h with (h | h) | rfl
    · exact .inl h
    · rcases mem_nodes_chain h with h | h | h
      · exact .inr (.inl (List.mem_append_left _ h))
      · exact .inr (.inl (List.mem_append_right _ h))
      · exact .inr (.inr h)
    · exact .inr (.inr ⟨_, _, rfl⟩)

/-- The calls in an expression, each after those in its arguments. -/
def calls (e : Expr) : List Expr := e.nodes.filter isCall

theorem calls_table (items : List Expr) : (Expr.table items).calls = (nodesAll items).filter isCall := by
  simp [calls, nodes, isCall]

theorem calls_call (callee : String) (args : List Expr) (span : Span) :
    (Expr.call callee args span).calls = (nodesAll args).filter isCall ++ [.call callee args span] := by
  simp [calls, nodes, isCall]

theorem calls_concat (left right : Expr) (span : Span) :
    (concat left right span).calls = left.calls ++ right.calls := by
  simp [calls, nodes, isCall]

theorem calls_nodesAll_cons (e : Expr) (es : List Expr) :
    (nodesAll (e :: es)).filter isCall = e.calls ++ (nodesAll es).filter isCall := by
  rw [nodesAll, List.filter_append, calls]

/-! ## Spans -/

mutual

/-- Every span replaced. -/
def mapSpans (f : Span → Span) : Expr → Expr
  | .nil => .nil
  | .bool b => .bool b
  | .number n => .number n
  | .str s => .str s
  | .table items => .table (mapSpansAll f items)
  | .var name span => .var name (f span)
  | .call callee args span => .call callee (mapSpansAll f args) (f span)
  | .concat left right span => .concat (left.mapSpans f) (right.mapSpans f) (f span)

def mapSpansAll (f : Span → Span) : List Expr → List Expr
  | [] => []
  | e :: es => e.mapSpans f :: mapSpansAll f es

end

/-- The expression with every span forgotten. -/
def withoutSpans (e : Expr) : Expr := e.mapSpans fun _ => ⟨0, 0⟩

theorem mapSpansAll_eq_map (f : Span → Span) : ∀ es, mapSpansAll f es = es.map (mapSpans f)
  | [] => rfl
  | e :: es => by rw [mapSpansAll, mapSpansAll_eq_map f es, List.map_cons]

theorem mapSpans_chain (f : Span → Span) (span : Span) : ∀ (first : Expr) (rest : List Expr),
    (chain span first rest).mapSpans f = chain (f span) (first.mapSpans f) (rest.map (mapSpans f))
  | _, [] => rfl
  | first, second :: rest => by
    rw [chain, mapSpans, mapSpans_chain f span second rest]
    rfl

mutual

theorem mapSpans_id : ∀ e : Expr, e.mapSpans id = e
  | .nil | .bool _ | .number _ | .str _ | .var _ _ => rfl
  | .table items => by rw [mapSpans, mapSpansAll_id items]
  | .call callee args span => by rw [mapSpans, mapSpansAll_id args, id]
  | .concat left right span => by rw [mapSpans, mapSpans_id left, mapSpans_id right, id]

theorem mapSpansAll_id : ∀ es, mapSpansAll id es = es
  | [] => rfl
  | e :: es => by rw [mapSpansAll, mapSpans_id e, mapSpansAll_id es]

end

end Expr

namespace Statement

/-- The nodes of the expressions of a statement; a call is one itself. -/
def nodes : Statement → List Expr
  | .assign _ value _ => value.nodes
  | .call callee args span => (Expr.call callee args span).nodes

def calls (s : Statement) : List Expr := s.nodes.filter Expr.isCall

/-- What a statement evaluates. -/
def expr : Statement → Expr
  | .assign _ value _ => value
  | .call callee args span => .call callee args span

theorem nodes_expr (s : Statement) : s.expr.nodes = s.nodes := by
  cases s <;> rfl

/-- The variable that a statement assigns. -/
def assigned? : Statement → Option String
  | .assign name _ _ => some name
  | .call .. => none

def span : Statement → Span
  | .assign _ _ span => span
  | .call _ _ span => span

def mapSpans (f : Span → Span) : Statement → Statement
  | .assign name value span => .assign name (value.mapSpans f) (f span)
  | .call callee args span => .call callee (args.map (Expr.mapSpans f)) (f span)

theorem span_mapSpans (f : Span → Span) (s : Statement) : (s.mapSpans f).span = f s.span := by
  cases s <;> rfl

theorem mapSpans_id : ∀ s : Statement, s.mapSpans id = s
  | .assign name value span => by rw [mapSpans, Expr.mapSpans_id, id]
  | .call callee args span => by rw [mapSpans, ← Expr.mapSpansAll_eq_map, Expr.mapSpansAll_id, id]

def withoutSpans (s : Statement) : Statement := s.mapSpans fun _ => ⟨0, 0⟩

end Statement

end SymbolBridge.Script
