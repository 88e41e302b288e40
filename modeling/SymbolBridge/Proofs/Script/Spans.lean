import SymbolBridge.Proofs.Script.Locality
import SymbolBridge.Proofs.Text.Cut

/-!
# Where the nodes of a script stand

Every node that has a span was read between the two cursors of its span (`Located`). So the spans of a source's
statements follow each other with nothing but blanks around them, the span of a variable holds its name, spans nest as
the nodes do, and the text of a statement or of a call is read as that statement or call alone. `Placed` collects these
facts, and `parse_placed` gives them for every source that parses.
-/

namespace SymbolBridge.Script

open Text (byteLength utf8ByteSize_eq_byteLength)

namespace Span

/-- The text of a span, if the span lies in the source and starts and ends between characters. -/
def slice? (s : Span) (src : String) : Option String :=
  if s.start ≤ s.stop then do
    let (_, rest) ← Text.splitBytes? s.start src.toList
    let (text, _) ← Text.splitBytes? s.length rest
    return String.ofList text
  else none

/-- The second span lies in the first. -/
def Covers (outer inner : Span) : Prop :=
  outer.start ≤ inner.start ∧ inner.start ≤ inner.stop ∧ inner.stop ≤ outer.stop

/-- What lies in a range before, between and after spans. -/
def gaps (start stop : Nat) : List Span → List Span
  | [] => [⟨start, stop⟩]
  | s :: ss => ⟨start, s.start⟩ :: gaps s.stop stop ss

end Span

/-- How the statements of a source stand in it. -/
structure Placed (src : String) (ss : List Statement) : Prop where
  nonempty : ∀ s ∈ ss, s.span.start < s.span.stop
  ordered : ss.Pairwise fun a b => a.span.stop ≤ b.span.start
  /-- What lies around the statements is skipped. -/
  blank : ∀ gap ∈ Span.gaps 0 src.utf8ByteSize (ss.map Statement.span),
    ∃ text, gap.slice? src = some text ∧ (Cursor.ofSource text).skip.rest = []
  /-- The text of a variable is its name. -/
  named : ∀ s ∈ ss, ∀ name span, .var name span ∈ s.nodes → span.slice? src = some name
  /-- The span of a statement covers those of its nodes. -/
  inStatement : ∀ s ∈ ss, ∀ x ∈ s.nodes, ∀ inner, x.span? = some inner → s.span.Covers inner
  /-- The span of a node covers those of the nodes in it. -/
  inNode : ∀ s ∈ ss, ∀ x ∈ s.nodes, ∀ outer, x.span? = some outer →
    ∀ y ∈ x.nodes, ∀ inner, y.span? = some inner → outer.Covers inner
  /-- The text of a statement alone is read as the statement. -/
  alone : ∀ s ∈ ss, ∃ text, s.span.slice? src = some text ∧
    parse text = .ok [s.mapSpans (Span.back s.span.start)]
  /-- The text of a call alone is read as the call. -/
  callAlone : ∀ s ∈ ss, ∀ callee args span, .call callee args span ∈ s.nodes → ∃ text, span.slice? src = some text ∧
    parse text = .ok [(Statement.call callee args span).mapSpans (Span.back span.start)]

open Cursor

/-! ## Where nodes were read -/

section

variable {c d c' d' : Cursor}

theorem ReadsStatement.reaches {s : Statement} (h : ReadsStatement s c d) : c.Reaches d := by
  cases h with
  | @assign _ k m _ _ _ hn hm he =>
    exact ((identifier?_eq_some_iff.1 hn).2.2.reaches.trans (reaches_of_past? hm)).trans he.reaches
  | call hn ha => exact (identifier?_eq_some_iff.1 hn).2.2.reaches.trans ha.reaches

theorem ReadsStatement.span_eq {s : Statement} (h : ReadsStatement s c d) : s.span = c.spanTo d := by
  cases h with
  | assign => rfl
  | call => rfl

/-- A node was read between two cursors: a variable as its name, and a call as the statement it could be. -/
def Located (c d : Cursor) : Expr → Prop
  | .var name span => ∃ k m, c.Reaches k ∧ m.Reaches d ∧ span = k.spanTo m ∧ k.Spells name.toList m
  | .call callee args span => ∃ k m, c.Reaches k ∧ m.Reaches d ∧ span = k.spanTo m ∧
    ReadsStatement (.call callee args span) k m
  | .concat _ _ span => ∃ k m, c.Reaches k ∧ m.Reaches d ∧ span = k.spanTo m ∧ k.Reaches m
  | _ => True

theorem Located.widen {x : Expr} (h : Located c d x) (hc : c'.Reaches c) (hd : d.Reaches d') : Located c' d' x := by
  cases x with
  | var name span =>
    obtain ⟨k, m, hk, hm, h⟩ := h
    exact ⟨k, m, hc.trans hk, hm.trans hd, h⟩
  | call callee args span =>
    obtain ⟨k, m, hk, hm, h⟩ := h
    exact ⟨k, m, hc.trans hk, hm.trans hd, h⟩
  | concat left right span =>
    obtain ⟨k, m, hk, hm, h⟩ := h
    exact ⟨k, m, hc.trans hk, hm.trans hd, h⟩
  | _ => trivial

theorem Located.covers {x : Expr} (h : Located c d x) {span : Span} (hs : x.span? = some span) :
    (c.spanTo d).Covers span := by
  have covers : ∀ {k m : Cursor}, c.Reaches k → k.Reaches m → m.Reaches d → (c.spanTo d).Covers (k.spanTo m) :=
    fun hk hkm hm => ⟨hk.offset_le, hkm.offset_le, hm.offset_le⟩
  cases x with
  | var name span' =>
    cases hs
    obtain ⟨k, m, hk, hm, rfl, h⟩ := h
    exact covers hk h.reaches hm
  | call callee args span' =>
    cases hs
    obtain ⟨k, m, hk, hm, rfl, h⟩ := h
    exact covers hk h.reaches hm
  | concat left right span' =>
    cases hs
    obtain ⟨k, m, hk, hm, rfl, h⟩ := h
    exact covers hk h hm
  | _ => cases hs

theorem located_of_constant? {name : String} {e : Expr} (h : Parser.constant? name = some e) :
    ∀ x ∈ e.nodes, Located c d x := by
  unfold Parser.constant? at h
  split at h <;> cases h <;> exact List.forall_mem_singleton.2 trivial

/-- Every node of a phrase was read between its cursors. -/
theorem Reads.located {p : Phrase} (h : Reads p c d) : ∀ x ∈ p.nodes, Located c d x := by
  induction h with
  | number _ => exact List.forall_mem_singleton.2 trivial
  | string _ => exact List.forall_mem_singleton.2 trivial
  | table hk _ ih =>
    refine List.forall_mem_append.2 ⟨fun x hx => ?_, List.forall_mem_singleton.2 trivial⟩
    exact (ih x hx).widen (reaches_of_past? hk) (.refl _)
  | parens hk _ hd ih => exact fun x hx => (ih x hx).widen (reaches_of_past? hk) (reaches_of_past? hd)
  | constant _ hc => exact located_of_constant? hc
  | @call c k d name args hn hc ha ih =>
    refine List.forall_mem_append.2 ⟨fun x hx => ?_, List.forall_mem_singleton.2 ?_⟩
    · exact (ih x hx).widen (reaches_of_identifier? hn) (.refl _)
    · exact ⟨c.skip, d, c.reaches_skip, .refl _, rfl, .call hn ha⟩
  | @var c d name hn _ _ =>
    exact List.forall_mem_singleton.2
      ⟨c.skip, d, c.reaches_skip, .refl _, rfl, (identifier?_eq_some_iff.1 hn).2.2⟩
  | @chain c m d first rest hf hops ih₁ ih₂ =>
    intro x hx
    rcases Expr.mem_nodes_chain hx with hx | hx | ⟨left, right, rfl⟩
    · exact (ih₁ x hx).widen c.reaches_skip hops.reaches
    · exact (ih₂ x hx).widen (c.reaches_skip.trans hf.reaches) (.refl _)
    · exact ⟨c.skip, d, c.reaches_skip, .refl _, rfl, hf.reaches.trans hops.reaches⟩
  | done _ => exact List.forall_mem_nil _
  | operand hk he hes ih₁ ih₂ =>
    refine List.forall_mem_append.2 ⟨fun x hx => ?_, fun x hx => ?_⟩
    · exact (ih₁ x hx).widen (reaches_of_past? hk) hes.reaches
    · exact (ih₂ x hx).widen ((reaches_of_past? hk).trans he.reaches) (.refl _)
  | last _ hd ih =>
    refine List.forall_mem_append.2 ⟨fun x hx => ?_, List.forall_mem_nil _⟩
    exact (ih x hx).widen (.refl _) (reaches_of_past? hd)
  | more he hk hes ih₁ ih₂ =>
    refine List.forall_mem_append.2 ⟨fun x hx => ?_, fun x hx => ?_⟩
    · exact (ih₁ x hx).widen (.refl _) ((reaches_of_past? hk).trans hes.reaches)
    · exact (ih₂ x hx).widen (he.reaches.trans (reaches_of_past? hk)) (.refl _)
  | empty _ => exact List.forall_mem_nil _
  | items _ ih => exact ih
  | inParens hk _ ih => exact fun x hx => (ih x hx).widen (reaches_of_past? hk) (.refl _)
  | oneString _ => exact List.forall_mem_singleton.2 trivial

/-- The span of every node in a list of nodes covers those of its own nodes. -/
def Nested (xs : List Expr) : Prop :=
  ∀ x ∈ xs, ∀ outer, x.span? = some outer → ∀ y ∈ x.nodes, ∀ inner, y.span? = some inner → outer.Covers inner

theorem Nested.append {xs ys : List Expr} (hx : Nested xs) (hy : Nested ys) : Nested (xs ++ ys) :=
  List.forall_mem_append.2 ⟨hx, hy⟩

theorem nested_of_span?_eq_none {x : Expr} (h : x.span? = none) : Nested [x] := by
  refine List.forall_mem_singleton.2 fun outer ho => ?_
  rw [h] at ho
  cases ho

theorem nested_of_constant? {name : String} {e : Expr} (h : Parser.constant? name = some e) : Nested e.nodes := by
  unfold Parser.constant? at h
  split at h <;> cases h <;> exact nested_of_span?_eq_none rfl

theorem Reads.nested {p : Phrase} (h : Reads p c d) : Nested p.nodes := by
  induction h with
  | number _ => exact nested_of_span?_eq_none rfl
  | string _ => exact nested_of_span?_eq_none rfl
  | table _ _ ih => exact ih.append (nested_of_span?_eq_none rfl)
  | parens _ _ _ ih => exact ih
  | constant _ hc => exact nested_of_constant? hc
  | @call c k d name args hn hc ha ih =>
    refine ih.append (List.forall_mem_singleton.2 fun outer ho y hy inner hi => ?_)
    cases ho
    exact ((reads_primary_skip (.call hn hc ha)).located y hy).covers hi
  | @var c d name hn hc ha =>
    refine List.forall_mem_singleton.2 fun outer ho y hy inner hi => ?_
    cases ho
    exact ((reads_primary_skip (.var hn hc ha)).located y hy).covers hi
  | @chain c m d first rest hf hops ih₁ ih₂ =>
    intro x hx
    rcases Expr.mem_nodes_chain hx with hx' | hx' | ⟨left, right, rfl⟩
    · exact ih₁ x hx'
    · exact ih₂ x hx'
    · intro outer ho y hy inner hi
      cases ho
      exact ((reads_chain_skip (.chain hf hops)).located y (Expr.nodes_trans hy hx)).covers hi
  | done _ => exact List.forall_mem_nil _
  | operand _ _ _ ih₁ ih₂ => exact ih₁.append ih₂
  | last _ _ ih => exact ih.append (List.forall_mem_nil _)
  | more _ _ _ ih₁ ih₂ => exact ih₁.append ih₂
  | empty _ => exact List.forall_mem_nil _
  | items _ ih => exact ih
  | inParens _ _ ih => exact ih
  | oneString _ => exact nested_of_span?_eq_none rfl

theorem ReadsStatement.located {s : Statement} (h : ReadsStatement s c d) : ∀ x ∈ s.nodes, Located c d x := by
  cases h with
  | @assign _ k m _ _ _ hn hm he =>
    have hk := (identifier?_eq_some_iff.1 hn).2.2.reaches
    exact fun x hx => (he.located x hx).widen (hk.trans (reaches_of_past? hm)) (.refl _)
  | call hn ha =>
    refine List.forall_mem_append.2 ⟨fun x hx => ?_, List.forall_mem_singleton.2 ?_⟩
    · exact (ha.located x hx).widen (identifier?_eq_some_iff.1 hn).2.2.reaches (.refl _)
    · exact ⟨c, d, .refl _, .refl _, rfl, .call hn ha⟩

theorem ReadsStatement.nested {s : Statement} (h : ReadsStatement s c d) : Nested s.nodes := by
  cases h with
  | assign _ _ he => exact he.nested
  | call hn ha =>
    refine ha.nested.append (List.forall_mem_singleton.2 fun outer ho y hy inner hi => ?_)
    cases ho
    exact ((ReadsStatement.call hn ha).located y hy).covers hi

end

/-! ## The text between cursors -/

section

variable {src : String} {c d : Cursor} {l : List Char}

theorem byteLength_pos (h : l ≠ []) : 0 < byteLength l := by
  obtain ⟨x, l, rfl⟩ := List.exists_cons_of_ne_nil h
  have := x.utf8Size_pos
  rw [Text.byteLength_cons]
  omega

theorem slice?_spanTo (hc : (ofSource src).Reaches c) (h : c.Spells l d) :
    (c.spanTo d).slice? src = some (String.ofList l) := by
  obtain ⟨l₀, h₀⟩ := hc
  have hsrc : src.toList = l₀ ++ c.rest := h₀.rest
  have hoff : c.offset = byteLength l₀ := h₀.offset.trans (Nat.zero_add _)
  have hlen : (c.spanTo d).length = byteLength l := by
    show d.offset - c.offset = _
    rw [h.offset]
    omega
  have hle : (c.spanTo d).start ≤ (c.spanTo d).stop := h.reaches.offset_le
  rw [Span.slice?, if_pos hle, hlen]
  show (Text.splitBytes? c.offset src.toList).bind _ = _
  rw [hsrc, hoff, Text.splitBytes?_byteLength, Option.bind_some]
  show (Text.splitBytes? (byteLength l) c.rest).bind _ = _
  rw [h.rest, Text.splitBytes?_byteLength]
  rfl

/-- Blanks between two cursors that are skipped on their own too. -/
theorem skipped_gap (hc : (ofSource src).Reaches c) (hb : blankPrefix (blankPrefix c.rest) = blankPrefix c.rest) :
    ∃ text, (c.spanTo c.skip).slice? src = some text ∧ (ofSource text).skip.rest = [] := by
  refine ⟨_, slice?_spanTo hc c.spells_skip, ?_⟩
  rw [Cursor.skip, rest_advance, ofSource, String.toList_ofList, hb, List.drop_length]

end

/-! ## The statements of a source -/

section

variable {src : String} {c d : Cursor}

theorem ReadsStatement.nonempty {s : Statement} (h : ReadsStatement s c d) : s.span.start < s.span.stop := by
  obtain ⟨l, hl⟩ := h.reaches
  have hlt := h.length_lt
  have hne : l ≠ [] := by
    rintro rfl
    have := hl.length
    rw [List.length_nil] at this
    omega
  have hpos := byteLength_pos hne
  rw [h.span_eq]
  show c.offset < d.offset
  rw [hl.offset]
  omega

/-- A statement was read between two cursors that come after a first one. -/
theorem ReadsAll.exists_reads {ss : List Statement} (h : ReadsAll ss c) :
    ∀ s ∈ ss, ∃ k d, c.Reaches k ∧ ReadsStatement s k d := by
  induction h with
  | nil _ => exact List.forall_mem_nil _
  | @cons c d s ss hs _ ih =>
    refine List.forall_mem_cons.2 ⟨⟨c.skip, d, c.reaches_skip, hs⟩, fun s' hs' => ?_⟩
    obtain ⟨k, d', hk, hd⟩ := ih s' hs'
    exact ⟨k, d', (c.reaches_skip.trans hs.reaches).trans hk, hd⟩

theorem ReadsAll.ordered {ss : List Statement} (h : ReadsAll ss c) :
    ss.Pairwise fun a b => a.span.stop ≤ b.span.start := by
  induction h with
  | nil _ => exact .nil
  | cons hs hss ih =>
    refine .cons (fun b hb => ?_) ih
    obtain ⟨k, d', hk, hd⟩ := hss.exists_reads b hb
    rw [hs.span_eq, hd.span_eq]
    exact hk.offset_le

theorem ReadsAll.blank {ss : List Statement} (h : ReadsAll ss c) (hc : (ofSource src).Reaches c) :
    ∀ gap ∈ Span.gaps c.offset src.utf8ByteSize (ss.map Statement.span),
      ∃ text, gap.slice? src = some text ∧ (ofSource text).skip.rest = [] := by
  induction h with
  | @nil c he =>
    -- all that is left is blank, up to the end of the source
    have hend : src.utf8ByteSize = c.skip.offset := by
      obtain ⟨l, hl⟩ := hc.trans c.reaches_skip
      have hsrc : src.toList = l ++ c.skip.rest := hl.rest
      rw [utf8ByteSize_eq_byteLength, hsrc, he, List.append_nil, hl.offset]
      exact (Nat.zero_add _).symm
    have hall := blankPrefix_of_skip he
    rw [hend]
    exact List.forall_mem_singleton.2 (skipped_gap hc (by rw [hall, hall]))
  | @cons c d s ss hs _ ih =>
    have hb := blanks_of_skip hs.rest_ne_nil
    rw [List.map_cons, Span.gaps, hs.span_eq]
    refine List.forall_mem_cons.2 ⟨skipped_gap hc hb.blankPrefix_eq, ?_⟩
    exact ih ((hc.trans c.reaches_skip).trans hs.reaches)

end

/-- **The spans of a source that parses.** Its statements stand in it one after the other with only blanks around them,
every node stands inside the one it belongs to, a variable where its name is; and the text of a statement or of a call
alone parses into it, with the spans counted from its start. -/
theorem parse_placed {src : String} {ss : List Statement} (h : parse src = .ok ss) : Placed src ss := by
  have h := parse_eq_ok_iff.1 h
  -- the text of a statement that was read anywhere in the source
  have alone : ∀ {k d : Cursor} {s : Statement}, (ofSource src).Reaches k → ReadsStatement s k d →
      ∃ text, s.span.slice? src = some text ∧ parse text = .ok [s.mapSpans (Span.back s.span.start)] := by
    intro k d s hk hs
    obtain ⟨l, hl⟩ := hs.reaches
    rw [hs.span_eq]
    exact ⟨_, slice?_spanTo hk hl, hs.parse_alone hl⟩
  refine ⟨fun s hs => ?_, h.ordered, h.blank (.refl _), ?_, ?_, ?_, ?_, ?_⟩
  · obtain ⟨k, d, -, hr⟩ := h.exists_reads s hs
    exact hr.nonempty
  · intro s hs name span hx
    obtain ⟨k, d, hk, hr⟩ := h.exists_reads s hs
    obtain ⟨k', m, hk', -, rfl, hl⟩ := hr.located _ hx
    rw [slice?_spanTo (hk.trans hk') hl, String.ofList_toList]
  · intro s hs x hx inner hi
    obtain ⟨k, d, -, hr⟩ := h.exists_reads s hs
    rw [hr.span_eq]
    exact (hr.located x hx).covers hi
  · intro s hs
    obtain ⟨k, d, -, hr⟩ := h.exists_reads s hs
    exact hr.nested
  · intro s hs
    obtain ⟨k, d, hk, hr⟩ := h.exists_reads s hs
    exact alone hk hr
  · intro s hs callee args span hx
    obtain ⟨k, d, hk, hr⟩ := h.exists_reads s hs
    obtain ⟨k', m, hk', -, rfl, hc⟩ := hr.located _ hx
    exact alone (hk.trans hk') hc

/-- A call with a concatenation, between blanks. -/
theorem placed_call_of_concat :
    parse " f(x .. 1); -- c" =
        .ok [.call "f" [.concat (.var "x" ⟨3, 4⟩) (.number (.int 1)) ⟨3, 9⟩] ⟨1, 10⟩] ∧
      Placed " f(x .. 1); -- c" [.call "f" [.concat (.var "x" ⟨3, 4⟩) (.number (.int 1)) ⟨3, 9⟩] ⟨1, 10⟩] :=
  ⟨rfl, parse_placed rfl⟩

end SymbolBridge.Script
