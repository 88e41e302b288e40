import SymbolBridge.Proofs.Script.Layout

/-!
# What is written out is read

The layout of an expression whose names are names and that holds no double is read as this expression up to spans, in
front of whatever does not continue it (`reads_render`), and the layout of such statements as these statements
(`readsAll_render`).
-/

namespace SymbolBridge.Script

open SymbolBridge.Script.Parser (constant?)
open SymbolBridge.Script.Expr

section

variable {c d : Cursor}

/-- What a node needs for its layout to be read back. -/
def Expr.Plain (e : Expr) : Prop := e.Named ∧ e.isDouble = false

theorem blankPrefix_identifier {name : String} (h : IsIdentifier name) (r : List Char) :
    blankPrefix (name.toList ++ r) = [] := by
  obtain ⟨x, xs, hs, hx, -⟩ := h
  have hx := isNameStart_iff.2 hx
  rw [hs]
  exact blankPrefix_cons (isSeparator_of_isNameStart hx) (ne_of_isNameStart hx (by decide))

theorem Expr.blankPrefix_render {e : Expr} (h : e.Plain) (r : List Char) : blankPrefix (e.render ++ r) = [] := by
  cases e with
  | nil => exact blankPrefix_cons (by decide) (by decide)
  | bool b => cases b <;> exact blankPrefix_cons (by decide) (by decide)
  | number n =>
    cases n with
    | int n => exact blankPrefix_toText n r
    | float x => cases h.2
  | str s => exact blankPrefix_cons (by decide) (by decide)
  | table items => exact blankPrefix_cons (by decide) (by decide)
  | var name span => exact blankPrefix_identifier h.1.1 r
  | call callee args span =>
    rw [render, List.append_assoc]
    exact blankPrefix_identifier h.1.1 _
  | concat left right span => exact blankPrefix_cons (by decide) (by decide)

/-- Where an expression is written out there are no blanks to skip. -/
theorem Expr.skip_of_spells {e : Expr} (h : e.Plain) (hs : c.Spells e.render d) : c.skip = c :=
  Cursor.skip_of_blankPrefix (by rw [hs.rest]; exact Expr.blankPrefix_render h _)

/-- A constant in front of what does not continue its name. -/
theorem reads_constant {e : Expr} (name : String) (hn : IsIdentifier name) (hc : constant? name = some e)
    (hs : c.skip.Spells name.toList d) (hd : d.Ends) : Reads (.primary e) c d :=
  .constant (identifier?_of_isIdentifier hn hs hd.apart) hc

theorem reads_int {n : Int64} (hs : c.skip.Spells (Number.int n).toText.toList d) (hd : d.Ends) :
    Reads (.primary (.number (.int n))) c d := by
  have hp : numeralPrefix c.skip.rest = (Number.int n).toText.toList := by
    rw [hs.rest]
    exact numeralPrefix_toText n hd.apart
  have hread := Number.read?_toText n
  refine .number (Cursor.number?_eq_some_iff.2 ⟨?_, by rw [hp, hread], by rwa [hp]⟩)
  intro he
  rw [← hp, he] at hread
  cases hread

theorem reads_str {s : String} (hs : c.skip.Spells ('"' :: (s.toList.flatMap escaped ++ ['"'])) d) :
    Reads (.primary (.str s)) c d := .string ⟨'"', _, by decide, quoted_escaped s.toList, hs⟩

/-- A name and arguments that were written out as a list in parentheses. -/
theorem reads_arguments {name : String} {args : List Expr} {k m : Cursor} (hn : IsIdentifier name)
    (hk : c.Spells name.toList k) (hm : k.Spells ['('] m) (ha : Reads (.list ')' args) m d) :
    c.identifier? = some (name, k) ∧ Reads (.arguments args) k d := by
  have hr : k.rest = '(' :: m.rest := hm.rest
  have hskip : k.skip = k := skip_of_cons hr (by decide) (by decide)
  have hapart : Apart k.rest := by
    intro y hy
    rw [hr, List.head?_cons, Option.mem_some_iff] at hy
    subst hy
    decide
  refine ⟨identifier?_of_isIdentifier hn hk hapart, .inParens ?_ ha⟩
  rw [hskip]
  exact Cursor.past?_eq_some_iff.2 hm

theorem reads_var {name : String} (hn : IsReference name) (hs : c.skip.Spells name.toList d) (hd : d.Ends) :
    Reads (.primary (.var name (c.skip.spanTo d))) c d :=
  .var (identifier?_of_isIdentifier hn.1 hs hd.apart) (constant?_eq_none_iff.2 hn.2) hd.noArguments

theorem Cursor.Spells.split_cons {x : Char} {l : List Char} (h : c.Spells (x :: l) d) :
    c.Spells [x] (c.advance [x]) ∧ (c.advance [x]).Spells l d := Cursor.Spells.split (l := [x]) h

theorem skip_of_renderItems {es : List Expr} (h : ∀ x ∈ nodesAll es, x.Plain) {close : Char}
    (hc : close = ')' ∨ close = '}') (hs : c.Spells (renderItems es ++ [close]) d) : c.skip = c := by
  match es with
  | [] => rcases hc with rfl | rfl <;> exact skip_of_cons hs.rest (by decide) (by decide)
  | [e] => exact skip_of_spells (h e (mem_nodesAll.2 ⟨e, by simp, e.self_mem_nodes⟩)) hs.split.1
  | e :: e' :: es =>
    rw [renderItems, List.append_assoc] at hs
    exact skip_of_spells (h e (mem_nodesAll.2 ⟨e, by simp, e.self_mem_nodes⟩)) hs.split.1

/-- A list is empty, or has items. -/
theorem reads_list_of_items {es : List Expr} {close : Char} {k : Cursor} (hk : c.skip = k)
    (hs : k.Spells (renderItems es ++ [close]) d)
    (hi : es ≠ [] → ∃ es', es'.map withoutSpans = es.map withoutSpans ∧ Reads (.items close es') c d) :
    ∃ es', es'.map withoutSpans = es.map withoutSpans ∧ Reads (.list close es') c d := by
  cases es with
  | nil => exact ⟨[], rfl, .empty (Cursor.past?_eq_some_iff.2 (hk ▸ hs))⟩
  | cons e es =>
    obtain ⟨es', he, hr⟩ := hi (List.cons_ne_nil e es)
    exact ⟨es', he, .items hr⟩

/-- Two primaries with `..` between them, in parentheses. -/
theorem reads_concat {left right : Expr} {k m n q : Cursor} (hk : c.skip.past? ['('] = some k)
    (hl : Reads (.primary left) k m) (hn : m.skip.past? ['.', '.'] = some n) (hr : Reads (.primary right) n q)
    (hq : q.Spells [')'] d) : Reads (.primary (.concat left right (k.skip.spanTo q))) c d := by
  have hd : q.skip.past? [')'] = some d := past?_of_mark hq (by decide)
  have hdone : Reads (.operands []) q q := .done (ends_of_mark hq.rest (by decide)).2
  exact .parens hk (.chain (reads_primary_skip hl) (.operand hn hr hdone)) hd

/-- An operand in front of a space and two points. -/
theorem ends_of_dots {m' n : Cursor} (hm : c.Spells [' '] m') (hn : m'.Spells ['.', '.'] n) :
    c.Ends ∧ c.skip.past? ['.', '.'] = some n := by
  have hm' : m'.skip = m' := skip_of_cons hn.rest (by decide) (by decide)
  have hskip : c.skip = m' := by rw [skip_of_separator hm.rest rfl, ← hm.eq_advance, hm']
  refine ⟨ends_of_separator hm.rest (.inl rfl) ?_, ?_⟩
  · intro y hy
    rw [← hm.eq_advance, hm', hn.rest] at hy
    obtain rfl : '.' = y := Option.some.inj hy
    decide
  · rw [hskip]
    exact Cursor.past?_eq_some_iff.2 hn

/-- A space in front of an expression that was written out. -/
theorem skip_of_space {e : Expr} (h : e.Plain) {k : Cursor} (hk : c.Spells [' '] k) (hs : k.Spells e.render d) :
    c.skip = k := by rw [skip_of_separator hk.rest rfl, ← hk.eq_advance, skip_of_spells h hs]

theorem withoutSpans_table (es : List Expr) : (Expr.table es).withoutSpans = .table (es.map withoutSpans) := by
  rw [withoutSpans, mapSpans, mapSpansAll_eq_map]
  rfl

theorem withoutSpans_call (callee : String) (args : List Expr) (span : Span) :
    (Expr.call callee args span).withoutSpans = .call callee (args.map withoutSpans) ⟨0, 0⟩ := by
  rw [withoutSpans, mapSpans, mapSpansAll_eq_map]
  rfl

mutual

/-- An expression that was written out is read back, up to spans. -/
theorem reads_render : ∀ (e : Expr), (∀ x ∈ e.nodes, x.Plain) → ∀ {c k d : Cursor}, c.skip = k →
    k.Spells e.render d → d.Ends → ∃ e', e'.withoutSpans = e.withoutSpans ∧ Reads (.primary e') c d
  | .nil, _, c, _, d, rfl, hs, hd =>
    ⟨_, rfl, reads_constant "nil" (isIdentifier_of_all rfl (by decide) (by decide)) rfl hs hd⟩
  | .bool true, _, c, _, d, rfl, hs, hd =>
    ⟨_, rfl, reads_constant "true" (isIdentifier_of_all rfl (by decide) (by decide)) rfl hs hd⟩
  | .bool false, _, c, _, d, rfl, hs, hd =>
    ⟨_, rfl, reads_constant "false" (isIdentifier_of_all rfl (by decide) (by decide)) rfl hs hd⟩
  | .number (.int n), _, c, _, d, rfl, hs, hd => ⟨_, rfl, reads_int hs hd⟩
  | .number (.float x), h, _, _, _, _, _, _ => by cases (h _ (self_mem_nodes _)).2
  | .str s, _, c, _, d, rfl, hs, _ => ⟨_, rfl, reads_str hs⟩
  | .var name span, h, c, _, d, rfl, hs, hd => by
    refine ⟨_, ?_, reads_var (h _ (self_mem_nodes _)).1 hs hd⟩
    rw [withoutSpans, withoutSpans, mapSpans, mapSpans]
  | .table items, h, c, _, d, rfl, hs, _ => by
    obtain ⟨hk, hs⟩ := hs.split_cons
    have hplain : ∀ x ∈ nodesAll items, x.Plain := fun x hx => h x (by simp [nodes, hx])
    have hskip := skip_of_renderItems hplain (.inr rfl) hs
    obtain ⟨es', he, hr⟩ := reads_list_of_items hskip hs fun hne =>
      reads_renderItems items hne hplain (.inr rfl) hskip hs
    refine ⟨.table es', ?_, .table (Cursor.past?_eq_some_iff.2 hk) hr⟩
    rw [withoutSpans_table, withoutSpans_table, he]
  | .call callee args span, h, c, _, d, rfl, hs, _ => by
    obtain ⟨hk, hs⟩ := hs.split
    obtain ⟨hm, hs⟩ := hs.split_cons
    have hplain : ∀ x ∈ nodesAll args, x.Plain := fun x hx => h x (by simp [nodes, hx])
    have hskip := skip_of_renderItems hplain (.inl rfl) hs
    obtain ⟨es', he, hr⟩ := reads_list_of_items hskip hs fun hne =>
      reads_renderItems args hne hplain (.inl rfl) hskip hs
    obtain ⟨hn, hc⟩ : IsReference callee := (h _ (self_mem_nodes _)).1
    obtain ⟨hn, ha⟩ := reads_arguments hn hk hm hr
    refine ⟨_, ?_, .call hn (constant?_eq_none_iff.2 hc) ha⟩
    rw [withoutSpans_call, withoutSpans_call, he]
  | .concat left right span, h, c, _, d, rfl, hs, _ => by
    obtain ⟨hk, hs⟩ := hs.split_cons
    obtain ⟨hleft, hs⟩ := hs.split
    obtain ⟨hspace, hs⟩ := hs.split_cons
    obtain ⟨hdots, hs⟩ := Cursor.Spells.split (l := ['.', '.']) hs
    obtain ⟨hspace', hs⟩ := hs.split_cons
    obtain ⟨hright, hparen⟩ := hs.split
    have hl : ∀ x ∈ left.nodes, x.Plain := fun x hx => h x (by simp [nodes, hx])
    have hr : ∀ x ∈ right.nodes, x.Plain := fun x hx => h x (by simp [nodes, hx])
    have hskip := skip_of_spells (hl left left.self_mem_nodes) hleft
    have hskip' := skip_of_space (hr right right.self_mem_nodes) hspace' hright
    obtain ⟨hends, hn⟩ := ends_of_dots hspace hdots
    obtain ⟨left', hle, hl'⟩ := reads_render left hl hskip hleft hends
    obtain ⟨right', hre, hr'⟩ := reads_render right hr hskip' hright (ends_of_mark hparen.rest (by decide)).1
    refine ⟨_, ?_, reads_concat (Cursor.past?_eq_some_iff.2 hk) hl' hn hr' hparen⟩
    rw [withoutSpans] at hle hre ⊢
    rw [mapSpans, hle, hre]
    rfl

/-- Expressions that were written out up to a bracket are read back, up to spans. -/
theorem reads_renderItems : ∀ (es : List Expr), es ≠ [] → (∀ x ∈ nodesAll es, x.Plain) →
    ∀ {close : Char} {c k d : Cursor}, close = ')' ∨ close = '}' → c.skip = k →
    k.Spells (renderItems es ++ [close]) d →
    ∃ es', es'.map withoutSpans = es.map withoutSpans ∧ Reads (.items close es') c d
  | [e], _, h, close, c, k, d, hc, hk, hs => by
    obtain ⟨hs, hd⟩ := hs.split
    have he : ∀ x ∈ e.nodes, x.Plain := fun x hx => h x (by simp [nodesAll, hx])
    obtain ⟨hends, hnone⟩ := ends_of_mark hd.rest (.inr hc)
    obtain ⟨e', hee, hr⟩ := reads_render e he hk hs hends
    exact ⟨[e'], by rw [List.map_singleton, hee, List.map_singleton],
      .last (reads_chain_of_primary hr hnone) (past?_of_mark hd (.inr hc))⟩
  | e :: e₂ :: es, _, h, close, c, k, d, hc, hk, hs => by
    rw [renderItems, List.append_assoc] at hs
    obtain ⟨hs, hd⟩ := hs.split
    obtain ⟨hcomma, hd⟩ := hd.split_cons
    obtain ⟨hspace, hd⟩ := hd.split_cons
    have he : ∀ x ∈ e.nodes, x.Plain := fun x hx => h x (by simp [nodesAll, hx])
    have hes : ∀ x ∈ nodesAll (e₂ :: es), x.Plain := fun x hx =>
      h x (by rw [nodesAll]; exact List.mem_append_right _ hx)
    obtain ⟨hends, hnone⟩ := ends_of_mark hcomma.rest (.inl rfl)
    obtain ⟨e', hee, hr⟩ := reads_render e he hk hs hends
    have hskip := skip_of_separator hspace.rest rfl
    rw [← hspace.eq_advance, skip_of_renderItems hes hc hd] at hskip
    obtain ⟨es', hees, hrs⟩ := reads_renderItems (e₂ :: es) (List.cons_ne_nil _ _) hes hc hskip hd
    exact ⟨e' :: es', by rw [List.map_cons, hee, hees]; rfl,
      .more (reads_chain_of_primary hr hnone) (past?_of_mark hcomma (.inl rfl)) hrs⟩

end

/-- A statement that was written out is read back, up to spans. -/
theorem readsStatement_render {s : Statement} (hn : s.WellNamed) (hp : s.NoDoubles) (hs : c.Spells s.render d)
    (hd : d.Ends) (hnone : d.skip.past? ['.', '.'] = none) :
    ∃ s', s'.withoutSpans = s.withoutSpans ∧ ReadsStatement s' c d := by
  cases s with
  | assign name value span =>
    obtain ⟨hk, hs⟩ := Cursor.Spells.split (l := name.toList) hs
    obtain ⟨hspace, hs⟩ := hs.split_cons
    obtain ⟨heq, hs⟩ := hs.split_cons
    obtain ⟨hspace', hs⟩ := hs.split_cons
    have hplain : ∀ x ∈ value.nodes, x.Plain := fun x hx => ⟨hn.2 x hx, hp x hx⟩
    have hapart : Apart (c.advance name.toList).rest := by
      intro y hy
      rw [hspace.rest] at hy
      obtain rfl : ' ' = y := Option.some.inj hy
      decide
    have hm : (c.advance name.toList).skip = (c.advance name.toList).advance [' '] := by
      rw [skip_of_separator hspace.rest rfl]
      exact skip_of_cons heq.rest (by decide) (by decide)
    have hskip := skip_of_space (hplain value value.self_mem_nodes) hspace' hs
    obtain ⟨value', hv, hr⟩ := reads_render value hplain hskip hs hd
    refine ⟨_, ?_, .assign (identifier?_of_isIdentifier hn.1 hk hapart)
      (by rw [hm]; exact Cursor.past?_eq_some_iff.2 heq) (reads_chain_of_primary hr hnone)⟩
    rw [withoutSpans] at hv
    rw [Statement.withoutSpans, Statement.withoutSpans, Statement.mapSpans, hv]
    rfl
  | call callee args span =>
    obtain ⟨hk, hs⟩ := Cursor.Spells.split (l := callee.toList) hs
    obtain ⟨hm, hs⟩ := hs.split_cons
    have hplain : ∀ x ∈ nodesAll args, x.Plain := fun x hx => ⟨hn.2 x hx, hp x (by simp [Statement.nodes, nodes, hx])⟩
    have hskip := skip_of_renderItems hplain (.inl rfl) hs
    obtain ⟨es', he, hr⟩ := reads_list_of_items hskip hs fun hne =>
      reads_renderItems args hne hplain (.inl rfl) hskip hs
    obtain ⟨hname, ha⟩ := reads_arguments hn.1 hk hm hr
    refine ⟨_, ?_, .call hname ha⟩
    exact congrArg (Statement.call callee · ⟨0, 0⟩) he

/-- The lines of statements start with names. -/
theorem head_lines {ss : List Statement} (h : ∀ s ∈ ss, s.WellNamed) :
    blankPrefix (ss.flatMap fun s => s.render ++ ['\n']) = [] ∧
      ∀ y ∈ (ss.flatMap fun s => s.render ++ ['\n']).head?, isNameStart y := by
  have name : ∀ {name : String} {l : List Char}, IsIdentifier name →
      blankPrefix (name.toList ++ l) = [] ∧ ∀ y ∈ (name.toList ++ l).head?, isNameStart y := by
    intro name l hn
    refine ⟨blankPrefix_identifier hn l, ?_⟩
    obtain ⟨x, xs, hx, hstart, -⟩ := hn
    rw [hx]
    intro y hy
    obtain rfl : x = y := Option.some.inj hy
    exact isNameStart_iff.2 hstart
  cases ss with
  | nil => exact ⟨rfl, fun y hy => by cases hy⟩
  | cons s ss =>
    have hs := h s List.mem_cons_self
    cases s with
    | assign n value span =>
      rw [List.flatMap_cons, Statement.render, List.append_assoc, List.append_assoc]
      exact name hs.1
    | call callee args span =>
      rw [List.flatMap_cons, Statement.render, Expr.render, List.append_assoc, List.append_assoc]
      exact name hs.1

theorem readsAll_render : ∀ {ss : List Statement}, (∀ s ∈ ss, s.WellNamed ∧ s.NoDoubles) → ∀ {c : Cursor},
    c.skip.rest = (ss.flatMap fun s => s.render ++ ['\n']) →
    ∃ ss', ss'.map Statement.withoutSpans = ss.map Statement.withoutSpans ∧ ReadsAll ss' c
  | [], _, c, hr => ⟨[], rfl, .nil hr⟩
  | s :: ss, h, c, hr => by
    have hss : ∀ s ∈ ss, s.WellNamed ∧ s.NoDoubles := fun s' hs' => h s' (List.mem_cons_of_mem s hs')
    obtain ⟨hblank, hhead⟩ := head_lines fun s' hs' => (hss s' hs').1
    rw [List.flatMap_cons, List.append_assoc] at hr
    have hs : c.skip.Spells s.render (c.skip.advance s.render) := Cursor.spells_advance ⟨_, hr.symm⟩
    have hm : (c.skip.advance s.render).rest = '\n' :: (ss.flatMap fun s => s.render ++ ['\n']) := by
      rw [Cursor.rest_advance, hr, List.drop_left]
      rfl
    generalize c.skip.advance s.render = m at hs hm
    have hn : (m.advance ['\n']).rest = ss.flatMap fun s => s.render ++ ['\n'] := by
      rw [Cursor.rest_advance, hm]
      rfl
    have hskip : m.skip = m.advance ['\n'] := by
      rw [skip_of_separator hm rfl]
      exact Cursor.skip_of_blankPrefix (by rw [hn, hblank])
    have hends : m.Ends := by
      refine ends_of_separator hm (.inr rfl) fun y hy => ?_
      rw [Cursor.skip_of_blankPrefix (by rw [hn, hblank]), hn] at hy
      exact ⟨ne_of_isNameStart (hhead y hy) (by decide), isQuote_of_isNameStart (hhead y hy)⟩
    have hnone : m.skip.past? ['.', '.'] = none := by
      refine Cursor.past?_eq_none fun y hy => ?_
      rw [hskip, hn] at hy
      exact ne_of_isNameStart (hhead y hy) (by decide)
    obtain ⟨hname, hplain⟩ := h s List.mem_cons_self
    obtain ⟨s', hs', hread⟩ := readsStatement_render hname hplain hs hends hnone
    obtain ⟨ss', hss', hreads⟩ := readsAll_render hss (hskip ▸ hn)
    exact ⟨s' :: ss', by rw [List.map_cons, hs', hss']; rfl, .cons hread hreads⟩

end

end SymbolBridge.Script
