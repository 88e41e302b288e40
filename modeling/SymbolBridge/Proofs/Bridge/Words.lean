import SymbolBridge.Proofs.Bridge.Invoke
import SymbolBridge.Proofs.Bridge.Variables
import SymbolBridge.Proofs.Script.Render
import SymbolBridge.Proofs.Text.Cut
import SymbolBridge.Script.Engine

/-!
# Words that scripts carry

A word that native code returns reaches a script as a signed integer. The script can hand it on as a number, keep it as a
text, or write it into a program, and at native width it is the same word on every way back: in the slot of an argument
(`ArgumentVector.word_slots_of_word`), in the cell of a variable (`Bridge.variable_of_word`), and where its decimal text is
read as an argument of a command line or in a script (`Value.ofArgument_toText`, `Script.parse_assign_toText`).
-/

namespace SymbolBridge

open Text

/-! ## Decimal texts -/

namespace Number

/-- A digit or a minus sign is no blank. -/
theorem isBlank_eq_false_of_isDigit {x : Char} (h : x.isDigit ∨ x = '-') : isBlank x = false := by
  have hblanks : blanks.all (fun y => !(y.isDigit || y == '-')) = true := by decide
  by_contra hblank
  have hmem : x ∈ blanks := List.contains_iff_mem.1 (Bool.eq_true_of_not_eq_false hblank)
  have hno := List.all_eq_true.1 hblanks x hmem
  rcases h with h | rfl
  · simp [h] at hno
  · simp at hno

theorem mem_toText {n : Int64} {x : Char} (h : x ∈ (Number.int n).toText.toList) : x.isDigit ∨ x = '-' := by
  obtain ⟨negative, m, -, ht⟩ := exists_toList_toText n
  rw [ht, List.mem_append] at h
  rcases h with h | h
  · cases negative with
    | true => exact .inr (List.mem_singleton.1 h)
    | false => cases h
  · exact .inl (isDigit_of_mem_toDigits h)

theorem toText_ne_nil (n : Int64) : (Number.int n).toText.toList ≠ [] := by
  intro h
  have hread := read?_toText n
  rw [h] at hread
  cases hread

theorem read?_trim_padded {before after : List Char} (hbefore : ∀ x ∈ before, isBlank x)
    (hafter : ∀ x ∈ after, isBlank x) (n : Int64) :
    read? (trim (before ++ (Number.int n).toText.toList ++ after)) = some (.int n) := by
  have hcore : ∀ x ∈ (Number.int n).toText.toList, isBlank x = false := fun x hx =>
    isBlank_eq_false_of_isDigit (mem_toText hx)
  rw [trim_padded hbefore hcore hafter (toText_ne_nil n), read?_toText]

end Number

namespace Value

/-- A value that a script can keep an integer in: the number, or its decimal text between blanks. -/
inductive Writes (n : Int64) : Value → Prop
  | number : Writes n (.number (.int n))
  | text {before after : List Char} : (∀ x ∈ before, isBlank x) → (∀ x ∈ after, isBlank x) →
      Writes n (.str (String.ofList (before ++ (toString n.toInt).toList ++ after)))

theorem Writes.toScalar {n : Int64} {v : Value} (h : v.Writes n) : v.toScalar = n := by
  cases h with
  | number => rfl
  | @text before after hbefore hafter =>
    have hread : Number.read? (trim (before ++ (toString n.toInt).toList ++ after)) = some (.int n) :=
      Number.read?_trim_padded hbefore hafter n
    rw [Value.toScalar, toInteger?, String.toList_ofList, hread]
    · rfl
    · intro b hb
      cases hb

/-- The decimal text of an integer is none of the constants, so it is read as the integer. -/
theorem ofArgument_toText (n : Int64) : ofArgument (toString n.toInt) = .number (.int n) := by
  have hread : Number.read? (toString n.toInt).toList = some (.int n) := Number.read?_toText n
  have hne : ∀ constant : String, (∃ x ∈ constant.toList, ¬ (x.isDigit ∨ x = '-')) → toString n.toInt ≠ constant := by
    rintro constant ⟨x, hx, hno⟩ rfl
    exact hno (Number.mem_toText hx)
  unfold ofArgument
  split
  · rename_i heq
    exact absurd heq (hne "nil" ⟨'n', by simp, by decide⟩)
  · rename_i heq
    exact absurd heq (hne "true" ⟨'t', by simp, by decide⟩)
  · rename_i heq
    exact absurd heq (hne "false" ⟨'f', by simp, by decide⟩)
  · rw [hread]

end Value

/-! ## Scripts -/

namespace Script

theorem eq_assign_of_withoutSpans {s : Statement} {name : String} {x : Number} {span : Span}
    (h : s.withoutSpans = (Statement.assign name (.number x) span).withoutSpans) :
    ∃ span', s = .assign name (.number x) span' := by
  cases s with
  | call callee args span' => cases h
  | assign target value span' =>
    obtain ⟨rfl, hvalue, -⟩ := Statement.assign.inj h
    cases value with
    | number y =>
      cases hvalue
      exact ⟨span', rfl⟩
    | _ => cases hvalue

/-- An assignment of the decimal text of an integer is read as an assignment of the integer. -/
theorem parse_assign_toText {name : String} (hname : IsIdentifier name) (n : Int64) :
    ∃ span, parse (name ++ " = " ++ toString n.toInt) = .ok [.assign name (.number (.int n)) span] := by
  let source : Cursor := Cursor.ofSource (name ++ " = " ++ toString n.toInt)
  let written : Statement := .assign name (.number (.int n)) ⟨0, 0⟩
  have hrest : source.rest = written.render := by
    simp [source, written, Cursor.ofSource, Statement.render, Expr.render, Number.toText]
  have hspells : source.Spells written.render (source.advance written.render) :=
    Cursor.spells_advance (hrest ▸ List.prefix_rfl)
  have hskip : source.skip = source := Cursor.skip_of_blankPrefix (by
    rw [hrest]
    exact blankPrefix_identifier hname _)
  have hend : (source.advance written.render).rest = [] := by
    rw [Cursor.rest_advance, hrest, List.drop_length]
  obtain ⟨hends, hnothing, hnone⟩ := ends_of_nil hend
  have hnamed : written.WellNamed := ⟨hname, by simp [Expr.nodes, Expr.Named]⟩
  have hplain : written.NoDoubles := by simp [Statement.NoDoubles, written, Statement.nodes, Expr.nodes, Expr.isDouble]
  obtain ⟨s, hs, hreads⟩ := readsStatement_render hnamed hplain hspells hends hnone
  obtain ⟨span, rfl⟩ := eq_assign_of_withoutSpans hs
  exact ⟨span, parse_eq_ok_iff.2 (.cons (hskip.symm ▸ hreads) (.nil hnothing))⟩

end Script

/-! ## Slots and cells -/

theorem ArgumentVector.word_slots_of_word {limit i : Nat} {args : List Value} {allocator : Allocator} {w : Word}
    (hi : i < room limit) (harg : args[i]? = some (.number (.int w.toInt64))) :
    (ofValues .native limit args allocator).slots.word i = w := by
  rw [word_slots_of_getElem? hi harg]
  simp [Value.marshal, Number.toInt64, Width.narrow]

theorem GlobalCell.read_overwrite_native {c : GlobalCell} {m : Memory} (hwidth : c.width = .native) (hlive : c.Live m)
    (n : Int64) : c.read (c.overwrite n m) = n := by
  have hread := toInt_read_overwrite (n := n) hlive
  rw [hwidth, Width.keep] at hread
  exact Int64.toInt_inj.1 hread

theorem GlobalCell.bytesOf_word {c : GlobalCell} (hwidth : c.width = .native) (w : Word) :
    c.bytesOf w.toInt64 = Memory.littleEndian w.toNat 8 := by
  rw [bytesOf, hwidth, Width.bytes, UInt64.toUInt64_toInt64]

namespace Bridge

variable {σ : Type} {b : Bridge σ} (host : Host σ) {raw : String} {c : GlobalCell}

/-- A variable of a whole word that a value has been written to holds the word, and gives it back. -/
theorem variable_of_word (hwidth : b.config.variableWidth = .native) {u : World σ} (hc : b.Names u.host raw c)
    (hlive : c.Live u.memory) {nameValue v : Value} (hname : nameValue.text? = some raw) {w : Word}
    (hv : v.Writes w.toInt64) (rest : List Value) : ∃ u₁ u₂,
      b.tryDispatch host .setGlobal (nameValue :: v :: rest) u = (.ok none, u₁) ∧
      (∀ i < 8, u₁.memory.load? (c.address.toNat + i) = (Memory.littleEndian w.toNat 8)[i]?) ∧
      b.tryDispatch host .getGlobal [nameValue] u₁ = (.ok (some (.number (.int w.toInt64))), u₂) := by
  have hnative : c.width = .native := by
    obtain ⟨name, found, -, -, rfl⟩ := hc
    exact hwidth
  obtain ⟨u₁, hset, hover⟩ := exists_setVariable hc v
  rw [hv.toScalar] at hover
  refine ⟨u₁, (b.getVariable raw u₁).2, ?_, fun i hi => ?_, ?_⟩
  · rw [tryDispatch_setGlobal host hname, hset]
    rfl
  · have hbyte : i < c.width.bytes := by rwa [hnative]
    rw [hover.memory, GlobalCell.load?_overwrite_add hlive hbyte, GlobalCell.bytesOf_word hnative]
  · rw [tryDispatch_getGlobal host hname, (getVariable_of_names (hc.of_overwritten hover)).1, hover.memory,
      GlobalCell.read_overwrite_native hnative hlive]
    rfl

/-- A script is given the word that a function returns as a signed integer. -/
theorem call_of_word {name : SymbolName} {found : ResolvedSymbol} {args : List Value} {u : World σ} {w : Word}
    (hn : SymbolName.ofText b.config.maxNameLength raw = .ok name) (hf : b.signatureFault? name args = none)
    (hr : (b.symbols u.host).resolve b.config name .code = .ok found) (hkind : b.returnKind name = .word)
    (hw : (b.nativeResult host found.entry.address args u).1 = w) {nameValue : Value}
    (hname : nameValue.text? = some raw) :
    (b.tryDispatch host .call (nameValue :: args) u).1 = .ok (some (.number (.int w.toInt64))) := by
  rw [tryDispatch_call host hname, invoke_of_resolved u hn hf hr, hkind, hw]
  rfl

/-- **A word that a script is given comes back whole.** Where a function returns a word, a script gets the word as a
signed integer. At native width the integer fills the slot of an argument with the word. A variable of native width that
is overwritten with it, or with its decimal text between blanks, holds the eight bytes of the word, and is read as the
integer. The decimal text is what printing and concatenation show; as an argument of a command line it is the integer,
and so it is in a script, in an assignment and wherever an expression may stand. -/
theorem returned_word_comes_back (b : Bridge σ) (w : Word) :
    (∀ raw name found args (u : World σ) (nameValue : Value), SymbolName.ofText b.config.maxNameLength raw = .ok name →
      b.signatureFault? name args = none → (b.symbols u.host).resolve b.config name .code = .ok found →
      b.returnKind name = .word → (b.nativeResult host found.entry.address args u).1 = w →
      nameValue.text? = some raw →
      (b.tryDispatch host .call (nameValue :: args) u).1 = .ok (some (.number (.int w.toInt64)))) ∧
    (b.config.numberWidth = .native → ∀ allocator args i, i < ArgumentVector.room b.config.maxArguments →
      args[i]? = some (.number (.int w.toInt64)) → (b.arguments allocator args).slots.word i = w) ∧
    (b.config.variableWidth = .native → ∀ raw c (u : World σ) (nameValue v : Value) (rest : List Value),
      b.Names u.host raw c → c.Live u.memory → nameValue.text? = some raw → v.Writes w.toInt64 → ∃ u₁ u₂,
      b.tryDispatch host .setGlobal (nameValue :: v :: rest) u = (.ok none, u₁) ∧
      (∀ i < 8, u₁.memory.load? (c.address.toNat + i) = (Memory.littleEndian w.toNat 8)[i]?) ∧
      b.tryDispatch host .getGlobal [nameValue] u₁ = (.ok (some (.number (.int w.toInt64))), u₂)) ∧
    (∀ span, Script.runBuiltin b host span [.number (.int w.toInt64)] .print =
      (do Script.write host span [toString w.toInt64.toInt, "\n"]; return none)) ∧
    Script.operandText (.number (.int w.toInt64)) = .ok (toString w.toInt64.toInt) ∧
    Value.ofArgument (toString w.toInt64.toInt) = .number (.int w.toInt64) ∧
    (∀ name, Script.IsIdentifier name → ∃ span, Script.parse (name ++ " = " ++ toString w.toInt64.toInt) =
      .ok [.assign name (.number (.int w.toInt64)) span]) ∧
    ∀ c d : Script.Cursor, c.skip.Spells (toString w.toInt64.toInt).toList d → d.Ends →
      Script.Reads (.primary (.number (.int w.toInt64))) c d := by
  refine ⟨?_, ?_, ?_, fun span => rfl, rfl, Value.ofArgument_toText _, ?_, ?_⟩
  · intro raw name found args u nameValue hn hf hr hkind hw hname
    exact call_of_word host hn hf hr hkind hw hname
  · intro hwidth allocator args i hi harg
    rw [arguments, hwidth]
    exact ArgumentVector.word_slots_of_word hi harg
  · intro hwidth raw c u nameValue v rest hc hlive hname hv
    exact variable_of_word host hwidth hc hlive hname hv rest
  · intro name hname
    exact Script.parse_assign_toText hname w.toInt64
  · intro c d hspells hends
    exact Script.reads_int hspells hends

end Bridge

end SymbolBridge
