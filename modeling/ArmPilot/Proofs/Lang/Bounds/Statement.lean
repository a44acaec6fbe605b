import ArmPilot.Proofs.Lang.Bounds.Expression

/-!
# Statements under wider bounds
-/

namespace ArmPilot
namespace Lang
namespace Grammar

variable {E : Refusal → Prop} {g g' : Grammar} (hg : g.Follows E g') {s : Setting} {w : Bounds}

include hg

theorem declaration_follows (readOnly : Bool) (hs : s.Narrows E w) :
    Parse.Follows E Eq (g.declaration readOnly s) (g'.declaration readOnly (s.within w)) := by
  unfold declaration
  refine .bind_deeper hs fun s hs => .bind (.refl _) fun t => .bind (.refl _) fun name => .bind ?_ fun _ => .refl _
  refine .bind (.refl _) fun valued => .ite .rfl ?_ (.refl _)
  exact .bind_deeper { hs with } fun _ ht => hg.expression ht

theorem whileLoop_follows (hs : s.Narrows E w) :
    Parse.Follows E Eq (g.whileLoop s) (g'.whileLoop (s.within w)) := by
  unfold whileLoop
  refine .bind_deeper hs fun s hs => .bind (.refl _) fun t => .bind ?_ fun cond => ?_
  · exact .ite .rfl (.map _ (condition_follows hg { hs with })) (.refl _)
  · exact .bind (block_follows hg { hs with }) fun _ => .refl _

theorem doLoop_follows (hs : s.Narrows E w) : Parse.Follows E Eq (g.doLoop s) (g'.doLoop (s.within w)) := by
  unfold doLoop
  refine .bind_deeper hs fun s hs => .bind (.refl _) fun t => .bind (block_follows hg { hs with }) fun body => ?_
  exact .bind (.refl _) fun negated => .bind (condition_follows hg { hs with }) fun _ => .refl _

theorem forLoop_follows (hs : s.Narrows E w) : Parse.Follows E Eq (g.forLoop s) (g'.forLoop (s.within w)) := by
  unfold forLoop
  refine .bind_deeper hs fun s hs => .bind (.refl _) fun t => .bind (.refl _) ?_
  rintro ⟨name, counter⟩
  refine .bind (.refl _) fun u => .ite .rfl (.missing_bind _ _ _ _) (.bind (.refl _) fun _ => ?_)
  refine .bind_deeper { hs with } fun t ht => .bind (hg.expression ht) fun e => .bind (.refl _) fun source => ?_
  refine .bind (.refl _) fun c => ?_
  split
  · refine .bind (.refl _) fun _ => .bind (.refl _) fun _ => ?_
    exact .bind (block_follows hg { hs with }) fun _ => .refl _
  · exact .bind (.refl _) fun _ => .bind (block_follows hg { hs with }) fun _ => .refl _

theorem tryBlock_follows (hs : s.Narrows E w) : Parse.Follows E Eq (g.tryBlock s) (g'.tryBlock (s.within w)) := by
  unfold tryBlock
  refine .bind_deeper hs fun s hs => .bind (.refl _) fun t => .bind (block_follows hg { hs with }) fun body => ?_
  refine .bind (.refl _) fun hasHandler => .ite .rfl (.bind (.refl _) fun _ => .throw_bind _) ?_
  refine .bind (.refl _) fun c => .bind (.refl _) fun name => .bind (block_follows hg { hs with }) fun _ => .refl _

theorem function_follows (p : Position) (hs : s.Narrows E w) :
    Parse.Follows E Eq (g.function p s) (g'.function p (s.within w)) := by
  unfold function
  refine .bind (.refl _) fun outer => .bind (.refl _) fun _ => .bind (.refl _) fun name => .bind (.refl _) fun ps => ?_
  refine .bind (.refl _) fun _ => .bind (.refl _) fun t => ?_
  split
  · refine .bind (block_follows hg (w := { w with depth := w.functionDepth }) ?_) fun _ => .refl _
    exact { hs with depth := hs.functionDepth, tooDeep := fun h => hs.tooDeep (.inr (h.elim id id)) }
  · exact .refl _

theorem leavingValue_follows (hs : s.Narrows E w) :
    Parse.Follows E Eq (g.leavingValue s) (g'.leavingValue (s.within w)) := by
  unfold leavingValue
  refine .bind (.refl _) fun t => .ite .rfl ?_ (.refl _)
  exact .bind_deeper hs fun _ ht => .bind (hg.expression ht) fun _ => .refl _

theorem statementWith_follows (hs : s.Narrows E w) :
    Parse.Follows E Eq (g.statementWith s) (g'.statementWith (s.within w)) := by
  unfold statementWith
  refine .bind (.refl _) ?_
  rintro ⟨t, p⟩
  dsimp only
  split
  case h_3 => exact .bind (block_follows hg { hs with }) fun _ => .refl _
  case h_4 => exact .ite .rfl (.throw_bind _) (.bind (.refl _) fun _ => function_follows hg p { hs with })
  case h_5 =>
    refine .bind (.refl _) fun _ => .bind (.refl _) fun u => ?_
    exact .ite .rfl (.throw_bind _) (function_follows hg _ { hs with })
  case h_6 => exact conditional_follows hg { hs with }
  case h_7 => exact switching_follows hg { hs with }
  case h_8 | h_9 => exact whileLoop_follows hg { hs with }
  case h_10 => exact doLoop_follows hg { hs with }
  case h_11 => exact forLoop_follows hg { hs with }
  case h_12 => exact tryBlock_follows hg { hs with }
  case h_13 | h_14 => exact declaration_follows hg _ { hs with }
  case h_16 =>
    refine .ite .rfl (.throw_bind _) (.bind (.refl _) fun _ => ?_)
    exact .bind (leavingValue_follows hg { hs with }) fun _ => .refl _
  case h_17 | h_18 => exact .bind (.refl _) fun _ => .bind (leavingValue_follows hg { hs with }) fun _ => .refl _
  case h_19 => exact expressionStatement_follows hg { hs with }
  all_goals exact .refl _

end Grammar

/-- However deep code is nested, it is read under wider bounds as under narrow ones. -/
theorem grammar_follows {E : Refusal → Prop} : ∀ depth, (grammar depth).Follows E (grammar depth)
  | 0 =>
    { expression := fun _ => .refl _
      unary := fun _ => .refl _
      primary := fun _ => .refl _
      binary := fun _ _ _ _ _ => .refl _
      statement := fun _ => .refl _ }
  | depth + 1 =>
    have ih := grammar_follows depth
    { expression := fun hs => Grammar.expressionWith_follows ih hs
      unary := fun hs => Grammar.unaryWith_follows ih hs
      primary := fun hs => Grammar.primaryWith_follows ih hs
      binary := fun strength e _ _ hs => Grammar.binaryWith_follows ih strength e hs
      statement := fun hs => Grammar.statementWith_follows ih hs }

namespace Bounds

/-- Bounds that are at most others. -/
structure Within (b w : Bounds) : Prop where
  depth : Tighter b.depth w.depth
  functionDepth : Tighter b.functionDepth w.functionDepth
  string : Tighter b.maxString w.maxString
  array : Tighter b.maxArray w.maxArray
  map : Tighter b.maxMap w.maxMap

/-- The refusals of a limit.  In the value of a case a limit is reported as a missing literal. -/
inductive Bars (b : Bounds) : Refusal → Prop where
  | tooDeep (h : 0 < b.depth ∨ 0 < b.functionDepth) : b.Bars .tooDeep
  | tooManyItems (h : 0 < b.maxArray) : b.Bars (.literalTooLarge "Size of array literal" b.maxArray)
  | tooManyMembers (h : 0 < b.maxMap) :
    b.Bars (.literalTooLarge "Number of properties in object map literal" b.maxMap)
  | noLiteral {r : Refusal} (h : b.Bars r) : b.Bars (.expressionExpected "literal")

variable {b w : Bounds}

theorem narrows_setting (h : b.Within w) (statements : Bool) : (b.setting statements).Narrows b.Bars w :=
  { depth := h.depth, functionDepth := h.functionDepth, array := h.array, map := h.map, tooDeep := .tooDeep,
    tooManyItems := .tooManyItems, tooManyMembers := .tooManyMembers, noLiteral := fun ⟨_, h⟩ => .noLiteral h }

theorem statements_follows (h : b.Within w) (depth : Nat) :
    Parse.Follows b.Bars Eq (b.statements (grammar depth)) (w.statements (grammar depth)) := by
  unfold statements
  refine .iterate (fun stmts => .bind (.refl _) fun t => ?_) []
  split
  · exact .refl _
  · exact .bind ((grammar_follows depth).statement (narrows_setting h true)) fun _ => .refl _

theorem expression_follows (h : b.Within w) (depth : Nat) :
    Parse.Follows b.Bars Eq (b.expression (grammar depth)) (w.expression (grammar depth)) :=
  .bind ((grammar_follows depth).expression (narrows_setting h false)) fun _ => .refl _

/-- **Narrower bounds refuse more, and say why.**  A script that has the same tokens under wider bounds is taken for the
same, unless a limit refuses it. -/
theorem parseScript_within (h : b.Within w) (first : Nat) {text : String}
    (ht : tokenize b.maxString text = tokenize w.maxString text) :
    b.parseScript first text = w.parseScript first text ∨
      ∃ e, b.parseScript first text = .error e ∧ b.Bars e.refusal := by
  have hc : b.cursor text = w.cursor text := by simp only [cursor, ht]
  unfold parseScript
  rw [← hc]
  dsimp only
  obtain ⟨e, he, hb⟩ | ⟨e, he, he'⟩ | ⟨r, _, c, hr, hr', rfl⟩ :=
    statements_follows h (fuel (b.cursor text)) (b.cursor text)
  · exact .inr ⟨e, by rw [he], hb⟩
  · exact .inl (by rw [he, he'])
  · exact .inl (by rw [hr, hr'])

theorem parseExpression_within (h : b.Within w) (first : Nat) {text : String}
    (ht : tokenize b.maxString text = tokenize w.maxString text) :
    b.parseExpression first text = w.parseExpression first text ∨
      ∃ e, b.parseExpression first text = .error e ∧ b.Bars e.refusal := by
  have hc : b.cursor text = w.cursor text := by simp only [cursor, ht]
  unfold parseExpression
  rw [← hc]
  dsimp only
  obtain ⟨e, he, hb⟩ | ⟨e, he, he'⟩ | ⟨r, _, c, hr, hr', rfl⟩ :=
    expression_follows h (fuel (b.cursor text)) (b.cursor text)
  · exact .inr ⟨e, by rw [he], hb⟩
  · exact .inl (by rw [he, he'])
  · exact .inl (by rw [hr, hr'])

end Bounds

end Lang
end ArmPilot
