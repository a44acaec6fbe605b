import ArmPilot.Proofs.Lang.Faults.Basic

/-!
# Expressions and faults
-/

namespace ArmPilot
namespace Lang
namespace Grammar

open Tokens

variable {g : Grammar} (hg : g.Careful)

include hg

theorem arguments_stays (name : String) (empty : Bool) (s : Setting) :
    Parse.Stays Faulty (g.arguments name empty s) := by
  unfold arguments
  refine .ite (fun _ => .pure _) fun _ => .peek_bind fun t => ?_
  split
  · exact .refuse _ _
  · exact .refuse _ _
  · exact .ahead rfl (.take_bind fun _ => .pure _)
  refine .next (.deeper_bind _ fun s => .iterate (fun args => .bind (.peek_bind fun t => ?_) fun args => ?_) [])
  · split
    · exact .next (.pure _)
    · exact .next (.bind (hg.expression _) fun _ => .pure _)
  · refine .peek_bind fun t => ?_
    split
    · exact .ahead rfl (.take_bind fun _ => .pure _)
    · exact .ahead rfl (.take_bind fun _ => .pure _)
    · exact .refuse _ _
    · exact .missing _ _ _ _

theorem parenthesized_stays (s : Setting) : Parse.Stays Ahead (g.parenthesized s) := by
  unfold parenthesized
  refine .take_bind fun t => .deeperAt_bind _ _ fun s => .bind (hg.expression _) fun e => ?_
  exact .bind (.expectMark _ _) fun _ => .pure _

theorem arrayLiteral_stays (s : Setting) : Parse.Stays Ahead (g.arrayLiteral s) := by
  unfold arrayLiteral
  refine .take_bind fun t => .deeperAt_bind _ _ fun s => .bind (.iterate (fun items => ?_) []) fun _ => .pure _
  refine .ite (fun _ => .peek_bind fun _ => .refuse_bind _ _ _) fun _ => .peek_bind fun t => ?_
  split
  · exact .ahead rfl (.take_bind fun _ => .pure _)
  · exact .refuse _ _
  refine .next (.deeper_bind _ fun s => .bind (hg.expression _) fun e => .peek_bind fun t => ?_)
  split
  · exact .ahead rfl (.take_bind fun _ => .pure _)
  · exact .next (.pure _)
  · exact .refuse _ _
  · exact .missing _ _ _ _

omit hg in
theorem memberName_stays (members : List (String × Expr)) : Parse.Stays Faulty (memberName members) := by
  unfold memberName
  refine .next_bind fun t => ?_
  split
  · exact .ite (fun _ => .refuse _ _) fun _ => .behind rfl (.pure _)
  · exact .ite (fun _ => .refuse _ _) fun _ => .behind rfl (.pure _)
  · exact .refuse _ _
  · exact .ite (fun _ => .refuse _ _) fun _ => .ite (fun _ => .refuse _ _) fun _ => .refuse _ _
  · exact .refuse _ _
  · exact .refuse _ _
  · exact .ite (fun _ => .refuse _ _) fun _ => .refuse _ _

theorem mapLiteral_stays (s : Setting) : Parse.Stays Ahead (g.mapLiteral s) := by
  unfold mapLiteral
  refine .take_bind fun t => .deeperAt_bind _ _ fun s => .bind (.iterate (fun members => ?_) []) fun _ => .pure _
  refine .peek_bind fun t => ?_
  split
  · exact .ahead rfl (.take_bind fun _ => .pure _)
  · exact .refuse _ _
  refine .next (.bind (memberName_stays _) fun name => .bind (.expectMark _ _) fun _ => ?_)
  refine .ite (fun _ => .peek_bind fun _ => .refuse_bind _ _ _) fun _ => ?_
  refine .deeper_bind _ fun s => .bind (hg.expression _) fun e => .peek_bind fun t => ?_
  split
  · exact .ahead rfl (.take_bind fun _ => .pure _)
  · exact .next (.pure _)
  · exact .refuse _ _
  · exact .missing _ _ _ _

theorem indexLinks_stays (root : Expr) (optional : Bool) (p : Position) (s : Setting) :
    Parse.Stays Faulty (g.indexLinks root optional p s) := by
  unfold indexLinks
  refine .iterate ?_ _
  rintro ⟨links, optional, p, s⟩
  refine .deeper_bind _ fun s => .bind (hg.expression _) fun index => ?_
  split
  all_goals try split
  · exact .throw_bind _ _
  all_goals
    refine .bind (.expectMark _ _) fun _ => .peek_bind fun t => ?_
    split
    · exact .ahead rfl (.take_bind fun _ => .deeperAt_bind _ _ fun _ => .pure _)
    · exact .ahead rfl (.take_bind fun _ => .deeperAt_bind _ _ fun _ => .pure _)
    · exact .next (.pure _)

omit hg in
theorem dotLinks_stays (rhs : Expr) (joint : Joint) : Parse.Stays Faulty (dotLinks rhs joint) := by
  unfold dotLinks
  dsimp only
  split
  · exact .pure _
  all_goals
    refine .bind ?_ fun _ => .pure _
    split
    · exact .pure _
    · exact .pure _
    · exact .throw _
    · exact .throw _

theorem dotted_stays (s : Setting) (e : Expr) (optional : Bool) (p : Position) :
    Parse.Stays Ahead (postfixed.dotted g s e optional p) := by
  unfold postfixed.dotted
  refine .take_bind fun _ => .peek_bind fun t => ?_
  have hrest : ∀ s : Setting, Parse.Stays Faulty (do
      let rhs ← g.primary { s with behindDot := true }
      return .inl (addLinks e (← dotLinks rhs ⟨optional, some p⟩) p) : Parse (Expr ⊕ Expr)) :=
    fun s => .bind (hg.primary _) fun _ => .bind (dotLinks_stays _ _) fun _ => .pure _
  split
  · exact .next (.bind (.modify_stays fun _ => rfl) fun _ => .deeperAt_bind _ _ fun s => hrest s)
  · exact .ite (fun _ => .refuse_bind _ _ _) fun _ => .next (.deeperAt_bind _ _ fun s => hrest s)
  · exact .refuse_bind _ _ _

theorem indexed_stays (s : Setting) (e : Expr) (optional : Bool) (p : Position) :
    Parse.Stays Ahead (postfixed.indexed g s e optional p) := by
  unfold postfixed.indexed
  refine .take_bind fun _ => .deeperAt_bind _ _ fun s => .bind (indexLinks_stays hg _ _ _ _) fun _ => .pure _

theorem postfixed_stays (e : Expr) (s : Setting) : Parse.Stays Faulty (g.postfixed e s) := by
  unfold postfixed
  refine .iterate (fun e => .peek_bind ?_) e
  rintro ⟨t, p⟩
  refine .ite (fun _ => .next (.pure _)) fun _ => ?_
  dsimp only
  split
  · exact .ahead rfl (dotted_stays hg _ _ _ _)
  · exact .ahead rfl (dotted_stays hg _ _ _ _)
  · exact .ahead rfl (indexed_stays hg _ _ _ _)
  · exact .ahead rfl (indexed_stays hg _ _ _ _)
  · exact .ahead rfl (.take_bind fun _ => .bind (arguments_stays hg _ _ _) fun _ => .pure _)
  · exact .ahead rfl (.take_bind fun _ => .bind (arguments_stays hg _ _ _) fun _ => .pure _)
  · exact .ahead rfl (.take_bind fun _ => .bind (arguments_stays hg _ _ _) fun _ => .pure _)
  · exact .ahead rfl (.take_bind fun _ => .bind (arguments_stays hg _ _ _) fun _ => .pure _)
  · refine .ahead rfl (.take_bind fun _ => .next_bind fun u => ?_)
    split
    · exact .behind rfl (.bind (arguments_stays hg _ _ _) fun _ => .pure _)
    · exact .behind rfl (.pure _)
    · exact .refuse _ _
  · exact .ahead rfl (.take_bind fun _ => .peek_bind fun u => .ite (fun _ => .refuse _ _) fun _ => .refuse _ _)
  · exact .ahead rfl (.take_bind fun _ => .bind .variableName fun _ => .pure _)
  · exact .ahead rfl (.take_bind fun _ => .bind .variableName fun _ => .pure _)
  · exact .next (.pure _)

omit hg in
theorem assign_stays (op : Option Mark) (target value : Expr) (p : Position) :
    Parse.Stays Faulty (expressionStatement.assign op target value p) := by
  unfold expressionStatement.assign
  dsimp only
  split
  · exact .pure _
  · refine .get_bind fun c hc => .ite (fun _ => .throw _) fun _ => .weaken (.pure _) fun _ h => h ▸ hc
  · exact .pure _
  · exact .pure _
  · split
    · exact .throw _
    · split
      · exact .pure _
      · exact .pure _
      · exact .pure _
      · exact .throw _
  · exact .ite (fun _ => .refuse _ _) fun _ => .throw _
  · exact .ite (fun _ => .refuse _ _) fun _ => .throw _
  · exact .ite (fun _ => .refuse _ _) fun _ => .throw _
  · exact .ite (fun _ => .throw _) fun _ => .throw _

theorem expressionStatement_stays (s : Setting) : Parse.Stays Faulty (g.expressionStatement s) := by
  unfold expressionStatement
  refine .deeper_bind _ fun s => .peek_bind fun t => .next (.bind (hg.expression _) fun target => ?_)
  have hassigned : ∀ (op : Option Mark) (p : Position) (s : Setting), Parse.Stays Ahead (do
      let _ ← Parse.next
      let value ← g.expression s
      expressionStatement.assign op target value p) :=
    fun op p s => .take_bind fun _ => .bind (hg.expression _) fun _ => assign_stays _ _ _ _
  refine .peek_bind fun u => ?_
  split
  · exact .ahead rfl (hassigned _ _ _)
  · split
    · exact .ahead rfl (hassigned _ _ _)
    · exact .next (.pure _)
  · exact .next (.pure _)

theorem block_stays (s : Setting) : Parse.Stays Faulty (g.block s) := by
  unfold block
  refine .deeper_bind _ fun s => .next_bind ?_
  rintro ⟨t, p⟩
  refine .ite (fun _ => .missing_bind _ _ _ _ _) fun ht => ?_
  have hbrace : t.isFault = false := Token.isFault_of_beq_mark (by simpa [bne] using ht)
  refine .behind hbrace (.ite (fun _ => .bind (expressionStatement_stays hg _) fun _ => .bind ?_ fun _ => .pure _) ?_)
  · unfold block.Parse.expectClose
    refine .next_bind fun u => .ite (fun hu => .behind ?_ (.pure _)) fun _ => .missing _ _ _ _
    exact Token.isFault_of_beq_mark hu
  refine fun _ => .get_bind fun c hc => .weaken ?_ fun _ h => h ▸ hc
  refine .bind (.modify_stays fun _ => rfl) fun _ => .bind (.iterate (fun stmts => .peek_bind fun u => ?_) []) fun _ => ?_
  · split
    · exact .ahead rfl (.take_bind fun _ => .pure _)
    · exact .refuse _ _
    refine .next (.deeper_bind _ fun s => .bind (hg.statement _) fun stmt => .ite (fun _ => .pure _) fun _ => ?_)
    refine .peek_bind fun v => ?_
    split
    · exact .ahead rfl (.take_bind fun _ => .pure _)
    · exact .ahead rfl (.take_bind fun _ => .pure _)
    · exact .ite (fun _ => .next (.pure _)) fun _ => .missing _ _ _ _
  · refine .get_bind fun c hc => .weaken ?_ fun _ h => h ▸ hc
    exact .bind (.forget _) fun _ => .bind (.modify_stays fun _ => rfl) fun _ => .pure _

theorem condition_stays (s : Setting) : Parse.Stays Faulty (g.condition s) := by
  unfold condition
  refine .bind (.refuseBlock _) fun _ => .deeper_bind _ fun s => .bind (hg.expression _) fun e => ?_
  exact .bind (.asCondition _) fun _ => .bind .refuseAssignment fun _ => .pure _

theorem conditional_stays (s : Setting) : Parse.Stays Ahead (g.conditional s) := by
  unfold conditional
  refine .deeper_bind _ fun s => .take_bind fun t => .bind (condition_stays hg _) fun cond => ?_
  refine .bind (block_stays hg _) fun body => .bind (.acceptWord _) fun _ => .ite (fun _ => ?_) fun _ => .pure _
  refine .peek_bind fun u => ?_
  split
  · exact .next (.bind (hg.statement _) fun _ => .pure _)
  · exact .next (.bind (block_stays hg _) fun _ => .pure _)

theorem caseValues_stays (s : Setting) : Parse.Stays Faulty (g.caseValues s) := by
  unfold caseValues
  refine .iterate (fun values => .get_bind fun c hc => ?_) []
  have hvalue : Parse.Stays Faulty (do g.expression (← { s with stopsAtPipe := true }.deeper)) :=
    .deeper_bind _ fun _ => hg.expression _
  split
  · exact .throw _
  · rename_i e c' hr
    refine .bind (.set_stays (hvalue _ _ _ hc hr).1) fun _ => .bind (.acceptMark _) fun _ => ?_
    exact .ite (fun _ => .pure _) fun _ => .pure _

omit hg in
theorem literalCases_stays : ∀ (es : List Expr) (ranged : Bool), Parse.Stays Faulty (literalCases ranged es)
  | [], _ => .pure _
  | e :: rest, ranged => by
    have ih := literalCases_stays rest
    unfold literalCases
    split
    · exact .throw _
    · exact .bind (ih _) fun _ => .pure _
    · exact .ite (fun _ => .throw_bind _ _) fun _ => .bind (ih _) fun _ => .pure _

theorem switching_stays (s : Setting) : Parse.Stays Ahead (g.switching s) := by
  unfold switching
  refine .deeper_bind _ fun s => .take_bind fun t => .deeper_bind _ fun v => .bind (hg.expression _) fun value => ?_
  refine .bind (.expectMark _ _) fun _ => .bind (.iterate ?_ _) fun _ => .pure _
  rintro ⟨cases, default, ranged⟩
  refine .peek_bind ?_
  rintro ⟨t, p⟩
  dsimp only
  split
  · exact .ahead (by cases ‹(t, p) = _›; rfl) (.take_bind fun _ => .pure _)
  · exact .refuse _ _
  refine .bind ?_ fun x => .bind (.expectMark _ _) fun _ => .bind ?_ fun y => .bind (literalCases_stays _ _) fun z => ?_
  · split
    · exact .refuse _ _
    · refine .ahead (by cases ‹(t, p) = _›; rfl) (.take_bind fun _ => .peek_bind fun u => ?_)
      split
      · exact .refuse _ _
      · exact .next (.pure _)
    · refine .next (.bind (caseValues_stays hg _) fun values => .bind (.acceptWord _) fun _ => ?_)
      exact .ite (fun _ => .bind (condition_stays hg _) fun _ => .pure _) fun _ => .pure _
  · refine .ite (fun _ => .deeper_bind _ fun s => .bind (hg.statement _) fun _ => .pure _) fun _ => ?_
    exact .deeper_bind _ fun s => .bind (hg.expression _) fun _ => .pure _
  · refine .peek_bind fun u => ?_
    split
    · exact .ahead rfl (.take_bind fun _ => .pure _)
    · exact .next (.pure _)
    · exact .refuse _ _
    · exact .refuse _ _
    · exact .ite (fun _ => .next (.pure _)) fun _ => .refuse _ _

omit hg in
theorem parameterName_stays (close : Mark) (owner : String) : Parse.Stays Faulty (parameterName close owner) := by
  unfold parameterName
  refine .next_bind fun t => ?_
  split
  · exact .behind rfl (.pure _)
  · exact .refuse _ _
  · exact .refuse _ _
  · exact .ite (fun _ => .refuse _ _) fun _ => .refuse _ _

omit hg in
theorem parameterNames_stays (function : String) (close : Mark) (owner separated : String) :
    Parse.Stays Faulty (parameterNames function close owner separated) := by
  unfold parameterNames
  refine .iterate (fun names => .bind (.acceptMark _) fun _ => .ite (fun _ => .pure _) fun _ => ?_) []
  refine .bind (parameterName_stays _ _) fun name => .ite (fun _ => .refuse_bind _ _ _) fun _ => .next_bind fun t => ?_
  split
  · exact .behind rfl (.pure _)
  · refine .ite (fun ht => .behind (Token.isFault_of_beq_mark ht) (.pure _)) fun _ => .missing _ _ _ _

theorem closure_stays (s : Setting) : Parse.Stays Ahead (g.closure s) := by
  unfold closure
  refine .deeper_bind _ fun s => .take_bind fun t => .bind ?_ fun parameters => ?_
  · exact .ite (fun _ => .pure _) fun _ => parameterNames_stays _ _ _ _
  refine .get_bind fun outer houter => .bind (.set_stays houter) fun _ => .bind (hg.statement _) fun body => ?_
  refine .get_bind fun inner hinner => .bind (.set_stays hinner) fun _ => ?_
  refine .bind (.forIn _ (fun x _ => .bind (.access _ _) fun _ => .pure _) _) fun _ => ?_
  exact .bind (.modify_stays fun _ => rfl) fun _ => .pure _

theorem interpolated_stays (s : Setting) : Parse.Stays Ahead (g.interpolated s) := by
  unfold interpolated
  refine .take_bind fun t => .bind (.iterate (fun parts => ?_) _) fun _ => .ite (fun _ => .pure _) fun _ => .pure _
  refine .bind (block_stays hg _) fun body => .next_bind fun u => ?_
  split
  · exact .behind rfl (.pure _)
  · exact .behind rfl (.pure _)
  · exact .refuse _ _
  · exact .throw _

theorem operand_stays (s : Setting) : Parse.Stays Faulty (g.operand s) := by
  unfold operand
  refine .peek_bind ?_
  rintro ⟨t, p⟩
  dsimp only
  split
  case h_9 => exact .ahead rfl (parenthesized_stays hg _)
  case h_10 => exact .ahead rfl (arrayLiteral_stays hg _)
  case h_11 => exact .ahead rfl (mapLiteral_stays hg _)
  case h_12 => exact .ahead rfl (interpolated_stays hg _)
  case h_13 => exact .ahead rfl (.bind (conditional_stays hg _) fun _ => .pure _)
  case h_14 => exact .ahead rfl (.bind (switching_stays hg _) fun _ => .pure _)
  case h_15 | h_16 => exact .ahead rfl (closure_stays hg _)
  case h_17 => exact .next (.ite (fun _ => .bind (block_stays hg _) fun _ => .pure _) fun _ => .refuse _ _)
  case h_18 | h_19 | h_20 | h_21 =>
    exact .next (.ite (fun _ => .bind (hg.statement _) fun _ => .pure _) fun _ => .refuse _ _)
  case h_22 =>
    refine .ahead rfl (.take_bind fun _ => .peek_bind fun u => ?_)
    split
    · exact .next (.bind (.modify_stays fun _ => rfl) fun _ => .pure _)
    · exact .next (.bind (.modify_stays fun _ => rfl) fun _ => .pure _)
    · exact .next (.bind (.modify_stays fun _ => rfl) fun _ => .pure _)
    · refine .ite (fun _ => .refuse_bind _ _ _) fun _ => ?_
      exact .next (.bind (.modify_stays fun _ => rfl) fun _ => .pure _)
    · exact .next (.bind (.access _ _) fun _ => .pure _)
  case h_23 =>
    refine .ahead rfl (.take_bind fun _ => .peek_bind fun u => .ite (fun _ => .next (.pure _)) fun _ => ?_)
    exact .ite (fun _ => .ite (fun _ => .next (.pure _)) fun _ => .refuse _ _) fun _ => .refuse _ _
  case h_1 | h_24 | h_25 => exact .refuse _ _
  all_goals exact .ahead rfl (.take_bind fun _ => .pure _)

theorem primaryWith_stays (s : Setting) : Parse.Stays Faulty (g.primaryWith s) := by
  unfold primaryWith
  refine .peek_bind fun t => .ite (fun _ => .refuse_bind _ _ _) fun _ => ?_
  exact .next (.bind (operand_stays hg _) fun e => postfixed_stays hg _ _)

theorem unaryWith_stays (s : Setting) : Parse.Stays Faulty (g.unaryWith s) := by
  unfold unaryWith
  refine .peek_bind ?_
  rintro ⟨t, p⟩
  refine .ite (fun _ => .refuse_bind _ _ _) fun _ => ?_
  dsimp only
  split
  case h_6 | h_7 => exact .next (.pure _)
  case h_8 => exact .refuse _ _
  case h_9 => exact .next (hg.primary _)
  all_goals
    refine .ahead rfl (.take_bind fun _ => .deeperAt_bind _ _ fun _ => .bind (hg.unary _) fun e => ?_)
    repeat' split
    all_goals exact .pure _

omit hg in
theorem join_stays (op : Token) (l r : Expr) (p : Position) : Parse.Stays Faulty (join op l r p) := by
  unfold join
  split
  · exact .bind (.asCondition _) fun _ => .bind (.asCondition _) fun _ => .pure _
  · exact .bind (.asCondition _) fun _ => .bind (.asCondition _) fun _ => .pure _
  all_goals exact .pure _

theorem secondOperand_stays (op : Token) (s : Setting) : Parse.Stays Faulty (g.secondOperand op s) := by
  unfold secondOperand
  refine .peek_bind ?_
  rintro ⟨t, p⟩
  dsimp only
  split
  · exact .next (.ite (fun _ => .pure _) fun _ => hg.unary _)
  · exact .next (.ite (fun _ => .pure _) fun _ => hg.unary _)
  · exact .next (.bind (hg.statement _) fun _ => .pure _)
  · exact .next (.bind (hg.statement _) fun _ => .pure _)
  · exact .next (.bind (hg.statement _) fun _ => .pure _)
  · exact .next (.bind (hg.statement _) fun _ => .pure _)
  · exact .next (hg.unary _)

omit hg in
/-- A fault is no operator. -/
theorem isFault_of_precedence {t : Token} {strength : Nat}
    (h : ¬(t.precedence < strength ∨ (t.precedence = strength ∧ !t.bindsRight))) : t.isFault = false := by
  cases t with
  | fault f => exact absurd ((Nat.eq_zero_or_pos strength).symm.imp id fun h => ⟨h.symm, rfl⟩) h
  | _ => rfl

theorem binaryWith_stays (strength : Nat) (e : Expr) (s : Setting) :
    Parse.Stays Faulty (g.binaryWith strength e s) := by
  unfold binaryWith
  refine .iterate ?_ _
  rintro ⟨root, s⟩
  refine .peek_bind fun t => .ite (fun _ => .next (.pure _)) fun _ => ?_
  split
  · exact .refuse_bind _ _ _
  refine .ite (fun _ => .next (.pure _)) fun hop => .ahead (isFault_of_precedence hop) (.take_bind fun _ => ?_)
  refine .deeper_bind _ fun s => .bind (secondOperand_stays hg _ _) fun rhs => .peek_bind ?_
  rintro ⟨u, q⟩
  dsimp only
  split
  · exact .refuse_bind _ _ _
  refine .next (.bind (.ite (fun _ => hg.binary _ _ _) fun _ => .pure _) fun rhs => ?_)
  exact .bind (join_stays _ _ _ _) fun _ => .pure _

theorem expressionWith_stays (s : Setting) : Parse.Stays Faulty (g.expressionWith s) := by
  unfold expressionWith
  refine .peek_bind fun t => .next (.deeperAt_bind _ _ fun s => .bind (hg.unary _) fun e => hg.binary _ _ _)

end Grammar
end Lang
end ArmPilot
