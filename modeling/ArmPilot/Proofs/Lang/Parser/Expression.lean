import ArmPilot.Lang.Parser.Expression
import ArmPilot.Proofs.Lang.Parser.Basic

/-!
# Placed expressions

An expression is put together from parts that are placed, by a parser whose nested parsers give nothing else
(`Grammar.Sound`).  An assignment is built in one place only (`assign_yields`).
-/

open Std.Do

set_option mvcgen.warning false

namespace ArmPilot
namespace Lang
namespace Grammar

variable {g : Grammar} (hg : g.Sound)

include hg

theorem arguments_yields (name : String) (empty : Bool) (s : Setting) :
    Parse.Yields (g.arguments name empty s) fun es => ∀ e ∈ es, e.Placed := by
  have hexpression := hg.expression
  have hiterate := @Parse.iterate_yields (I := fun es : List Expr => ∀ e ∈ es, e.Placed)
    (Q := fun es : List Expr => ∀ e ∈ es, e.Placed)
  mvcgen [arguments, hexpression, hiterate]
  all_goals grind

theorem parenthesized_yields (s : Setting) : Parse.Yields (g.parenthesized s) Expr.Placed := by
  have hexpression := hg.expression
  mvcgen [parenthesized, hexpression]
  all_goals grind

theorem arrayLiteral_yields (s : Setting) : Parse.Yields (g.arrayLiteral s) Expr.Placed := by
  have hexpression := hg.expression
  have hiterate := @Parse.iterate_yields (I := fun es : List Expr => ∀ e ∈ es, e.Placed)
    (Q := fun es : List Expr => ∀ e ∈ es, e.Placed)
  mvcgen [arrayLiteral, hexpression, hiterate]
  all_goals grind

omit hg in
@[spec]
theorem memberName_keeps (members : List (String × Expr)) : Parse.Keeps (memberName members) := by
  mvcgen [memberName]

theorem mapLiteral_yields (s : Setting) : Parse.Yields (g.mapLiteral s) Expr.Placed := by
  have hexpression := hg.expression
  have hiterate := @Parse.iterate_yields (I := fun ms : List (String × Expr) => ∀ m ∈ ms, m.2.Placed)
    (Q := fun ms : List (String × Expr) => ∀ m ∈ ms, m.2.Placed)
  mvcgen [mapLiteral, hexpression, hiterate]
  all_goals grind

omit hg in
theorem placed_addLinks {e : Expr} {links : List Link} (p : Position) (he : e.Placed) (hl : ∀ l ∈ links, l.Placed) :
    (addLinks e links p).Placed := by
  unfold addLinks
  split
  · cases he with
    | chain hr hb => exact .chain hr (List.forall_mem_append.2 ⟨hb, hl⟩)
  · exact .chain he hl

theorem indexLinks_yields (root : Expr) (optional : Bool) (p : Position) (s : Setting) :
    Parse.Yields (g.indexLinks root optional p s) fun ls => ∀ l ∈ ls, l.Placed := by
  have hexpression := hg.expression
  have hiterate := @Parse.iterate_yields (I := fun st : List Link × Bool × Position × Setting => ∀ l ∈ st.1, l.Placed)
    (Q := fun ls : List Link => ∀ l ∈ ls, l.Placed)
  mvcgen [indexLinks, hexpression, hiterate]
  all_goals grind

omit hg in
theorem dotLinks_yields {rhs : Expr} (h : rhs.Placed) (joint : Joint) :
    Parse.Yields (dotLinks rhs joint) fun ls => ∀ l ∈ ls, l.Placed := by
  mvcgen [dotLinks]
  all_goals grind

theorem postfixed_yields {e : Expr} (he : e.Placed) (s : Setting) : Parse.Yields (g.postfixed e s) Expr.Placed := by
  have hprimary := hg.primary
  have harguments := arguments_yields hg
  have hindex := indexLinks_yields hg
  have hdot := @dotLinks_yields
  have hiterate := @Parse.iterate_yields (I := Expr.Placed) (Q := Expr.Placed)
  mvcgen [postfixed, postfixed.dotted, postfixed.indexed, hprimary, harguments, hindex, hdot, hiterate]
  all_goals grind [placed_addLinks]

omit hg in
/-- An assignment that is not refused goes to a place. -/
theorem assign_yields (op : Option Mark) {target value : Expr} (ht : target.Placed) (hv : value.Placed)
    (p : Position) : Parse.Yields (expressionStatement.assign op target value p) Stmt.Placed := by
  mvcgen [expressionStatement.assign]
  all_goals grind [Expr.IsPlace]

theorem expressionStatement_yields (s : Setting) : Parse.Yields (g.expressionStatement s) Stmt.Placed := by
  have hexpression := hg.expression
  have hassign := @assign_yields
  mvcgen [expressionStatement, hexpression, hassign]
  all_goals grind

theorem block_yields (s : Setting) : Parse.Yields (g.block s) fun b => ∀ s ∈ b.1, s.Placed := by
  have hstatement := hg.statement
  have hexpression := expressionStatement_yields hg
  have hiterate := @Parse.iterate_yields (I := fun ss : List Stmt => ∀ s ∈ ss, s.Placed)
    (Q := fun ss : List Stmt => ∀ s ∈ ss, s.Placed)
  mvcgen [block, block.Parse.expectClose, hstatement, hexpression, hiterate]
  all_goals grind

theorem condition_yields (s : Setting) : Parse.Yields (g.condition s) Expr.Placed := by
  have hexpression := hg.expression
  mvcgen [condition, hexpression]
  all_goals grind

theorem conditional_yields (s : Setting) : Parse.Yields (g.conditional s) Stmt.Placed := by
  have hstatement := hg.statement
  have hcondition := condition_yields hg
  have hblock := block_yields hg
  mvcgen [conditional, hstatement, hcondition, hblock]
  all_goals grind

theorem caseValues_keeps (s : Setting) : Parse.Keeps (g.caseValues s) := by
  have hexpression := hg.expression
  have hvalue : Parse.Yields (do g.expression (← { s with stopsAtPipe := true }.deeper)) Expr.Placed := by
    mvcgen [hexpression]
  have hrun := Parse.yields_iff.1 hvalue
  have hiterate := @Parse.iterate_yields (I := fun _ : List Expr => True) (Q := fun _ : List Expr => True)
  mvcgen [caseValues, hiterate]
  all_goals first
    | exact (hrun _ ‹_› _ _ ‹_›).1
    | grind

omit hg in
theorem literalCases_keeps : ∀ (es : List Expr) (ranged : Bool), Parse.Keeps (literalCases ranged es)
  | [], _ => by
    mvcgen [literalCases]
  | e :: rest, _ => by
    have ih := literalCases_keeps rest
    mvcgen [literalCases, ih]

theorem switching_yields (s : Setting) : Parse.Yields (g.switching s) Stmt.Placed := by
  have hexpression := hg.expression
  have hstatement := hg.statement
  have hcondition := condition_yields hg
  have hvalues := caseValues_keeps hg
  have hliterals := literalCases_keeps
  have hiterate := @Parse.iterate_yields (I := fun st : List Case × Option Position × Bool => ∀ c ∈ st.1, c.Placed)
    (Q := fun cs : List Case => ∀ c ∈ cs, c.Placed)
  mvcgen [switching, switching.unfinished, hexpression, hstatement, hcondition, hvalues, hliterals, hiterate]
  all_goals grind [Stmt.placed_asExpr]

omit hg in
@[spec]
theorem parameterName_keeps (close : Mark) (owner : String) : Parse.Keeps (parameterName close owner) := by
  mvcgen [parameterName]

omit hg in
@[spec]
theorem parameterNames_keeps (function : String) (close : Mark) (owner separated : String) :
    Parse.Keeps (parameterNames function close owner separated) := by
  have hiterate := @Parse.iterate_yields (I := fun _ : List String => True) (Q := fun _ : List String => True)
  mvcgen [parameterNames, hiterate]
  all_goals grind

theorem closure_yields (s : Setting) : Parse.Yields (g.closure s) Expr.Placed := by
  have hstatement := hg.statement
  mvcgen [closure, hstatement] invariants
  · post⟨fun _ c => ⌜c.Placed⌝, fun _ => ⌜True⌝⟩
  · post⟨fun _ c => ⌜c.Placed⌝, fun _ => ⌜True⌝⟩
  all_goals grind [Cursor.Placed, Routine.Placed]

theorem interpolated_yields (s : Setting) : Parse.Yields (g.interpolated s) Expr.Placed := by
  have hblock := block_yields hg
  have hiterate := @Parse.iterate_yields (I := fun es : List Expr => ∀ e ∈ es, e.Placed)
    (Q := fun es : List Expr => ∀ e ∈ es, e.Placed)
  mvcgen [interpolated, hblock, hiterate]
  all_goals grind

theorem operand_yields (s : Setting) : Parse.Yields (g.operand s) Expr.Placed := by
  have hstatement := hg.statement
  have hblock := block_yields hg
  have hconditional := conditional_yields hg
  have hswitching := switching_yields hg
  have hclosure := closure_yields hg
  have hparenthesized := parenthesized_yields hg
  have harray := arrayLiteral_yields hg
  have hmap := mapLiteral_yields hg
  have htext := interpolated_yields hg
  mvcgen [operand, hstatement, hblock, hconditional, hswitching, hclosure, hparenthesized, harray, hmap, htext]
  all_goals grind [Cursor.Placed]

theorem primaryWith_yields (s : Setting) : Parse.Yields (g.primaryWith s) Expr.Placed := by
  have hoperand := operand_yields hg
  have hpostfixed := @postfixed_yields g hg
  mvcgen [primaryWith, hoperand, hpostfixed]
  all_goals grind

theorem unaryWith_yields (s : Setting) : Parse.Yields (g.unaryWith s) Expr.Placed := by
  have hunary := hg.unary
  have hprimary := hg.primary
  mvcgen [unaryWith, hunary, hprimary]
  all_goals grind

omit hg in
theorem join_yields (op : Token) {l r : Expr} (hl : l.Placed) (hr : r.Placed) (p : Position) :
    Parse.Yields (join op l r p) Expr.Placed := by
  mvcgen [join]
  all_goals grind

theorem secondOperand_yields (op : Token) (s : Setting) : Parse.Yields (g.secondOperand op s) Expr.Placed := by
  have hunary := hg.unary
  have hstatement := hg.statement
  mvcgen [secondOperand, hunary, hstatement]
  all_goals grind

theorem binaryWith_yields (strength : Nat) {e : Expr} (he : e.Placed) (s : Setting) :
    Parse.Yields (g.binaryWith strength e s) Expr.Placed := by
  have hbinary := @hg.binary
  have hsecond := secondOperand_yields hg
  have hjoin := @join_yields
  have hiterate := @Parse.iterate_yields (I := fun st : Expr × Setting => st.1.Placed) (Q := Expr.Placed)
  mvcgen [binaryWith, hbinary, hsecond, hjoin, hiterate]
  all_goals grind

theorem expressionWith_yields (s : Setting) : Parse.Yields (g.expressionWith s) Expr.Placed := by
  have hunary := hg.unary
  have hbinary := @hg.binary
  mvcgen [expressionWith, hunary, hbinary]
  all_goals grind

end Grammar
end Lang
end ArmPilot
