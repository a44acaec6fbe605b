import ArmPilot.Lang.Parser.Statement
import ArmPilot.Proofs.Lang.Parser.Expression

/-!
# Placed statements

Statements are placed because their parts are, and whole scripts by induction on how deep the parser goes
(`grammar_sound`).
-/

open Std.Do

set_option mvcgen.warning false

namespace ArmPilot
namespace Lang
namespace Grammar

@[spec]
theorem closing_keeps (purpose : String) : Parse.Keeps (closing purpose) := by
  mvcgen [closing]

@[spec]
theorem loopVariables_keeps : Parse.Keeps loopVariables := by
  mvcgen [loopVariables]

@[spec]
theorem functionName_keeps : Parse.Keeps functionName := by
  mvcgen [functionName, functionName.name]

variable {g : Grammar} (hg : g.Sound)

include hg

theorem declaration_yields (readOnly : Bool) (s : Setting) : Parse.Yields (g.declaration readOnly s) Stmt.Placed := by
  have hexpression := hg.expression
  mvcgen [declaration, hexpression]
  all_goals grind

theorem whileLoop_yields (s : Setting) : Parse.Yields (g.whileLoop s) Stmt.Placed := by
  have hcondition := condition_yields hg
  have hblock := block_yields hg
  mvcgen [whileLoop, hcondition, hblock]
  all_goals grind

theorem doLoop_yields (s : Setting) : Parse.Yields (g.doLoop s) Stmt.Placed := by
  have hcondition := condition_yields hg
  have hblock := block_yields hg
  mvcgen [doLoop, hcondition, hblock]
  all_goals grind

theorem forLoop_yields (s : Setting) : Parse.Yields (g.forLoop s) Stmt.Placed := by
  have hexpression := hg.expression
  have hblock := block_yields hg
  mvcgen [forLoop, hexpression, hblock]
  all_goals grind

theorem tryBlock_yields (s : Setting) : Parse.Yields (g.tryBlock s) Stmt.Placed := by
  have hblock := block_yields hg
  mvcgen [tryBlock, hblock]
  all_goals grind

theorem function_yields (p : Position) (s : Setting) : Parse.Yields (g.function p s) Stmt.Placed := by
  have hblock := block_yields hg
  mvcgen [function, hblock]
  all_goals grind [Cursor.Placed, Routine.Placed]

theorem leavingValue_yields (s : Setting) : Parse.Yields (g.leavingValue s) fun v => ∀ e ∈ v, e.Placed := by
  have hexpression := hg.expression
  mvcgen [leavingValue, hexpression]
  all_goals grind

theorem statementWith_yields (s : Setting) : Parse.Yields (g.statementWith s) Stmt.Placed := by
  have hblock := block_yields hg
  have hfunction := function_yields hg
  have hconditional := conditional_yields hg
  have hswitching := switching_yields hg
  have hwhile := whileLoop_yields hg
  have hdo := doLoop_yields hg
  have hfor := forLoop_yields hg
  have htry := tryBlock_yields hg
  have hdeclaration := declaration_yields hg
  have hvalue := leavingValue_yields hg
  have hexpression := expressionStatement_yields hg
  mvcgen [statementWith, hblock, hfunction, hconditional, hswitching, hwhile, hdo, hfor, htry, hdeclaration, hvalue,
    hexpression]
  all_goals grind

end Grammar

/-- However deep code is nested, what is read is placed. -/
theorem grammar_sound : ∀ depth, (grammar depth).Sound
  | 0 =>
    { expression := fun _ => by mvcgen [grammar]
      unary := fun _ => by mvcgen [grammar]
      primary := fun _ => by mvcgen [grammar]
      binary := fun _ _ _ _ => by mvcgen [grammar]
      statement := fun _ => by mvcgen [grammar] }
  | depth + 1 =>
    have ih := grammar_sound depth
    { expression := Grammar.expressionWith_yields ih
      unary := Grammar.unaryWith_yields ih
      primary := Grammar.primaryWith_yields ih
      binary := fun strength _ he s => Grammar.binaryWith_yields ih strength he s
      statement := Grammar.statementWith_yields ih }

namespace Bounds

theorem statements_yields (b : Bounds) {g : Grammar} (hg : g.Sound) :
    Parse.Yields (b.statements g) fun ss => ∀ s ∈ ss, s.Placed := by
  have hstatement := hg.statement
  have hiterate := @Parse.iterate_yields (I := fun ss : List Stmt => ∀ s ∈ ss, s.Placed)
    (Q := fun ss : List Stmt => ∀ s ∈ ss, s.Placed)
  mvcgen [statements, hstatement, hiterate]
  all_goals grind

theorem expression_yields (b : Bounds) {g : Grammar} (hg : g.Sound) : Parse.Yields (b.expression g) Expr.Placed := by
  have hexpression := hg.expression
  mvcgen [expression, hexpression]
  all_goals grind

theorem cursor_placed (b : Bounds) (text : String) : (b.cursor text).Placed :=
  fun _ h => nomatch h

/-- All assignments of a script that is read go to places. -/
theorem placed_of_parseScript {b : Bounds} {first : Nat} {text : String} {p : Program}
    (h : b.parseScript first text = .ok p) : p.Placed := by
  unfold parseScript at h
  dsimp only at h
  split at h
  · cases h
  · rename_i body c hr
    cases h
    obtain ⟨hc, hb⟩ := Parse.yields_iff.1 (b.statements_yields (grammar_sound _)) _ (b.cursor_placed text) _ _ hr
    exact ⟨hb, fun r hr => hc r (List.mem_reverse.1 hr)⟩

/-- All assignments of an expression that is read go to places. -/
theorem placed_of_parseExpression {b : Bounds} {first : Nat} {text : String} {p : Program}
    (h : b.parseExpression first text = .ok p) : p.Placed := by
  unfold parseExpression at h
  dsimp only at h
  split at h
  · cases h
  · rename_i e c hr
    cases h
    obtain ⟨hc, he⟩ := Parse.yields_iff.1 (b.expression_yields (grammar_sound _)) _ (b.cursor_placed text) _ _ hr
    exact ⟨List.forall_mem_singleton.2 (.expr he), fun r hr => hc r (List.mem_reverse.1 hr)⟩

end Bounds

end Lang
end ArmPilot
