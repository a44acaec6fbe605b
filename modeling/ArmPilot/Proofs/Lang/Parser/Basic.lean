import Mathlib
import ArmPilot.Lang.Parser.Basic
import ArmPilot.Proofs.Lang.Places

/-!
# The parser places assignments

The parser refuses an assignment to what cannot hold a value when it reads it.  So the code that it builds is placed, in
what it gives as its result and in the functions and closures that it collects on the way (`Cursor.Placed`).
-/

open Std.Do

set_option mvcgen.warning false

namespace ArmPilot
namespace Lang

/-- All assignments in the functions and closures parsed so far go to places. -/
def Cursor.Placed (c : Cursor) : Prop := ∀ r ∈ c.routines, r.Placed

namespace Parse

variable {α β : Type}

/-- A step of a parser keeps the functions placed, and gives a result for which something holds. -/
abbrev Yields (m : Parse α) (Q : α → Prop) : Prop :=
  ⦃fun c => ⌜c.Placed⌝⦄ m ⦃post⟨fun a c => ⌜c.Placed ∧ Q a⌝, fun _ => ⌜True⌝⟩⦄

/-- A step of a parser keeps the functions placed. -/
abbrev Keeps (m : Parse α) : Prop :=
  ⦃fun c => ⌜c.Placed⌝⦄ m ⦃post⟨fun _ c => ⌜c.Placed⌝, fun _ => ⌜True⌝⟩⦄

theorem yields_iff {m : Parse α} {Q : α → Prop} :
    Yields m Q ↔ ∀ c, c.Placed → ∀ a c', m.run c = .ok (a, c') → c'.Placed ∧ Q a := by
  refine forall_congr' fun c => imp_congr_right fun _ => ?_
  rcases hr : m.run c with e | ⟨a, c'⟩
  · simp [wp, hr]
    exact trivial
  · simp [wp, hr]
    exact Iff.rfl

@[spec high]
theorem throw_spec {e : SyntaxError} {Q : PostCond α (.arg Cursor (.except SyntaxError .pure))} :
    ⦃fun _ => Q.2.1 e⦄ (throw e : Parse α) ⦃Q⦄ :=
  fun _ h => h

@[spec]
theorem refuse_spec {r : Refusal} {p : Position} {Q : PostCond α (.arg Cursor (.except SyntaxError .pure))} :
    ⦃fun _ => Q.2.1 ⟨r, some p⟩⦄ (refuse r p : Parse α) ⦃Q⦄ := throw_spec

@[spec]
theorem next_keeps : Keeps next := by
  mvcgen [next]

@[spec]
theorem peek_keeps : Keeps peek := by
  mvcgen [peek]

@[spec]
theorem accept_keeps (t : Token) : Keeps (accept t) := by
  mvcgen [accept]

@[spec]
theorem acceptMark_keeps (m : Mark) : Keeps (acceptMark m) := accept_keeps _

@[spec]
theorem missing_spec {t : Token} {p : Position} {what purpose : String}
    {Q : PostCond α (.arg Cursor (.except SyntaxError .pure))} :
    ⦃fun _ => SPred.forall fun e => Q.2.1 e⦄ (missing t p what purpose : Parse α) ⦃Q⦄ := by
  unfold missing
  split
  · exact fun _ h => h _
  · exact fun _ h => h _

@[spec]
theorem expectMark_keeps (m : Mark) (purpose : String) : Keeps (expectMark m purpose) := by
  mvcgen [expectMark]
  exact fun _ => trivial

theorem iterate_yields {step : α → Parse (α ⊕ β)} (I : α → Prop) (Q : β → Prop)
    (h : ∀ a, I a → Yields (step a) (Sum.elim I Q)) {start : α} (hs : I start) : Yields (iterate step start) Q := by
  have hrounds : ∀ n a, I a → Yields (iterate.rounds step n a) Q := by
    intro n
    induction n with
    | zero =>
      intro a ha
      mvcgen [iterate.rounds]
    | succ n ih =>
      intro a ha
      have hstep := h a ha
      mvcgen [iterate.rounds, hstep, ih]
      all_goals simp_all
  mvcgen [iterate, hrounds]

@[spec]
theorem refuseBlock_keeps (kind : String) : Keeps (refuseBlock kind) := by
  mvcgen [refuseBlock]

@[spec]
theorem refuseAssignment_keeps : Keeps refuseAssignment := by
  mvcgen [refuseAssignment]

@[spec]
theorem variableName_keeps : Keeps variableName := by
  mvcgen [variableName]

@[spec]
theorem isFunction_keeps (name : String) : Keeps (isFunction name) := by
  mvcgen [isFunction]

@[spec]
theorem access_keeps (name : String) (p : Place) : Keeps (access name p) := by
  mvcgen [access]

@[spec]
theorem declare_keeps (name : String) (readOnly : Bool) : Keeps (declare name readOnly) := by
  mvcgen [declare]

@[spec]
theorem redeclare_keeps (name : String) (readOnly : Bool) : Keeps (redeclare name readOnly) := by
  mvcgen [redeclare]

@[spec]
theorem forget_keeps (n : Nat) : Keeps (forget n) := by
  mvcgen [forget]

end Parse

namespace Setting

@[spec]
theorem deeper_keeps (s : Setting) : Parse.Keeps s.deeper := by
  mvcgen [deeper]

@[spec]
theorem deeperAt_keeps (s : Setting) (p : Position) : Parse.Keeps (s.deeperAt p) := deeper_keeps _

end Setting

namespace Expr

@[spec]
theorem asCondition_yields {e : Expr} (h : e.Placed) : Parse.Yields e.asCondition Expr.Placed := by
  mvcgen [asCondition]

@[spec]
theorem asIterable_yields {e : Expr} (h : e.Placed) : Parse.Yields e.asIterable Expr.Placed := by
  mvcgen [asIterable]
  subst_vars
  exact ⟨‹_›, h⟩

end Expr

namespace Grammar

/-- The parsers of nested code keep the functions placed, and so is what they read. -/
structure Sound (g : Grammar) : Prop where
  expression : ∀ s, Parse.Yields (g.expression s) Expr.Placed
  unary : ∀ s, Parse.Yields (g.unary s) Expr.Placed
  primary : ∀ s, Parse.Yields (g.primary s) Expr.Placed
  binary : ∀ strength {e}, e.Placed → ∀ s, Parse.Yields (g.binary strength e s) Expr.Placed
  statement : ∀ s, Parse.Yields (g.statement s) Stmt.Placed

end Grammar

end Lang
end ArmPilot
