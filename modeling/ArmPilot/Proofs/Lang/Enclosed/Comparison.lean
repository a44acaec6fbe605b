import ArmPilot.Proofs.Lang.Enclosed.Statement
import ArmPilot.Proofs.Lang.Enclosed.Tokens

/-!
# Comparisons with a text between parentheses

A comparison of a name with a text between parentheses is read as the comparison of the variable with what the text is
read as alone (`Bounds.parseExpression_comparison`).
-/

namespace ArmPilot
namespace Lang

namespace Parse

variable {α β : Type}

theorem run_bind_of {m : Parse α} {f : α → Parse β} {c d : Cursor} {a : α} {r : Except SyntaxError (β × Cursor)}
    (h : m.run c = .ok (a, d)) (hf : (f a).run d = r) : (m >>= f).run c = r := (ok_bind h f).trans hf

theorem iterate_once {step : α → Parse (α ⊕ β)} {a : α} {b : β} {c d : Cursor} (h : (step a).run c = .ok (.inr b, d)) :
    (iterate step a).run c = .ok (b, d) :=
  run_bind_of rfl (run_bind_of h rfl)

theorem iterate_twice {step : α → Parse (α ⊕ β)} {a : α} {b : β} {c d' : Cursor} (a' : α) (d : Cursor)
    (hc : c.tokens ≠ []) (h : (step a).run c = .ok (.inl a', d)) (h' : (step a').run d = .ok (.inr b, d')) :
    (iterate step a).run c = .ok (b, d') := by
  obtain ⟨n, hn⟩ := Nat.exists_eq_add_one_of_ne_zero fun h => hc (List.length_eq_zero_iff.1 h)
  refine run_bind_of rfl (run_bind_of h ?_)
  show (iterate.rounds step c.tokens.length a').run d = _
  rw [hn]
  exact run_bind_of h' rfl

end Parse

namespace Bounds

/-- Bounds with so many levels of nesting fewer. -/
def lowered (b : Bounds) (n : Nat) : Bounds := { b with depth := b.depth - n }

variable {b : Bounds} {name : String} {op : Mark} {e : Expr} {t : Token × Position} {ts : Tokens} {p q r u v : Position}
  {d : Cursor} {depth : Nat}

/-- The setting of a comparison, so many levels deep. -/
def level (b : Bounds) (n : Nat) (p : Position) : Setting := { b.setting false with level := n, pos := p }

theorem deeper_run {n : Nat} (h : b.depth = 0 ∨ n < b.depth) (p : Position) (c : Cursor) :
    ((b.level n p).deeper).run c = .ok (b.level (n + 1) p, c) := by
  have hroom : ¬((b.level n p).limit > 0 ∧ (b.level n p).level + 1 > (b.level n p).limit) := by
    simp only [level, setting]
    omega
  rw [Setting.deeper, if_neg hroom]
  rfl

/-- What stands between parentheses is read as far as the closing one. -/
theorem parenthesized_run (hdepth : b.depth = 0 ∨ 3 < b.depth)
    (hinner : ((grammar depth).expression (b.level 3 r)).run ⟨t :: ts, [], 0, [(name, some p)], true, []⟩ = .ok (e, d))
    (hd : d.tokens = [(.mark .rightParen, q), (.ended, u)]) :
    ((grammar depth).parenthesized (b.level 2 r)).run
      ⟨(.mark .leftParen, r) :: t :: ts, [], 0, [(name, some p)], true, []⟩ =
        .ok (e, { d with tokens := [(.ended, u)] }) := by
  obtain ⟨tokens, locals, start, externals, captures, routines⟩ := d
  obtain rfl : tokens = _ := hd
  unfold Grammar.parenthesized
  refine Parse.run_bind_of rfl (Parse.run_bind_of (deeper_run (n := 2) (by omega) r _) (Parse.run_bind_of hinner ?_))
  exact Parse.run_bind_of rfl rfl

theorem unary_run (hdepth : b.depth = 0 ∨ 3 < b.depth)
    (hinner : ((grammar depth).expression (b.level 3 r)).run ⟨t :: ts, [], 0, [(name, some p)], true, []⟩ = .ok (e, d))
    (hd : d.tokens = [(.mark .rightParen, q), (.ended, u)]) :
    ((grammar (depth + 2)).unary (b.level 2 v)).run
      ⟨(.mark .leftParen, r) :: t :: ts, [], 0, [(name, some p)], true, []⟩ =
        .ok (e, { d with tokens := [(.ended, u)] }) := by
  show ((grammar (depth + 1)).unaryWith _).run _ = _
  refine Parse.run_bind_of rfl ?_
  show ((grammar depth).primaryWith (b.level 2 r)).run _ = _
  refine Parse.run_bind_of rfl (Parse.run_bind_of (parenthesized_run hdepth hinner hd) ?_)
  exact Parse.iterate_once rfl

/-- The comparison and what stands behind it are taken, and nothing is left. -/
theorem binary_run (hop : op.compares = true) (hdepth : b.depth = 0 ∨ 3 < b.depth)
    (hinner : ((grammar depth).expression (b.level 3 r)).run ⟨t :: ts, [], 0, [(name, some p)], true, []⟩ = .ok (e, d))
    (hd : d.tokens = [(.mark .rightParen, q), (.ended, u)]) :
    ((grammar (depth + 3)).binary 1 (.var name false (some p)) (b.level 1 p)).run
      ⟨(.mark op, v) :: (.mark .leftParen, r) :: t :: ts, [], 0, [(name, some p)], true, []⟩ =
        .ok (.call op.text (some op) [.var name false (some p), e] (some v), { d with tokens := [(.ended, u)] }) := by
  have hunary := unary_run (v := v) hdepth hinner hd
  show ((grammar (depth + 2)).binaryWith 1 _ _).run _ = _
  have hsecond : ((grammar (depth + 2)).secondOperand (.mark op) (b.level 2 v)).run
      ⟨(.mark .leftParen, r) :: t :: ts, [], 0, [(name, some p)], true, []⟩ =
        .ok (e, { d with tokens := [(.ended, u)] }) := by
    unfold Grammar.secondOperand
    refine Parse.run_bind_of rfl ?_
    cases op <;> exact hunary
  let compared : Expr := .call op.text (some op) [.var name false (some p), e] (some v)
  let left : Cursor := { d with tokens := [(.ended, u)] }
  refine Parse.iterate_twice (compared, b.level 2 v) left (List.cons_ne_nil _ _) ?_ rfl
  cases op <;> cases hop
  all_goals
    refine Parse.run_bind_of rfl (Parse.run_bind_of rfl (Parse.run_bind_of (deeper_run (n := 1) (by omega) p _) ?_))
    exact Parse.run_bind_of hsecond (Parse.run_bind_of rfl (Parse.run_bind_of rfl (Parse.run_bind_of rfl rfl)))

/-- A name in front of a comparison is a variable. -/
theorem expression_run {e' : Expr} {d' : Cursor} (hop : op.compares = true)
    (hbinary : ((grammar (depth + 3)).binary 1 (.var name false (some p)) (b.level 1 p)).run
      ⟨(.mark op, q) :: t :: ts, [], 0, [(name, some p)], true, []⟩ = .ok (e', d')) :
    ((grammar (depth + 4)).expression (b.setting false)).run
      ⟨(.identifier name, p) :: (.mark op, q) :: t :: ts, [], 0, [], true, []⟩ = .ok (e', d') := by
  have hvariable : ((grammar (depth + 3)).unary (b.level 1 p)).run
      ⟨(.identifier name, p) :: (.mark op, q) :: t :: ts, [], 0, [], true, []⟩ =
        .ok (.var name false (some p), ⟨(.mark op, q) :: t :: ts, [], 0, [(name, some p)], true, []⟩) := by
    cases op <;> cases hop
    all_goals rfl
  show ((grammar (depth + 3)).expressionWith _).run _ = _
  refine Parse.run_bind_of rfl (Parse.run_bind_of (deeper_run (Nat.eq_zero_or_pos _) p _) ?_)
  exact Parse.run_bind_of hvariable hbinary

/-- If the text between the parentheses of a comparison is an expression, the comparison is one. -/
theorem comparison_run {small : Nat} {alone : Tokens} (name : String) (p q r : Position) (hop : op.compares = true)
    (hdepth : b.depth = 0 ∨ 3 < b.depth) (hsmall : small ≤ depth) (htokens : Enclosed alone ts)
    (hd : ((grammar small).expression ((b.lowered 3).setting false)).run ⟨alone, [], 0, [], true, []⟩ = .ok (e, d))
    (hended : (Tokens.head d.tokens).1 = .ended) :
    ∃ d' u, ((grammar (depth + 4)).expression (b.setting false)).run
        ⟨(.identifier name, p) :: (.mark op, q) :: (.mark .leftParen, r) :: ts, [], 0, [], true, []⟩ =
          .ok (.call op.text (some op) [.var name false (some p), e] (some q), d') ∧
      d'.tokens = [(.ended, u)] ∧ d'.routines = d.routines := by
  have hleaves : ((b.lowered 3).setting false).Leaves 3 b.depth := by
    simp only [Setting.Leaves, lowered, setting]
    omega
  have hbeside : Cursor.Beside false ⟨alone, [], 0, [], true, []⟩ ⟨ts, [], 0, [(name, some p)], true, []⟩ :=
    ⟨htokens, fun h => absurd h Bool.false_ne_true⟩
  have hreads : Parse.Reads false ((grammar small).expression ((b.lowered 3).setting false))
      ((grammar depth).expression (b.level 3 r)) := (grammar_agree hsmall).expression hleaves
  obtain ⟨_, _, hinner, rfl, ⟨hrest, -⟩⟩ := hreads _ _ _ _ hbeside hd
  obtain ⟨v, u, rfl⟩ := hrest.eq_of_head hended
  obtain ⟨t, rest, rfl⟩ := List.exists_cons_of_ne_nil htokens.ne_nil
  exact ⟨_, u, expression_run hop (binary_run hop hdepth hinner rfl), rfl, rfl⟩

/-- A text that is an expression is read to its end. -/
theorem exists_of_parseExpression {first : Nat} {text : String} {rs : List Routine}
    (h : b.parseExpression first text = .ok ⟨[.expr e], first, rs⟩) :
    ∃ d, ((grammar (fuel (b.cursor text))).expression (b.setting false)).run (b.cursor text) = .ok (e, d) ∧
      (Tokens.head d.tokens).1 = .ended ∧ rs = d.routines.reverse := by
  unfold parseExpression at h
  cases hr : ((grammar (fuel (b.cursor text))).expression (b.setting false)).run (b.cursor text) with
  | error f =>
    have hrun : (b.expression (grammar (fuel (b.cursor text)))).run (b.cursor text) = .error f := Parse.error_bind hr _
    simp only [hrun] at h
    cases h
  | ok r =>
    obtain ⟨a, d⟩ := r
    rcases hx : Tokens.head d.tokens with ⟨t, q⟩
    have hpeek : Parse.peek.run d = .ok ((t, q), d) := congrArg (fun x => Except.ok (x, d)) hx
    cases t with
    | ended =>
      have hrun : (b.expression (grammar (fuel (b.cursor text)))).run (b.cursor text) = .ok (a, d) :=
        Parse.run_bind_of hr (Parse.run_bind_of hpeek rfl)
      simp only [hrun] at h
      cases h
      exact ⟨d, rfl, congrArg Prod.fst hx, rfl⟩
    | _ =>
      have hrun : (b.expression (grammar (fuel (b.cursor text)))).run (b.cursor text) =
          .error ⟨.lexical (.unexpected _), some q⟩ := Parse.run_bind_of hr (Parse.run_bind_of hpeek rfl)
      simp only [hrun] at h
      cases h

theorem parseExpression_of_run {first : Nat} {text : String}
    (h : ((grammar (fuel (b.cursor text))).expression (b.setting false)).run (b.cursor text) = .ok (e, d))
    (hd : d.tokens = [(.ended, u)]) : b.parseExpression first text = .ok ⟨[.expr e], first, d.routines.reverse⟩ := by
  have hrun : (b.expression (grammar (fuel (b.cursor text)))).run (b.cursor text) = .ok (e, d) :=
    Parse.run_bind_of h (Parse.run_bind_of (Parse.peek_run hd) rfl)
  rw [parseExpression, hrun]

/-- **A comparison of a name with a text between parentheses is the comparison of the variable with what the text is
alone.**  The text needs three levels of nesting less when it stands alone, and blanks in front of it, so that everything
in it keeps its position. -/
theorem parseExpression_comparison (b : Bounds) (first : Nat) {text : String} {rs : List Routine}
    (hname : isReadable name = true) (hop : op.compares = true) (hdepth : b.depth = 0 ∨ 3 < b.depth)
    (htext : KeepsTokens b.maxString (name.length + op.text.length + 2) text)
    (hparse : (b.lowered 3).parseExpression first (blanks (name.length + op.text.length + 3) ++ text) =
      .ok ⟨[.expr e], first, rs⟩) :
    b.parseExpression first (comparison name op text) =
      .ok ⟨[.expr (.call op.text (some op) [.var name false (some ⟨1, 1⟩), e] (some ⟨1, name.length + 2⟩))], first,
        rs⟩ := by
  obtain ⟨p, ts, hcomparison, htokens⟩ := tokenize_comparison hname hop htext
  obtain ⟨d, hd, hended, rfl⟩ := exists_of_parseExpression hparse
  have hcursor : b.cursor (comparison name op text) =
      ⟨(.identifier name, ⟨1, 1⟩) :: (.mark op, ⟨1, name.length + 2⟩) :: (.mark .leftParen, p) :: ts, [], 0, [], true,
        []⟩ := by
    rw [cursor, hcomparison]
  generalize blanks (name.length + op.text.length + 3) ++ text = alone at htokens hd
  have hfuel : fuel (b.cursor (comparison name op text)) = fuel ((b.lowered 3).cursor alone) + 28 + 4 := by
    have hlength : ts.length = ((b.lowered 3).cursor alone).tokens.length + 1 := htokens.length_eq
    rw [hcursor, fuel, fuel, List.length_cons, List.length_cons, List.length_cons, hlength]
    omega
  obtain ⟨d', u, hrun, hrest, hroutines⟩ :=
    comparison_run name ⟨1, 1⟩ ⟨1, name.length + 2⟩ p hop hdepth (Nat.le_add_right _ 28) htokens hd hended
  rw [← hroutines]
  refine parseExpression_of_run ?_ hrest
  rw [hfuel, hcursor]
  exact hrun

end Bounds
end Lang
end ArmPilot
