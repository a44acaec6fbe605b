import ArmPilot.Command.Kinds
import ArmPilot.Proofs.Lang.Enclosed.Comparison
import ArmPilot.Proofs.Sandbox.Readable

/-!
# Tests of variables

A test compares a variable with an expression, which it puts between parentheses.  If the parentheses hold nothing but
the expression, the test holds exactly if the variable and the expression have values that compare, and where one of
them has no value, it does not hold (`Command.testVariable_tests`).
-/

namespace ArmPilot

open Lang (Value Mark Expr Routine Place Store Interrupt)

variable {σ : Type}

namespace Lang

/-! ## Comparisons of values -/

theorem exists_compared {op : Mark} (h : op.compares = true) (less greater equal : Bool) :
    ∃ b, compared op less greater equal = some b := by
  cases op <;> first | exact ⟨_, rfl⟩ | cases h

theorem exists_compareFloats {op : Mark} (h : op.compares = true) (x y : Float) :
    ∃ b, compareFloats op x y = some b := by
  cases op <;> first | exact ⟨_, rfl⟩ | cases h

/-- A comparison gives a truth value if it gives anything. -/
theorem plainOperator_of_compares {op : Mark} {l r v : Value} (h : op.compares = true)
    (hv : plainOperator op l r = some (.ok v)) : ∃ b, v = .bool b := by
  have hreal (x y : Float) (hv : plainOperator.real op x y = some (.ok v)) : ∃ b, v = .bool b := by
    obtain ⟨b, hb⟩ := exists_compareFloats h x y
    rw [plainOperator.real, hb] at hv
    cases hv
    exact ⟨b, rfl⟩
  have htext (s t : String) (hv : textOperator op l r s t = some (.ok v)) : ∃ b, v = .bool b := by
    obtain ⟨b, hb⟩ := exists_compared h (s < t) (t < s) (s == t)
    unfold textOperator compareTexts at hv
    rw [hb] at hv
    cases hv
    exact ⟨b, rfl⟩
  have hanswered (x : Except Cause Bool) (hv : plainOperator.answered l x = some (.ok v)) : ∃ b, v = .bool b := by
    unfold plainOperator.answered at hv
    split at hv
    · cases hv
      exact ⟨_, rfl⟩
    · split at hv <;> cases hv
  unfold plainOperator at hv
  split at hv
  case h_1 a b =>
    obtain ⟨t, ht⟩ := exists_compared h (a < b) (b < a) (a == b)
    rw [ht] at hv
    cases hv
    exact ⟨t, rfl⟩
  case h_5 a b =>
    obtain ⟨t, ht⟩ := exists_compared h (!a && b) (a && !b) (a == b)
    rw [ht] at hv
    cases hv
    exact ⟨t, rfl⟩
  case h_6 =>
    obtain ⟨t, ht⟩ := exists_compared h false false true
    rw [ht] at hv
    cases hv
    exact ⟨_, rfl⟩
  case h_7 =>
    split at hv
    · exact htext _ _ hv
    · split at hv
      any_goals cases h
      split at hv
      · exact hanswered _ hv
      · exact hanswered _ hv
      · split at hv
        · cases hv
        · cases hv
          exact ⟨false, rfl⟩
  all_goals exact hreal _ _ hv

theorem binaryOperator_of_compares {op : Mark} {l r v : Value} (h : op.compares = true)
    (hv : binaryOperator op l r = some (.ok v)) : ∃ b, v = .bool b := by
  refine plainOperator_of_compares h (l := l) (r := r) ?_
  cases op <;> first | exact hv | cases h

theorem joinedOperands_of_compares {op : Mark} (h : op.compares = true) (limits : Limits) (l r : Value) :
    joinedOperands limits op l r = (l, r) := by
  cases op <;> first | rfl | cases h

/-! ## The evaluation of a comparison -/

namespace Eval

variable {m : Machine σ} {env : Env σ} {op : Mark} {v w : Value} {p : Place} {s t : Store σ}

/-- The values of two expressions, one after the other. -/
def operands (m : Machine σ) (env : Env σ) (l r : Expr) : Eval σ (Value × Value) := do
  let v ← flat (← m.eval env l)
  let w ← flat (← m.eval env r)
  return (v, w)

/-- What an infix operator gives of two values. -/
def outcome (env : Env σ) (op : Mark) (v w : Value) (p : Place) : Eval σ Value := do
  match binaryOperator op v w with
  | some o =>
    let u ← ofOutcome o p
    checkSize env u p
    return u
  | none => fail (.functionNotFound (callSignature op.text [v, w])) p

/-- What an infix operator does with two values. -/
def combine (env : Env σ) (op : Mark) (v w : Value) (p : Place) : Eval σ Value := do
  if !isDirect op v w then tick env p
  outcome env op v w p

theorem valueOf_comparison (h : op.compares = true) (m : Machine σ) (env : Env σ) (name : String) (l r : Expr)
    (p : Place) :
    valueOf m env (.call name (some op) [l, r] p) = operands m env l r >>= fun x => combine env op x.1 x.2 p := by
  simp only [operands, bind_assoc, pure_bind]
  refine bind_congr fun _ => bind_congr fun a => bind_congr fun _ => bind_congr fun b => ?_
  rw [joinedOperands_of_compares h]
  rfl

/-- Whether two values compare, and the step is granted that their comparison may take. -/
def Compare (env : Env σ) (op : Mark) (v w : Value) (p : Place) (s : Store σ) : Prop :=
  (isDirect op v w = true ∨ ((tick env p).run.run s).1 = .ok ()) ∧ binaryOperator op v w = some (.ok (.bool true))

/-- Whether an evaluation ends with a truth value or fails. -/
def Decides (r : Except Interrupt Value) : Prop := (∃ b, r = .ok (.bool b)) ∨ ∃ f, r = .error (.failure f)

/-- A step is granted, or the script fails. -/
theorem tick_fst (env : Env σ) (p : Place) (s : Store σ) :
    ((tick env p).run.run s).1 = .ok () ∨ ∃ f, ((tick env p).run.run s).1 = .error (.failure f) := by
  rw [tick, Failing.run_get_bind]
  dsimp only
  split
  · exact .inr ⟨_, rfl⟩
  · cases hgoes : (env.host.progress s.outer).1 with
    | true => exact .inl (by rw [Failing.run_bind, if_pos rfl]; rfl)
    | false => exact .inr ⟨_, by rw [Failing.run_bind, if_neg Bool.false_ne_true]; rfl⟩

theorem outcome_fst (h : op.compares = true) (env : Env σ) (v w : Value) (p : Place) (s : Store σ) :
    (((outcome env op v w p).run.run s).1 = .ok (.bool true) ↔ binaryOperator op v w = some (.ok (.bool true))) ∧
      Decides ((outcome env op v w p).run.run s).1 := by
  unfold outcome
  match hv : binaryOperator op v w with
  | none => exact ⟨⟨nofun, nofun⟩, .inr ⟨_, rfl⟩⟩
  | some (.error c) => exact ⟨⟨nofun, nofun⟩, .inr ⟨_, rfl⟩⟩
  | some (.ok u) =>
    obtain ⟨b, rfl⟩ := binaryOperator_of_compares h hv
    refine ⟨?_, .inl ⟨b, rfl⟩⟩
    show Except.ok (Value.bool b) = _ ↔ _
    simp

/-- A comparison of two values decides; it holds exactly if they compare. -/
theorem combine_fst (h : op.compares = true) (env : Env σ) (v w : Value) (p : Place) (s : Store σ) :
    (((combine env op v w p).run.run s).1 = .ok (.bool true) ↔ Compare env op v w p s) ∧
      Decides ((combine env op v w p).run.run s).1 := by
  unfold combine Compare
  cases hdirect : isDirect op v w with
  | true => simpa using outcome_fst h env v w p s
  | false =>
    rw [Bool.not_false, if_pos rfl, Failing.run_bind]
    rcases htick : (tick env p).run.run s with ⟨r, t⟩
    obtain hr | ⟨f, hr⟩ := tick_fst env p s
    · obtain rfl : r = .ok () := (congrArg Prod.fst htick).symm.trans hr
      simpa using outcome_fst h env v w p t
    · obtain rfl : r = .error (.failure f) := (congrArg Prod.fst htick).symm.trans hr
      exact ⟨by simp, .inr ⟨f, rfl⟩⟩

end Eval

/-- A script that consists of a call counts a step and comes to what the call comes to. -/
theorem Program.eval_call (host : Host σ) (limits : Limits) (s : Store σ) {t : Store σ} {e : Expr}
    {r : Except Interrupt Value} (first : Nat) (rs : List Routine) (hcall : e.isCall = true)
    (hvalue : let env : Env σ := ⟨host, limits, first, rs.toArray, 0, s.scope.length⟩
      (do
        Eval.tick env e.start
        Eval.valueOf (machine σ (Eval.endless - 1)) env e).run.run
          { s with operations := 0, this := none, globals := [] } = (r, t)) :
    (Program.eval host limits Eval.endless ⟨[.expr e], first, rs⟩).run.run s =
      (ending (r.map (Value.flat t.cells)) t, t) := by
  obtain ⟨depth, hdepth⟩ : ∃ depth, Eval.endless = depth + 1 := ⟨Word.count - 1, rfl⟩
  rw [hdepth, Nat.add_sub_cancel] at hvalue
  let start : Store σ := { s with operations := 0, this := none, globals := [] }
  let env : Env σ := ⟨host, limits, first, rs.toArray, 0, s.scope.length⟩
  have hexec : ((machine σ (depth + 1)).exec env (.expr e)).run.run start = (r.map (Value.flat t.cells), t) := by
    show (Eval.execWith (machine σ depth) env (.expr e)).run.run start = _
    rw [Eval.execWith]
    dsimp only
    rw [hcall, if_pos rfl, ← bind_assoc]
    exact Eval.bind_flat_run hvalue
  exact eval_statement host limits s first rs (hdepth ▸ hexec)

end Lang

/-! ## Tests -/

/-- What an expression is evaluated with that is a script of its own in a scene. -/
def Scene.env (o : Outside σ) (s : Scene σ) (rs : List Routine) : Lang.Env (World σ) :=
  ⟨Devices.host o s.sandbox.sleepPoll, s.sandbox.limits, s.sandbox.routines, rs.toArray, 0, s.sandbox.scope.length⟩

/-- What the end of a script is to the sandbox. -/
def Act.answer : Except Interrupt Value → Except Breakdown (Except SandboxError Value)
  | .ok v => .ok (.ok v)
  | .error (.failure f) => .ok (.error (.failed f))
  | .error (.panic b) => .error b
  | .error _ => .ok (.error .exhausted)

theorem Act.evalProgram_fst (o : Outside σ) (p : Lang.Program) (s : Scene σ) :
    ((evalProgram o p).run.run s).1 = answer ((p.eval (Devices.host o s.sandbox.sleepPoll) s.sandbox.limits
      Lang.Eval.endless).run.run s.store).1 := by
  unfold evalProgram
  dsimp only [ExceptT.run, ExceptT.mk, StateT.run]
  rcases Lang.Program.eval _ _ _ p s.store with ⟨e | v, t⟩
  · cases e <;> rfl
  · rfl

namespace Command

/-- The end of an expression that is evaluated in a scene. -/
def evaluated (o : Outside σ) (s : Scene σ) (rs : List Routine) (e : Expr) : Except Interrupt Value :=
  ((Lang.Program.eval (Devices.host o s.sandbox.sleepPoll) s.sandbox.limits Lang.Eval.endless
    ⟨[.expr e], s.sandbox.routines, rs⟩).run.run s.store).1

/-- What the end of an expression is to a condition. -/
def verdict : Except Interrupt Value → Except Breakdown Bool
  | .ok v => .ok v.truthy
  | .error (.panic b) => .error b
  | .error _ => .ok false

theorem holds_fst {o : Outside σ} {s : Scene σ} {text : String} {e : Expr} {rs : List Routine}
    (h : s.sandbox.bounds.parseExpression s.sandbox.routines text = .ok ⟨[.expr e], s.sandbox.routines, rs⟩) :
    ((holds o text).run.run s).1 = verdict (evaluated o s rs e) := by
  have hprogram := Act.evalProgram_fst o ⟨[.expr e], s.sandbox.routines, rs⟩ s
  rw [← evaluated] at hprogram
  rcases hrun : (Act.evalProgram o ⟨[.expr e], s.sandbox.routines, rs⟩).run.run s with ⟨r, t⟩
  rw [hrun] at hprogram
  rw [holds, Failing.run_bind, Act.evaluate, Failing.run_bind, Act.tryEvaluate, Failing.run_get_bind]
  dsimp only
  rw [h]
  dsimp only
  rw [Failing.run_bind, hrun, show r = _ from hprogram]
  cases evaluated o s rs e with
  | ok v => cases v <;> rfl
  | error i => cases i <;> rfl

/-- The mark of a comparison. -/
def Comparison.mark : Comparison → Mark
  | .equal => .equalsTo
  | .notEqual => .notEquals
  | .greater => .greater
  | .less => .less
  | .greaterOrEqual => .greaterEq
  | .lessOrEqual => .lessEq

theorem Comparison.compares_mark (c : Comparison) : c.mark.compares = true := by cases c <;> rfl

theorem Comparison.text_mark (c : Comparison) : c.mark.text = c.operator := by cases c <;> rfl

theorem testText_eq (name : String) (c : Comparison) (e : String) :
    testText name c e = Lang.comparison name c.mark e := by
  rw [testText, Lang.comparison, c.text_mark]

/-- The values of two expressions in a scene, behind the step of the script that has both. -/
def operands (o : Outside σ) (s : Scene σ) (rs : List Routine) (l r : Expr) (p : Place) :
    Except Interrupt (Value × Value) × Store (World σ) :=
  let m : Lang.Eval (World σ) (Value × Value) := do
    Lang.Eval.tick (s.env o rs) p
    Lang.Eval.operands (Lang.machine _ (Lang.Eval.endless - 1)) (s.env o rs) l r
  m.run.run s.store

/-- What a test signals, as the values of its two sides come out. -/
structure Tests (o : Outside σ) (s : Scene σ) (rs : List Routine) (op : Mark) (l r : Expr) (p : Place)
    (signal : Except Breakdown Signal) : Prop where
  /-- Two values decide: the test holds exactly if they compare. -/
  compared : ∀ v w t, operands o s rs l r p = (.ok (v, w), t) →
    (signal = .ok .proceed ↔ Lang.Eval.Compare (s.env o rs) op v w p t) ∧ (signal = .ok .proceed ∨ signal = .ok .skip)
  /-- Where one of them has no value, the test does not hold. -/
  failed : ∀ i t, operands o s rs l r p = (.error i, t) → (∀ v, i ≠ .giveBack v) → (∀ b, i ≠ .panic b) →
    signal = .ok .skip
  /-- A value that is given back, and not compared, makes the test hold if it counts as true. -/
  returned : ∀ v t, operands o s rs l r p = (.error (.giveBack v), t) → signal = .ok (.ofBool (v.flat t.cells).truthy)
  /-- A breakdown is one of the test. -/
  brokeDown : ∀ b t, operands o s rs l r p = (.error (.panic b), t) → signal = .error b

/-- A comparison first gets its operands. -/
theorem comparison_run {op : Mark} (hop : op.compares = true) (o : Outside σ) (s : Scene σ) (rs : List Routine)
    (name : String) (l r : Expr) (p : Place) :
    (do
      Lang.Eval.tick (s.env o rs) p
      Lang.Eval.valueOf (Lang.machine _ (Lang.Eval.endless - 1)) (s.env o rs)
        (.call name (some op) [l, r] p)).run.run s.store =
      match operands o s rs l r p with
      | (.ok x, t) => (Lang.Eval.combine (s.env o rs) op x.1 x.2 p).run.run t
      | (.error e, t) => (.error e, t) := by
  rw [Lang.Eval.valueOf_comparison hop, ← bind_assoc, Failing.run_bind]
  rcases hx : operands o s rs l r p with ⟨_ | _, _⟩
  all_goals
    unfold operands at hx
    dsimp only at hx
    rw [hx]

theorem evaluated_of_run {e : Expr} {x : Except Interrupt Value} {t : Store (World σ)} (o : Outside σ) (s : Scene σ)
    (rs : List Routine) (hcall : e.isCall = true)
    (hrun : (do
      Lang.Eval.tick (s.env o rs) e.start
      Lang.Eval.valueOf (Lang.machine _ (Lang.Eval.endless - 1)) (s.env o rs) e).run.run s.store = (x, t))
    : evaluated o s rs e = Lang.Program.ending (x.map (Value.flat t.cells)) t :=
  congrArg Prod.fst (Lang.Program.eval_call (Devices.host o s.sandbox.sleepPoll) s.sandbox.limits s.store
    s.sandbox.routines rs hcall hrun)

/-- A comparison that is evaluated comes to what its operands come to. -/
theorem tests_evaluated {op : Mark} (hop : op.compares = true) (o : Outside σ) (s : Scene σ) (rs : List Routine)
    (name : String) (l r : Expr) (p : Place) :
    Tests o s rs op l r p ((verdict (evaluated o s rs (.call name (some op) [l, r] p))).map Signal.ofBool) := by
  have hrun := comparison_run hop o s rs name l r p
  have hended {x t} := evaluated_of_run (e := .call name (some op) [l, r] p) (x := x) (t := t) o s rs rfl
  constructor
  case compared =>
    intro v w t h
    rw [h] at hrun
    obtain ⟨hcompare, hdecides⟩ := Lang.Eval.combine_fst hop (s.env o rs) v w p t
    rcases hcombine : (Lang.Eval.combine (s.env o rs) op v w p).run.run t with ⟨x, t'⟩
    rw [hcombine] at hcompare hdecides
    dsimp only at hcompare hdecides
    obtain ⟨b, rfl⟩ | ⟨f, rfl⟩ := hdecides
    · rw [hended (hrun.trans hcombine), ← hcompare]
      cases b <;> simp [Lang.Program.ending, verdict, Value.flat, Value.truthy, Signal.ofBool, Except.map]
    · rw [hended (hrun.trans hcombine), ← hcompare]
      simp [Lang.Program.ending, verdict, Signal.ofBool, Except.map]
  case failed =>
    intro i t h hback hpanic
    rw [h] at hrun
    rw [hended hrun]
    cases i with
    | giveBack v => exact absurd rfl (hback v)
    | panic b => exact absurd rfl (hpanic b)
    | _ => rfl
  case returned =>
    intro v t h
    rw [h] at hrun
    rw [hended hrun]
    rfl
  case brokeDown =>
    intro b t h
    rw [h] at hrun
    rw [hended hrun]
    rfl

theorem run_plain (kind : String) (ps : Parameters) (a : Act σ Signal) (moment : Moment) (s : Scene σ) :
    ((⟨kind, ps, .plain a⟩ : Command σ).run moment s).1 = (a.run.run s).1 := rfl

theorem expression_of_text {ps : Parameters} {name text : String} (h : ps.text name = .ok text) :
    ∃ problems, ps.expression name = .ok ⟨text, problems⟩ := by
  rw [Parameters.expression, Parameters.checked, h]
  dsimp only [bind, Except.bind]
  cases Lang.Bounds.checked.parseExpression 0 text with
  | ok p => exact ⟨[], rfl⟩
  | error e => exact ⟨_, rfl⟩

/-- **A test compares the variable with what its expression is read as alone**, as long as the expression keeps its
tokens between the parentheses and leaves room for three more levels of nesting.  It holds exactly if variable and
expression have values, one after the other, that compare. -/
theorem testVariable_tests (o : Outside σ) (s : Scene σ) {ps : Parameters} {name sign text : String} {c : Comparison}
    {e : Expr} {rs : List Routine} (hvariable : ps.variableName "variable" = .ok name)
    (htest : ps.text "test" = .ok sign) (hsign : Comparison.parse? sign = some c)
    (hexpression : ps.text "expression" = .ok text) (hname : Lang.isReadable name = true)
    (hdepth : s.sandbox.limits.maxDepth = 0 ∨ 3 < s.sandbox.limits.maxDepth)
    (htext : Lang.KeepsTokens s.sandbox.limits.maxString (name.length + c.operator.length + 2) text)
    (hparse : (s.sandbox.bounds.lowered 3).parseExpression s.sandbox.routines
      (Lang.blanks (name.length + c.operator.length + 3) ++ text) = .ok ⟨[.expr e], s.sandbox.routines, rs⟩) :
    ∃ built, testVariable o ps = .ok built ∧ ∀ kind moment,
      Tests o s rs c.mark (.var name false (some ⟨1, 1⟩)) e (some ⟨1, name.length + 2⟩)
        ((⟨kind, ps, built.value⟩ : Command σ).run moment s).1 := by
  rw [← c.text_mark] at htext hparse
  have hcomparison :=
    s.sandbox.bounds.parseExpression_comparison s.sandbox.routines hname c.compares_mark hdepth htext hparse
  obtain ⟨problems, hchecked⟩ := expression_of_text hexpression
  have hbuilt : testVariable o ps =
      .ok ((Built.mk text problems).map fun e => .plain do return .ofBool (← holds o (testText name c e))) := by
    rw [testVariable, hvariable, htest]
    dsimp only [bind, Except.bind]
    rw [hsign]
    dsimp only
    rw [hchecked]
    rfl
  refine ⟨_, hbuilt, fun kind moment => ?_⟩
  let compared : Expr := .call c.mark.text (some c.mark) [.var name false (some ⟨1, 1⟩), e] (some ⟨1, name.length + 2⟩)
  let act : Act σ Signal := do return .ofBool (← holds o (testText name c text))
  have hsignal : ((⟨kind, ps, .plain act⟩ : Command σ).run moment s).1 =
      (verdict (evaluated o s rs compared)).map Signal.ofBool := by
    simp only [act]
    rw [testText_eq, run_plain, Failing.run_bind, ← holds_fst hcomparison]
    rcases (holds o _).run.run s with ⟨_ | _, _⟩ <;> rfl
  exact hsignal ▸ tests_evaluated c.compares_mark o s rs c.mark.text _ _ _

/-- A test whose expression ends with a comment; a line break keeps the comment from the closing parenthesis. -/
def commentedTest : Parameters := [("variable", .str "x"), ("test", .str "=="), ("expression", .str "1 // one\n")]

/-- A scene with one variable. -/
def oneVariable : Scene Unit :=
  ⟨{ Scene.fresh.sandbox with scope := Scene.fresh.sandbox.scope.push "x" (.int 1) false }, Scene.fresh.world⟩

set_option maxRecDepth 4000 in
theorem keepsTokens_commentedTest : Lang.KeepsTokens Limits.default.maxString 5 "1 // one\n" := by
  have halone : Lang.tokenize 65536 (Lang.blanks 6 ++ "1 // one\n") = [(.int 1, ⟨1, 7⟩), (.ended, ⟨2, 1⟩)] := rfl
  have henclosed : Lang.tokenize 65536 (Lang.blanks 5 ++ "(" ++ "1 // one\n" ++ ")") =
      [(.mark .leftParen, ⟨1, 6⟩), (.int 1, ⟨1, 7⟩), (.mark .rightParen, ⟨2, 1⟩), (.ended, ⟨2, 2⟩)] := rfl
  exact ⟨_, _, henclosed, halone ▸ .cons nofun nofun (.close _ _ _)⟩

set_option maxRecDepth 4000 in
/-- A comment that ends in time does no harm. -/
theorem testVariable_tests_commentedTest :
    (∃ built, testVariable (.nobody Unit) commentedTest = .ok built ∧ ∀ kind moment,
      Tests (.nobody Unit) oneVariable [] .equalsTo (.var "x" false (some ⟨1, 1⟩)) (.const (.int 1) (some ⟨1, 7⟩))
        (some ⟨1, 3⟩) ((⟨kind, commentedTest, built.value⟩ : Command Unit).run moment oneVariable).1) ∧
      ((testVariable (.nobody Unit) commentedTest).toOption.bind fun built =>
        ((⟨"TestVariableCommand", commentedTest, built.value⟩ : Command Unit).run ⟨1, 0⟩ oneVariable).1.toOption) =
          some .proceed := by
  have hvariable : commentedTest.variableName "variable" = .ok "x" := by decide +kernel
  have htest : commentedTest.text "test" = .ok "==" := rfl
  have hsign : Comparison.parse? "==" = some .equal := by decide +kernel
  have hexpression : commentedTest.text "expression" = .ok "1 // one\n" := rfl
  have hlimit : oneVariable.sandbox.limits.maxString = Limits.default.maxString := rfl
  refine ⟨?_, by decide +kernel⟩
  exact testVariable_tests (.nobody Unit) oneVariable hvariable htest hsign hexpression (by decide +kernel)
    (.inr (by decide)) (hlimit ▸ keepsTokens_commentedTest) rfl

end Command
end ArmPilot
