import ArmPilot.Lang.Eval.Statement
import ArmPilot.Proofs.Lang.Tied.Expression

/-!
# Statements side by side

The evaluator does the same with tied hosts by induction on how deep code is nested (`machine_tied`), and so does every
script (`Program.eval_tied`).  What a host keeps to itself is nothing to a script.
-/

namespace ArmPilot
namespace Lang

variable {σ τ : Type} {R : σ → τ → Prop}

namespace Eval

variable {m : Machine σ} {l : Machine τ} {env : Env σ} {k : Host τ}

theorem rounds_tied {round : Eval σ (Option Value)} {round' : Eval τ (Option Value)} (h : Tied R round round') :
    ∀ n, Tied R (rounds round n) (rounds round' n)
  | 0 => .throw _
  | n + 1 => by
    refine h.bind fun r => ?_
    split
    · exact rounds_tied h n
    · exact .pure _

section

variable (hm : m.Tied R l) (hk : env.host.Tied R k)

include hm hk

theorem bodyOf_tied (body : List Stmt) : Tied R (bodyOf m env body) (bodyOf l (env.withHost k) body) := by
  refine (attempt_tied (block_tied hm hk body)).bind fun r => ?_
  split
  · exact .pure _
  · exact .pure _
  · exact .pure _
  · exact .throw _

theorem chooseCase_tied : ∀ cases, Tied R (chooseCase m env cases) (chooseCase l (env.withHost k) cases)
  | [] => .pure _
  | c :: rest => by
    unfold chooseCase
    split
    · exact .pure _
    · refine (hm.eval hk _).bind fun _ => (flat_tied _).bind fun _ => (asBool_tied _ _).bind fun _ => ?_
      exact .ite (fun _ => .pure _) fun _ => chooseCase_tied rest

theorem forRounds_tied (name : String) (counter : Option String) (body : List Stmt) (p : Place) : ∀ fuel i walk,
    Tied R (forRounds m env name counter body p fuel i walk)
      (forRounds l (env.withHost k) name counter body p fuel i walk)
  | 0, _, _ => .throw _
  | fuel + 1, i, walk => by
    unfold forRounds
    split
    · exact .pure _
    · dsimp only
      split
      on_goal 1 => refine (writeVariable_tied _ _).bind fun _ => ?_
      all_goals
        refine (flat_tied _).bind fun _ => (writeVariable_tied _ _).bind fun _ => (tick_tied hk p).bind fun _ => ?_
        refine (bodyOf_tied hm hk body).bind fun r => ?_
        cases r with
        | some v => exact .pure _
        | none => exact forRounds_tied name _ body p fuel (i + 1) _

theorem assign_tied (op : Option Mark) (target value : Expr) (p : Place) :
    Tied R (assign m env op target value p) (assign l (env.withHost k) op target value p) := by
  have hcheck (s : Stored) : Tied R s.check s.check := by
    unfold Stored.check
    split
    · exact .throw _
    · exact .pure _
  refine (hm.eval hk _).bind fun _ => (flat_tied _).bind fun v => ?_
  split
  · refine (tick_tied hk _).bind fun _ => (binding_tied _ _ _).bind fun b => .optional (fail_tied _ _) fun _ => ?_
    refine (flat_tied _).bind fun _ => (apply_tied hk _ _).bind fun r => ?_
    split
    · exact (writeVariable_tied _ _).bind fun _ => hcheck _
    · exact hcheck _
  · refine get_tied fun s w _ => ?_
    simp only [Store.this_withOuter]
    split
    · exact fail_tied _ _
    · refine .optional (fail_tied _ _) fun _ => (flat_tied _).bind fun _ => (apply_tied hk _ _).bind fun r => ?_
      split
      · exact .bind (modify_tied id fun s w hw => ⟨hw, rfl⟩) fun _ => hcheck _
      · exact hcheck _
  · exact (tick_tied hk _).bind fun _ => (readQualified_tied _ _ _).bind fun _ => fail_tied _ _
  · exact (chain_tied hm hk _ _ _).bind fun _ => .pure _
  · exact .throw _

theorem execWith_tied (s : Stmt) : Tied R (execWith m env s) (execWith l (env.withHost k) s) := by
  have hcondition (e : Expr) : Tied R (do asBool (← flat (← m.eval env e)) e.place)
      (do asBool (← flat (← l.eval (env.withHost k) e)) e.place) :=
    (hm.eval hk e).bind fun _ => (flat_tied _).bind fun _ => asBool_tied _ _
  refine (tick_tied hk _).bind fun _ => ?_
  cases s with
  | noop => exact .pure _
  | expr e =>
    dsimp only
    split
    · exact (valueOf_tied hm hk e).bind fun _ => flat_tied _
    · exact (hm.eval hk e).bind fun _ => flat_tied _
  | assign op target value p => exact (assign_tied hm hk _ _ _ _).bind fun _ => .pure _
  | declare name value readOnly replaces p =>
    refine (hm.eval hk _).bind fun _ => (flat_tied _).bind fun v => .bind ?_ fun _ => .pure _
    exact modify_tied id fun s w hw => ⟨hw, by split <;> rfl⟩
  | block stmts p => exact block_tied hm hk _
  | ifElse cond thenPart p elsePart q =>
    refine (hm.eval hk _).bind fun _ => (flat_tied _).bind fun _ => (asBool_tied _ _).bind fun _ => ?_
    exact .ite (fun _ => block_tied hm hk _) fun _ => block_tied hm hk _
  | switch value cases p =>
    refine (hm.eval hk _).bind fun _ => (flat_tied _).bind fun _ => (chooseCase_tied hm hk _).bind fun _ => ?_
    split
    · exact hm.eval hk _
    · exact .pure _
  | repeatWhile cond body p q =>
    refine rounds_tied (.bind ?_ fun goes => .ite (fun _ => bodyOf_tied hm hk _) fun _ => .pure _) _
    split
    · exact .optional (tick_tied hk _) fun _ => .pure _
    · exact hcondition _
  | doWhile body cond negated p q =>
    refine rounds_tied ((attempt_tied (block_tied hm hk _)).bind fun r => ?_) _
    split
    · exact .pure _
    · exact .pure _
    · exact .throw _
    · refine (hm.eval hk _).bind fun _ => (flat_tied _).bind fun _ => (asBool_tied _ _).bind fun _ => ?_
      exact .ite (fun _ => .pure _) fun _ => .pure _
  | forIn name counter source body p q =>
    refine (hm.eval hk _).bind fun _ => (flat_tied _).bind fun v => ?_
    split
    · exact fail_tied _ _
    · have hpush (name : String) : Tied R
          (modify fun s => { s with scope := s.scope.push name .unit false } : Eval σ PUnit)
          (modify fun s => { s with scope := s.scope.push name .unit false }) := modify_tied id fun s w hw => ⟨hw, rfl⟩
      have hloop := fun u : PUnit => (hpush name).bind fun _ => forRounds_tied hm hk name counter body p endless 0 ‹_›
      refine withScope_tied ?_
      split
      · exact (hpush _).bind hloop
      · exact hloop ⟨⟩
  | leave isBreak value p =>
    refine .bind ?_ fun _ => .throw _
    split
    · exact (hm.eval hk _).bind fun _ => flat_tied _
    · exact .pure _
  | giveBack isThrow value p =>
    refine .bind ?_ fun _ => .ite (fun _ => fail_tied _ _) fun _ => .throw _
    split
    · exact (hm.eval hk _).bind fun _ => flat_tied _
    · exact .pure _
  | tryCatch body name handler p =>
    refine (attempt_tied (block_tied hm hk _)).bind fun r => ?_
    split
    · exact .pure _
    · refine .ite (fun _ => .throw _) fun _ => ?_
      refine (attempt_tied (withScope_tied ?_)).bind fun r => ?_
      · split
        · exact .bind (modify_tied id fun s w hw => ⟨hw, rfl⟩) fun _ => blockHere_tied hm hk _
        · exact blockHere_tied hm hk _
      · split
        · exact .pure _
        · exact .throw _
        · exact .throw _
    · exact .throw _

end

end Eval

/-- **The evaluator does the same with tied hosts**, however deep code is nested. -/
theorem machine_tied (R : σ → τ → Prop) : ∀ depth, (machine σ depth).Tied R (machine τ depth)
  | 0 =>
    { eval := fun _ _ => .throw _
      exec := fun _ _ => .throw _
      invoke := fun _ _ _ _ _ _ => .throw _
      native := fun _ _ _ _ => .some ⟨rfl, .throw _⟩ }
  | depth + 1 =>
    have ih := machine_tied R depth
    { eval := fun hk e => Eval.evalWith_tied ih hk e
      exec := fun hk s => Eval.execWith_tied ih hk s
      invoke := fun hk r args this amongCaller p => Eval.invokeWith_tied ih hk p r args this amongCaller
      native := fun hk name args p => Eval.native?_tied ih hk p name args }

namespace Eval

variable {m : Machine σ} {l : Machine τ} {env : Env σ} {k : Host τ}

theorem publish_tied (s : Stmt) : Tied R (publish env s) (publish (env.withHost k) s) := by
  unfold publish
  split
  · simp only [Env.routines_withHost]
    refine .ite (fun _ => .pure _) fun _ => (readVariable_tied _ _ _).bind fun v => ?_
    exact modify_tied id fun s w hw => ⟨hw, rfl⟩
  · exact .pure _

theorem topLevel_tied (hm : m.Tied R l) (hk : env.host.Tied R k) :
    ∀ stmts, Tied R (topLevel m env stmts) (topLevel l (env.withHost k) stmts)
  | [] => .pure _
  | [s] => hm.exec hk s
  | s :: t :: rest =>
    (hm.exec hk s).bind fun _ => (publish_tied s).bind fun _ => topLevel_tied hm hk (t :: rest)

end Eval

/-- **Tied hosts make no difference to a script**: it comes to the same result with either, leaves the same variables,
and what lies outside stays related. -/
theorem Program.eval_tied {h : Host σ} {k : Host τ} (hk : h.Tied R k) (limits : Limits) (depth : Nat) (p : Program) :
    Eval.Tied R (p.eval h limits depth) (p.eval k limits depth) := by
  have htop (start : Nat) := @Eval.topLevel_tied _ _ R (machine σ depth) (machine τ depth)
    ⟨h, limits, p.first, p.routines.toArray, 0, start⟩ k (machine_tied R depth) hk p.body
  refine .bind (Eval.modify_tied id fun s w hw => ⟨hw, rfl⟩) fun _ => Eval.get_tied fun s w _ => ?_
  refine (Eval.attempt_tied (htop _)).bind fun r => ?_
  split
  · exact Eval.flat_tied _
  · exact Eval.flat_tied _
  · exact .throw _

end Lang
end ArmPilot
