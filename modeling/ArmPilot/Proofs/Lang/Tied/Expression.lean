import ArmPilot.Lang.Eval.Expression
import ArmPilot.Proofs.Lang.Tied.Call

/-!
# Expressions side by side

Each kind of expression does the same with tied hosts, if the evaluators of nested code do.
-/

namespace ArmPilot
namespace Lang
namespace Eval

variable {σ τ : Type} {R : σ → τ → Prop} {m : Machine σ} {l : Machine τ} {env : Env σ} {k : Host τ}

section

variable (hk : env.host.Tied R k)

include hk

theorem apply_tied (w : Writing) (old : Value) : Tied R (w.apply env old) (w.apply (env.withHost k) old) := by
  unfold Writing.apply
  simp only [Env.limits_withHost]
  split
  · exact .optional (tick_tied hk _) fun _ => .pure _
  · exact .pure _

theorem writeMember_tied (ms : List (String × Value)) (key : String) (w : Writing) (bounded : Value → Value → Value) :
    Tied R (writeMember env ms key w bounded) (writeMember (env.withHost k) ms key w bounded) := by
  refine (tick_tied hk _).bind fun _ => ?_
  split
  · exact .pure _
  · exact (apply_tied hk _ _).bind fun _ => .pure _

theorem writeProperty_tied (base : Value) (name : String) (p : Place) (w : Writing) :
    Tied R (writeProperty env base name p w) (writeProperty (env.withHost k) base name p w) := by
  unfold writeProperty
  simp only [Env.limits_withHost]
  split
  · exact writeMember_tied hk _ _ _ _
  · exact .ite (fun _ => .pure _) fun _ => .pure _

theorem writeItem_tied (base i : Value) (p q : Place) (w : Writing) :
    Tied R (writeItem env base i p q w) (writeItem (env.withHost k) base i p q w) := by
  unfold writeItem
  split
  · exact writeMember_tied hk _ _ _ _
  · refine (tick_tied hk _).bind fun _ => ?_
    split
    · exact .pure _
    · exact .pure _
    · split
      · exact .pure _
      · refine (apply_tied hk _ _).bind fun s => ?_
        split
        · exact .pure _
        · split <;> exact .pure _

end

theorem share_tied (name : String) (p : Place) : Tied R (share name p) (share name p) := by
  refine get_tied fun s w hw => ?_
  simp only [Store.scope_withOuter]
  split
  · exact fail_tied _ _
  · exact .pure _
  · exact .bind (set_tied hw) fun _ => .pure _

section

variable (hm : m.Tied R l) (hk : env.host.Tied R k)

include hm hk

theorem arguments_tied : ∀ es, Tied R (arguments m env es) (arguments l (env.withHost k) es)
  | [] => .pure _
  | e :: rest =>
    (hm.eval hk e).bind fun _ => (flat_tied _).bind fun _ => (arguments_tied rest).bind fun _ => .pure _

theorem items_tied : ∀ total es, Tied R (items m env total es) (items l (env.withHost k) total es)
  | _, [] => .pure _
  | _, e :: rest => (hm.eval hk e).bind fun _ => (flat_tied _).bind fun _ => (checkSizes_tied _ _).bind fun _ =>
      (items_tied _ rest).bind fun _ => .pure _

theorem members_tied : ∀ total ms, Tied R (members m env total ms) (members l (env.withHost k) total ms)
  | _, [] => .pure _
  | _, (_, e) :: rest => (hm.eval hk e).bind fun _ => (flat_tied _).bind fun _ => (checkSizes_tied _ _).bind fun _ =>
      (members_tied _ rest).bind fun _ => .pure _

theorem textOf_tied : ∀ acc es, Tied R (textOf m env acc es) (textOf l (env.withHost k) acc es)
  | _, [] => .pure _
  | _, e :: rest => (hm.eval hk e).bind fun _ => (flat_tied _).bind fun _ => .optional (tick_tied hk _) fun _ =>
      (checkSize_tied _ _).bind fun _ => textOf_tied _ rest

theorem hop_tied (h : Link) : Tied R (hop m env h) (hop l (env.withHost k) h) := by
  cases h with
  | property => exact .pure _
  | method => exact (arguments_tied hm hk _).bind fun _ => .pure _
  | index => exact (hm.eval hk _).bind fun _ => (flat_tied _).bind fun _ => .pure _

theorem hopsOf_tied : ∀ links, Tied R (hopsOf m env links) (hopsOf l (env.withHost k) links)
  | [] => .pure _
  | [h] => (tick_tied hk _).bind fun _ => (hop_tied hm hk h).bind fun _ => .pure _
  | h :: next :: rest => (tick_tied hk _).bind fun _ => (hop_tied hm hk h).bind fun _ =>
      (hopsOf_tied (next :: rest)).bind fun _ => .pure _

theorem hops_tied (links : List Link) : Tied R (hops m env links) (hops l (env.withHost k) links) := by
  unfold hops
  split
  · exact .pure _
  · exact .pure _
  · exact .pure _
  · exact hopsOf_tied hm hk _

theorem callMethod_tied (readOnly : Bool) (base : Value) (name : String) (args : List Value) (p : Place) :
    Tied R (callMethod m env readOnly base name args p) (callMethod l (env.withHost k) readOnly base name args p) := by
  unfold callMethod
  dsimp only
  have hroutine : methodRoutine? (env.withHost k) = methodRoutine? env := rfl
  simp only [hroutine]
  split
  · exact hm.invoke hk _ _ _ _ _
  · have hnative := hm.native hk (methodOf base name).name (base :: ((methodOf base name).captured ++ args)) p
    generalize m.native env (methodOf base name).name (base :: ((methodOf base name).captured ++ args)) p = a,
      l.native (env.withHost k) (methodOf base name).name (base :: ((methodOf base name).captured ++ args)) p = b at hnative
    cases hnative with
    | none => exact .pure _
    | some h =>
      simp only [h.changes, Env.limits_withHost]
      refine .ite (fun _ => .pure _) fun _ => h.run.bind fun r => ?_
      split <;> exact .pure _

theorem follow_tied (w : Option Writing) : ∀ readOnly hops root,
    Tied R (follow m env readOnly w hops root) (follow l (env.withHost k) readOnly w hops root)
  | _, [], v => (flat_tied v).bind fun _ => .pure _
  | readOnly, hop :: rest, root => by
    have ih := fun readOnly => follow_tied w readOnly rest
    refine (flat_tied root).bind fun base => .ite (fun _ => .pure _) fun _ => ?_
    cases hop with
    | property name optional p =>
      dsimp only
      split
      · exact writeProperty_tied hk _ _ _ _
      · split
        · exact (tick_tied hk _).bind fun _ => (ih _ _).bind fun _ => .pure _
        · simp only [Env.limits_withHost]
          split
          · exact (tick_tied hk _).bind fun _ => (ih _ _).bind fun _ => .pure _
          · exact .pure _
          · exact .pure _
    | method name args optional p =>
      refine .bind ?_ fun r => ?_
      · split
        · exact .pure _
        · exact callMethod_tied hm hk _ _ _ _ _
      · dsimp only
        split
        · exact (ih _ _).bind fun _ => .pure _
        · exact .pure _
    | index i optional p q =>
      dsimp only
      split
      · exact writeItem_tied hk _ _ _ _ _
      · refine (tick_tied hk _).bind fun _ => ?_
        split
        · refine (ih _ _).bind fun r => ?_
          split
          · exact .pure _
          · split <;> exact .pure _
        · exact .pure _
        · exact .pure _

theorem chain_tied (root : Expr) (links : List Link) (w : Option Writing) :
    Tied R (chain m env root links w) (chain l (env.withHost k) root links w) := by
  refine (hops_tied hm hk links).bind fun hs => ?_
  split
  · refine (tick_tied hk _).bind fun _ => (binding_tied _ _ _).bind fun b => ?_
    refine (follow_tied hm hk _ _ _ _).bind fun r => ?_
    simp only [Env.named?_withHost]
    split
    · exact .optional (writeVariable_tied _ _) fun _ => resume_tied _
    · exact resume_tied _
  · refine (tick_tied hk _).bind fun _ => get_tied fun s w _ => ?_
    simp only [Store.this_withOuter]
    split
    · exact fail_tied _ _
    · refine (follow_tied hm hk _ _ _ _).bind fun r => ?_
      split
      · exact .bind (modify_tied id fun s w hw => ⟨hw, rfl⟩) fun _ => resume_tied _
      · exact resume_tied _
  · refine (tick_tied hk _).bind fun _ => (readQualified_tied _ _ _).bind fun v => ?_
    exact (follow_tied hm hk _ _ _ _).bind fun _ => resume_tied _
  · exact (hm.eval hk _).bind fun _ => (follow_tied hm hk _ _ _ _).bind fun _ => resume_tied _

theorem shareAll_tied : ∀ es, Tied R (shareAll m env es) (shareAll l (env.withHost k) es)
  | [] => .pure _
  | e :: rest => by
    have ih := shareAll_tied rest
    cases e with
    | var => exact (tick_tied hk _).bind fun _ => (share_tied _ _).bind fun _ => ih.bind fun _ => .pure _
    | _ => exact (hm.eval hk _).bind fun _ => (flat_tied _).bind fun _ => ih.bind fun _ => .pure _

theorem call_tied (name : String) (args : List Expr) (amongCaller : Bool) (p : Place) :
    Tied R (call m env name args amongCaller p) (call l (env.withHost k) name args amongCaller p) := by
  have hcall := callByName_tied hm hk p name
  unfold call
  split
  · refine (tick_tied hk _).bind fun _ => (arguments_tied hm hk _).bind fun vs => (binding_tied _ _ _).bind fun b => ?_
    refine .ite (fun _ => .pure _) fun _ => (flat_tied _).bind fun _ => (hcall _ _).bind fun r => ?_
    split
    split
    · refine .ite (fun _ => resume_tied _) fun _ => (writeVariable_tied _ _).bind fun _ => ?_
      exact (resume_tied _).bind fun _ => (checkSize_tied _ _).bind fun _ => .pure _
    · exact resume_tied _
  · refine get_tied fun s w _ => ?_
    simp only [Store.this_withOuter]
    split
    · exact fail_tied _ _
    · refine (tick_tied hk _).bind fun _ => (arguments_tied hm hk _).bind fun vs => (hcall _ _).bind fun r => ?_
      split
      · refine .ite (fun _ => ?_) fun _ => ?_
        · split
          · exact .throw _
          · exact (fail_tied _ _).bind fun _ => .bind (modify_tied id fun s w hw => ⟨hw, rfl⟩) fun _ => resume_tied _
        · exact .bind (modify_tied id fun s w hw => ⟨hw, rfl⟩) fun _ => resume_tied _
      · exact resume_tied _
  · exact (arguments_tied hm hk _).bind fun _ => (hcall _ _).bind fun _ => resume_tied _

theorem statements_tied : ∀ stmts, Tied R (statements m env stmts) (statements l (env.withHost k) stmts)
  | [] => .pure _
  | [s] => hm.exec hk s
  | s :: t :: rest => (hm.exec hk s).bind fun _ => statements_tied (t :: rest)

theorem blockHere_tied (stmts : List Stmt) : Tied R (blockHere m env stmts) (blockHere l (env.withHost k) stmts) :=
  get_tied fun s _ _ => @statements_tied _ _ R m l { env with blockStart := s.scope.length } k hm hk stmts

theorem block_tied (stmts : List Stmt) : Tied R (block m env stmts) (block l (env.withHost k) stmts) := by
  unfold block
  split
  · exact .pure _
  · exact withScope_tied (blockHere_tied hm hk _)

theorem valueOf_tied (e : Expr) : Tied R (valueOf m env e) (valueOf l (env.withHost k) e) := by
  unfold valueOf
  split
  · exact .pure _
  · exact (textOf_tied hm hk _ _).bind fun _ => .pure _
  · exact (items_tied hm hk _ _).bind fun _ => .pure _
  · exact (members_tied hm hk _ _).bind fun _ => .pure _
  · exact readVariable_tied _ _ _
  · exact readQualified_tied _ _ _
  · refine get_tied fun s w _ => ?_
    simp only [Store.this_withOuter]
    split
    · exact flat_tied _
    · exact fail_tied _ _
  · refine (hm.eval hk _).bind fun _ => (flat_tied _).bind fun v => ?_
    refine (hm.eval hk _).bind fun _ => (flat_tied _).bind fun v' => ?_
    refine .optional (tick_tied hk _) fun _ => ?_
    simp only [Env.limits_withHost]
    split
    · exact (ofOutcome_tied _ _).bind fun _ => (checkSize_tied _ _).bind fun _ => .pure _
    · exact fail_tied _ _
  · refine (hm.eval hk _).bind fun _ => (flat_tied _).bind fun v => .optional (tick_tied hk _) fun _ => ?_
    split
    · exact ofOutcome_tied _ _
    · exact fail_tied _ _
  · exact call_tied hm hk _ _ _ _
  · exact call_tied hm hk _ _ _ _
  · refine .bind ?_ fun _ => fail_tied _ _
    split
    · exact (arguments_tied hm hk _).bind fun _ => readVariable_tied _ _ _
    · exact (arguments_tied hm hk _).bind fun _ => .pure _
  · refine (hm.eval hk _).bind fun _ => (flat_tied _).bind fun _ => (asBool_tied _ _).bind fun _ => .ite (fun _ => ?_) fun _ => .pure _
    exact (hm.eval hk _).bind fun _ => (flat_tied _).bind fun _ => (asBool_tied _ _).bind fun _ => .pure _
  · refine (hm.eval hk _).bind fun _ => (flat_tied _).bind fun _ => (asBool_tied _ _).bind fun _ => .ite (fun _ => .pure _) fun _ => ?_
    exact (hm.eval hk _).bind fun _ => (flat_tied _).bind fun _ => (asBool_tied _ _).bind fun _ => .pure _
  · refine (hm.eval hk _).bind fun _ => (flat_tied _).bind fun v => ?_
    split
    · exact hm.eval hk _
    · exact .pure _
  · exact block_tied hm hk _
  · exact chain_tied hm hk _ _ _
  · exact .pure _
  · refine (tick_tied hk _).bind fun _ => (tick_tied hk _).bind fun _ => (tick_tied hk _).bind fun _ => ?_
    exact (shareAll_tied hm hk _).bind fun _ => .pure _

theorem evalWith_tied (e : Expr) : Tied R (evalWith m env e) (evalWith l (env.withHost k) e) :=
  (tick_tied hk _).bind fun _ => valueOf_tied hm hk e

end

end Eval
end Lang
end ArmPilot
