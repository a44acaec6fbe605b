import ArmPilot.Lang.Eval.Statement
import ArmPilot.Proofs.Failing

/-!
# Evaluations side by side

Two hosts are tied by a relation if they give the same answers as long as it holds of their states, and keep it
(`Host.Tied`).  What an evaluation sees of its host is the answers, so that tied hosts make no difference to a script: it
comes to the same result with either, and leaves the same variables (`Eval.Tied`).
-/

namespace ArmPilot
namespace Lang

variable {σ τ α β : Type}

/-- A state with something else outside. -/
def Store.withOuter (s : Store σ) (w : τ) : Store τ :=
  { scope := s.scope, this := s.this, cells := s.cells, globals := s.globals, operations := s.operations, outer := w }

/-- An environment with another host. -/
def Env.withHost (env : Env σ) (k : Host τ) : Env τ :=
  { host := k, limits := env.limits, first := env.first, routines := env.routines, level := env.level,
    blockStart := env.blockStart }

section

variable (R : σ → τ → Prop)

/-- Whether two functions of hosts give the same answer and leave states that are related. -/
def AlikeOn (f : σ → α × σ) (g : τ → α × τ) : Prop := ∀ v w, R v w → (f v).1 = (g w).1 ∧ R (f v).2 (g w).2

/-- Whether two hosts give the same answers as long as their states are related, and keep them so. -/
structure Host.Tied (h : Host σ) (k : Host τ) : Prop where
  progress : AlikeOn R h.progress k.progress
  print : ∀ text {v w}, R v w → R (h.print text v) (k.print text w)
  debug : ∀ p text {v w}, R v w → R (h.debug p text v) (k.debug p text w)
  call : ∀ name args, Option.Rel (AlikeOn R) (h.call name args) (k.call name args)

/-- Whether two states differ in what lies outside at most, which is related. -/
def Store.Beside (s : Store σ) (t : Store τ) : Prop := ∃ w, R s.outer w ∧ t = s.withOuter w

/-- Whether two steps do the same as long as what lies outside of them is related, and keep it so. -/
abbrev Eval.Tied (x : Eval σ α) (y : Eval τ α) : Prop := Failing.Tied (Store.Beside R) x y

/-- Whether two built-in functions do the same. -/
structure Native.Tied (n : Native σ) (l : Native τ) : Prop where
  changes : n.changes = l.changes
  run : Eval.Tied R n.run l.run

end

variable {R : σ → τ → Prop}

namespace Env

variable (env : Env σ) (k : Host τ)

@[simp] theorem host_withHost : (env.withHost k).host = k := rfl

@[simp] theorem limits_withHost : (env.withHost k).limits = env.limits := rfl

@[simp] theorem routines_withHost : (env.withHost k).routines = env.routines := rfl

@[simp] theorem level_withHost : (env.withHost k).level = env.level := rfl

@[simp] theorem blockStart_withHost : (env.withHost k).blockStart = env.blockStart := rfl

@[simp] theorem closure?_withHost : (env.withHost k).closure? = env.closure? := rfl

@[simp] theorem function?_withHost : (env.withHost k).function? = env.function? := rfl

@[simp] theorem named?_withHost : (env.withHost k).named? = env.named? := rfl

end Env

namespace Store

variable (s : Store σ) (w : τ)

@[simp] theorem scope_withOuter : (s.withOuter w).scope = s.scope := rfl

@[simp] theorem this_withOuter : (s.withOuter w).this = s.this := rfl

@[simp] theorem cells_withOuter : (s.withOuter w).cells = s.cells := rfl

@[simp] theorem globals_withOuter : (s.withOuter w).globals = s.globals := rfl

@[simp] theorem operations_withOuter : (s.withOuter w).operations = s.operations := rfl

@[simp] theorem outer_withOuter : (s.withOuter w).outer = w := rfl

end Store

namespace Eval

/-- A look at the state shows the same but for what lies outside. -/
theorem get_tied {f : Store σ → Eval σ β} {g : Store τ → Eval τ β}
    (h : ∀ s w, R s.outer w → Tied R (f s) (g (s.withOuter w))) : Tied R (get >>= f) (get >>= g) :=
  .get_bind fun s _ ⟨w, hw, ht⟩ => ht ▸ h s w hw

theorem set_tied {s : Store σ} {w : τ} (h : R s.outer w) :
    Tied R (set s : Eval σ PUnit) (set (s.withOuter w)) := .set ⟨w, h, rfl⟩

/-- What lies outside may be changed on both sides. -/
theorem modify_tied {f : Store σ → Store σ} {g : Store τ → Store τ} (φ : τ → τ)
    (h : ∀ s w, R s.outer w → R (f s).outer (φ w) ∧ g (s.withOuter w) = (f s).withOuter (φ w)) :
    Tied R (modify f : Eval σ PUnit) (modify g) :=
  .modify fun s _ ⟨w, hw, ht⟩ => ⟨φ w, (h s w hw).1, ht ▸ (h s w hw).2⟩

variable {env : Env σ} {k : Host τ}

theorem fail_tied (c : Cause) (p : Place) : Tied R (fail c p : Eval σ α) (fail c p) := .throw _

theorem ofOutcome_tied (o : Outcome) (p : Place) : Tied R (ofOutcome o p) (ofOutcome o p) := by
  cases o with
  | ok v => exact .pure v
  | error c => exact fail_tied c p

theorem attempt_tied {x : Eval σ α} {y : Eval τ α} (h : Tied R x y) : Tied R (attempt x) (attempt y) := by
  intro s t hst
  exact ⟨congrArg Except.ok (h s t hst).1, (h s t hst).2⟩

theorem resume_tied (r : Except Interrupt α) : Tied R (resume r) (resume r) := by
  cases r with
  | ok a => exact .pure a
  | error e => exact .throw e

theorem tick_tied (hk : env.host.Tied R k) (p : Place) : Tied R (tick env p) (tick (env.withHost k) p) := by
  refine get_tied fun s w hw => .ite (fun _ => ?_) fun _ => ?_
  · exact (set_tied (s := { s with operations := s.operations + 1 }) hw).bind fun _ => fail_tied _ _
  · obtain ⟨hgoes, hleft⟩ := hk.progress _ _ hw
    have hset := set_tied (s := { s with operations := s.operations + 1, outer := (env.host.progress s.outer).2 }) hleft
    refine hset.bind fun _ => ?_
    simp only [Env.host_withHost, Store.outer_withOuter, ← hgoes]
    exact .ite (fun _ => .pure _) fun _ => fail_tied _ _

theorem flat_tied (v : Value) : Tied R (flat v) (flat v) := get_tied fun _ _ _ => .pure _

theorem binding_tied (name : String) (bound : Bool) (p : Place) :
    Tied R (binding env name bound p) (binding (env.withHost k) name bound p) := by
  unfold binding
  simp only [Env.named?_withHost]
  split
  · exact .pure _
  · refine get_tied fun s w _ => ?_
    simp only [Store.scope_withOuter]
    split
    · exact .pure _
    · exact fail_tied _ _

theorem readVariable_tied (name : String) (bound : Bool) (p : Place) :
    Tied R (readVariable env name bound p) (readVariable (env.withHost k) name bound p) :=
  (binding_tied name bound p).bind fun _ => flat_tied _

theorem readQualified_tied (path : List String) (name : String) (p : Place) :
    Tied R (readQualified path name p) (readQualified path name p) := by
  refine .ite (fun _ => get_tied fun s w _ => ?_) fun _ => fail_tied _ _
  simp only [Store.globals_withOuter]
  split
  · exact .pure _
  · exact fail_tied _ _

theorem writeVariable_tied (name : String) (v : Value) : Tied R (writeVariable name v) (writeVariable name v) := by
  refine modify_tied id fun s w hw => ?_
  simp only [Store.scope_withOuter, Store.cells_withOuter]
  split <;> exact ⟨hw, rfl⟩

theorem withScope_tied {x : Eval σ α} {y : Eval τ α} (h : Tied R x y) : Tied R (withScope x) (withScope y) := by
  unfold withScope
  refine get_tied fun _ _ _ => (attempt_tied h).bind fun r => .bind ?_ fun _ => resume_tied r
  exact modify_tied id fun s w hw => ⟨hw, rfl⟩

theorem checkSizes_tied (s : Sizes) (p : Place) : Tied R (checkSizes env s p) (checkSizes (env.withHost k) s p) := by
  unfold checkSizes
  simp only [Env.limits_withHost]
  split
  · exact fail_tied _ _
  · exact .pure _

theorem checkSize_tied (v : Value) (p : Place) : Tied R (checkSize env v p) (checkSize (env.withHost k) v p) := by
  unfold checkSize
  simp only [Env.limits_withHost]
  split
  · exact fail_tied _ _
  · exact .pure _

theorem asBool_tied (v : Value) (p : Place) : Tied R (asBool v p) (asBool v p) := by
  unfold asBool
  split
  · exact .pure _
  · exact fail_tied _ _

end Eval

/-! ## Sorting -/

namespace Library

variable {precedes : Value → Value → Eval σ Bool} {precedes' : Value → Value → Eval τ Bool}
  (h : ∀ v w, Eval.Tied R (precedes v w) (precedes' v w))

include h

theorem insertBackwards_tied (v : Value) :
    ∀ vs, Eval.Tied R (insertBackwards precedes v vs) (insertBackwards precedes' v vs)
  | [] => .pure _
  | w :: rest =>
    (h v w).bind fun _ => .ite (fun _ => (insertBackwards_tied v rest).bind fun _ => .pure _) fun _ => .pure _

theorem insertAll_tied : ∀ acc vs, Eval.Tied R (insertAll precedes acc vs) (insertAll precedes' acc vs)
  | _, [] => .pure _
  | acc, v :: rest => (insertBackwards_tied h v acc).bind fun acc => insertAll_tied acc rest

theorem merge_tied (vs ws : List Value) : Eval.Tied R (merge precedes vs ws) (merge precedes' vs ws) := by
  fun_induction merge precedes vs ws with
  | case1 ws =>
    rw [merge]
    exact .pure _
  | case2 vs hvs =>
    rw [merge]
    exact .pure _
    exact hvs
  | case3 v vs w ws ih₁ ih₂ =>
    rw [merge]
    exact (h w v).bind fun _ => .ite (fun _ => ih₁.bind fun _ => .pure _) fun _ => ih₂.bind fun _ => .pure _

theorem sortBy_tied (vs : List Value) : Eval.Tied R (sortBy precedes vs) (sortBy precedes' vs) := by
  fun_induction sortBy precedes vs with
  | case1 vs hvs =>
    rw [sortBy.eq_def precedes', dif_pos hvs]
    exact insertAll_tied h [] vs
  | case2 vs hvs half ih₁ ih₂ =>
    rw [sortBy.eq_def precedes', dif_neg hvs]
    exact ih₁.bind fun _ => ih₂.bind fun _ => merge_tied h _ _

end Library

end Lang
end ArmPilot
