import ArmPilot.Lang.Eval.Statement
import ArmPilot.Proofs.Failing

/-!
# Invariants of the evaluator

An `Invariant` says what holds of a state as long as a script runs, and what of the state that an interruption leaves.
Much of the evaluator does nothing to a state by itself: it takes the values that it needs one by one, sorts, and counts
its rounds.  Such a step keeps every invariant that its parts keep.
-/

open Std.Do

set_option mvcgen.warning false

namespace ArmPilot
namespace Lang

variable {σ α : Type}

/-- What holds of the states that a script goes through. -/
structure Invariant (σ : Type) where
  holds : Store σ → Prop
  /-- What holds of the state that an interruption leaves. -/
  left : Interrupt → Store σ → Prop
  /-- Only a breakdown can leave another state than the script has. -/
  left_of_holds : ∀ {e s}, (∀ b, e ≠ .panic b) → holds s → left e s

namespace Invariant

variable (I : Invariant σ)

/-- A step keeps an invariant. -/
abbrev Keeps (m : Eval σ α) : Prop :=
  ⦃fun s => ⌜I.holds s⌝⦄ m ⦃post⟨fun _ s => ⌜I.holds s⌝, fun e s => ⌜I.left e s⌝⟩⦄

variable {I}

theorem failed {s : Store σ} (h : I.holds s) (f : Failure) : I.left (.failure f) s := I.left_of_holds nofun h

/-! ## Single steps -/

theorem keeps_flat (v : Value) : I.Keeps (Eval.flat v) := by
  mvcgen [Eval.flat]

theorem keeps_fail (c : Cause) (p : Place) : I.Keeps (Eval.fail c p : Eval σ α) := by
  mvcgen [Eval.fail]
  exact failed ‹_› _

theorem keeps_ofOutcome (o : Outcome) (p : Place) : I.Keeps (Eval.ofOutcome o p) := by
  have hfail := @keeps_fail σ Value I
  mvcgen [Eval.ofOutcome, hfail]

theorem keeps_readQualified (path : List String) (name : String) (p : Place) :
    I.Keeps (Eval.readQualified path name p) := by
  have hfail := @keeps_fail σ Value I
  mvcgen [Eval.readQualified, hfail]

theorem keeps_checkSizes (env : Env σ) (s : Sizes) (p : Place) : I.Keeps (Eval.checkSizes env s p) := by
  have hfail := @keeps_fail σ Unit I
  mvcgen [Eval.checkSizes, hfail]

theorem keeps_checkSize (env : Env σ) (v : Value) (p : Place) : I.Keeps (Eval.checkSize env v p) := by
  have hfail := @keeps_fail σ Unit I
  mvcgen [Eval.checkSize, hfail]

theorem keeps_check (s : Eval.Stored) : I.Keeps s.check := by
  mvcgen [Eval.Stored.check]
  exact failed ‹_› _

theorem keeps_asBool (v : Value) (p : Place) : I.Keeps (Eval.asBool v p) := by
  have hfail := @keeps_fail σ Bool I
  mvcgen [Eval.asBool, hfail]

/-- A variable may be shared if the invariant holds with the variable in a cell. -/
theorem keeps_share {name : String}
    (h : ∀ s b, I.holds s → s.scope.lookup name = some b → b.value.isShared = false →
      I.holds { s with cells := s.cells.push ⟨b.value, b.readOnly⟩,
                       scope := s.scope.update name (.shared s.cells.size) })
    (p : Place) : I.Keeps (Eval.share name p) := by
  have hfail := @keeps_fail σ Value I
  mvcgen [Eval.share, hfail]
  rename_i s hs b hplain hb _
  refine h s b hs hb ?_
  cases hv : b.value with
  | shared c => exact (hplain b.name c b.readOnly (hv ▸ rfl)).elim
  | _ => rfl

/-! ## Sorting -/

section

variable {precedes : Value → Value → Eval σ Bool} (h : ∀ v w, I.Keeps (precedes v w))

include h

theorem keeps_insertBackwards (v : Value) : ∀ vs, I.Keeps (Library.insertBackwards precedes v vs)
  | [] => by
    mvcgen [Library.insertBackwards]
  | w :: rest => by
    have ih := keeps_insertBackwards v rest
    mvcgen [Library.insertBackwards, h, ih]

theorem keeps_insertAll : ∀ acc vs, I.Keeps (Library.insertAll precedes acc vs)
  | acc, [] => by
    mvcgen [Library.insertAll]
  | acc, v :: rest => by
    have hinsert := keeps_insertBackwards h v
    have ih := fun acc => keeps_insertAll acc rest
    mvcgen [Library.insertAll, hinsert, ih]

theorem keeps_merge (vs ws : List Value) : I.Keeps (Library.merge precedes vs ws) := by
  fun_induction Library.merge precedes vs ws with
  | case1 => mvcgen
  | case2 => mvcgen
  | case3 v vs w ws ih₁ ih₂ => mvcgen [h, ih₁, ih₂]

theorem keeps_sortBy (vs : List Value) : I.Keeps (Library.sortBy precedes vs) := by
  fun_induction Library.sortBy precedes vs with
  | case1 vs => exact keeps_insertAll h [] vs
  | case2 vs hvs half ih₁ ih₂ =>
    have hmerge := keeps_merge h
    mvcgen [hmerge, ih₁, ih₂]

end

section

variable {m : Machine σ} {env : Env σ} {f : Callback} {p : Place}

theorem keeps_sortWith (hjudge : ∀ args, I.Keeps (f.judge m env "sort" p args)) (vs : List Value) :
    I.Keeps (Eval.sortWith m env f vs p) := by
  refine keeps_sortBy (fun v w => ?_) vs
  mvcgen [hjudge]

theorem keeps_dedupWith (hjudge : ∀ args, I.Keeps (f.judge m env "dedup" p args)) :
    ∀ kept vs, I.Keeps (Eval.dedupWith m env f p kept vs)
  | kept, [] => by
    cases kept <;> mvcgen [Eval.dedupWith]
  | [], v :: rest => by
    have ih := fun kept => keeps_dedupWith hjudge kept rest
    mvcgen [Eval.dedupWith, ih]
  | last :: kept, v :: rest => by
    have ih := fun kept => keeps_dedupWith hjudge kept rest
    mvcgen [Eval.dedupWith, hjudge, ih]

end

/-! ## Parts one by one -/

section

variable {m : Machine σ} {env : Env σ}

theorem keeps_arguments : ∀ {es : List Expr}, (∀ e ∈ es, I.Keeps (m.eval env e)) → I.Keeps (Eval.arguments m env es)
  | [], _ => by
    mvcgen [Eval.arguments]
  | e :: rest, h => by
    have heval := h e List.mem_cons_self
    have hflat := @keeps_flat σ I
    have ih := keeps_arguments fun d hd => h d (List.mem_cons_of_mem e hd)
    mvcgen [Eval.arguments, heval, hflat, ih]

theorem keeps_items : ∀ {es : List Expr}, (∀ e ∈ es, I.Keeps (m.eval env e)) →
    ∀ total, I.Keeps (Eval.items m env total es)
  | [], _, _ => by
    mvcgen [Eval.items]
  | e :: rest, h, _ => by
    have heval := h e List.mem_cons_self
    have hflat := @keeps_flat σ I
    have hsizes := @keeps_checkSizes σ I env
    have ih := keeps_items fun d hd => h d (List.mem_cons_of_mem e hd)
    mvcgen [Eval.items, heval, hflat, hsizes, ih]

theorem keeps_members : ∀ {ms : List (String × Expr)}, (∀ e ∈ ms, I.Keeps (m.eval env e.2)) →
    ∀ total, I.Keeps (Eval.members m env total ms)
  | [], _, _ => by
    mvcgen [Eval.members]
  | (k, e) :: rest, h, _ => by
    have heval := h (k, e) List.mem_cons_self
    have hflat := @keeps_flat σ I
    have hsizes := @keeps_checkSizes σ I env
    have ih := keeps_members fun d hd => h d (List.mem_cons_of_mem (k, e) hd)
    mvcgen [Eval.members, heval, hflat, hsizes, ih]

theorem keeps_rounds {round : Eval σ (Option Value)} (h : I.Keeps round) : ∀ n, I.Keeps (Eval.rounds round n)
  | 0 => by
    mvcgen [Eval.rounds]
    exact I.left_of_holds nofun ‹_›
  | n + 1 => by
    have ih := keeps_rounds h n
    mvcgen [Eval.rounds, h, ih]

theorem keeps_statements : ∀ {stmts : List Stmt}, (∀ s ∈ stmts, I.Keeps (m.exec env s)) →
    I.Keeps (Eval.statements m env stmts)
  | [], _ => by
    mvcgen [Eval.statements]
  | [s], h => h s List.mem_cons_self
  | s :: t :: rest, h => by
    have hexec := h s List.mem_cons_self
    have hnext : ∀ u ∈ t :: rest, I.Keeps (m.exec env u) := fun u hu => h u (List.mem_cons_of_mem s hu)
    have ih := keeps_statements hnext
    mvcgen [Eval.statements, hexec, ih]

theorem keeps_runBody : ∀ {stmts : List Stmt}, (∀ s ∈ stmts, I.Keeps (m.exec env s)) →
    I.Keeps (Eval.invokeWith.runBody m env stmts)
  | [], _ => by
    mvcgen [Eval.invokeWith.runBody]
  | [s], h => by
    have hexec := h s List.mem_cons_self
    have hflat := @keeps_flat σ I
    mvcgen [Eval.invokeWith.runBody, hexec, hflat]
  | s :: t :: rest, h => by
    have hexec := h s List.mem_cons_self
    have hnext : ∀ u ∈ t :: rest, I.Keeps (m.exec env u) := fun u hu => h u (List.mem_cons_of_mem s hu)
    have ih := keeps_runBody hnext
    mvcgen [Eval.invokeWith.runBody, hexec, ih]

end

/-! ## Parts that take steps -/

section

variable {m : Machine σ} {env : Env σ} (htick : ∀ p, I.Keeps (Eval.tick env p))

include htick

theorem keeps_apply (w : Eval.Writing) (old : Value) : I.Keeps (w.apply env old) := by
  mvcgen [Eval.Writing.apply, htick]

theorem keeps_textOf : ∀ {es : List Expr}, (∀ e ∈ es, I.Keeps (m.eval env e)) →
    ∀ acc, I.Keeps (Eval.textOf m env acc es)
  | [], _, _ => by
    mvcgen [Eval.textOf]
  | e :: rest, h, _ => by
    have heval := h e List.mem_cons_self
    have hflat := @keeps_flat σ I
    have hsize := @keeps_checkSize σ I env
    have ih := keeps_textOf fun d hd => h d (List.mem_cons_of_mem e hd)
    mvcgen [Eval.textOf, heval, hflat, htick, hsize, ih]

theorem keeps_hopsOf : ∀ {links : List Link}, (∀ l ∈ links, I.Keeps (Eval.hop m env l)) →
    I.Keeps (Eval.hopsOf m env links)
  | [], _ => by
    mvcgen [Eval.hopsOf]
  | [l], h => by
    have hhop := h l List.mem_cons_self
    mvcgen [Eval.hopsOf, htick, hhop]
  | l :: next :: rest, h => by
    have hhop := h l List.mem_cons_self
    have hnext : ∀ k ∈ next :: rest, I.Keeps (Eval.hop m env k) := fun k hk => h k (List.mem_cons_of_mem l hk)
    have ih := keeps_hopsOf hnext
    mvcgen [Eval.hopsOf, htick, hhop, ih]

theorem keeps_hops {links : List Link} (h : ∀ l ∈ links, I.Keeps (Eval.hop m env l)) : I.Keeps (Eval.hops m env links) := by
  have hhops := keeps_hopsOf htick h
  unfold Eval.hops
  split
  · mvcgen
  · mvcgen
  · mvcgen
  · exact hhops

theorem keeps_shareAll (hshare : ∀ name p, I.Keeps (Eval.share name p)) : ∀ {es : List Expr},
    (∀ e ∈ es, I.Keeps (m.eval env e)) → I.Keeps (Eval.shareAll m env es)
  | [], _ => by
    mvcgen [Eval.shareAll]
  | e :: rest, h => by
    have heval := h e List.mem_cons_self
    have hflat := @keeps_flat σ I
    have ih := keeps_shareAll hshare fun d hd => h d (List.mem_cons_of_mem e hd)
    cases e <;> mvcgen [Eval.shareAll, heval, hflat, htick, hshare, ih]

end

end Invariant

end Lang
end ArmPilot
