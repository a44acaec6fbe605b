import ArmPilot.Proofs.Lang.Eval.Invariant

/-!
# Watching a host

A `Watch` says what holds of the state of a host as long as nothing breaks down, and what holds of a breakdown and the
state that it leaves.  If the host keeps a watch, so does every step of the evaluator: it changes the state outside only
through the host, and a breakdown ends the evaluation at once, whatever a script does to catch its failures.
-/

open Std.Do

set_option mvcgen.warning false

namespace ArmPilot
namespace Lang

/-- What is watched of the state of a host. -/
structure Watch (σ : Type) where
  /-- What holds of the state as long as nothing breaks down. -/
  calm : σ → Prop
  /-- What holds of a breakdown and of the state that it leaves. -/
  broken : Breakdown → σ → Prop

namespace Watch

variable {σ α : Type} (W : Watch σ)

/-- What holds of the state that an interruption leaves. -/
def Left : Interrupt → σ → Prop
  | .panic b, w => W.broken b w
  | _, w => W.calm w

/-- What holds of the state behind a result that is set aside. -/
def Behind : Except Interrupt α → σ → Prop
  | .ok _, w => W.calm w
  | .error e, w => W.Left e w

/-- A step keeps watch and gives a result for which something holds. -/
abbrev Yields (m : Eval σ α) (Q : α → σ → Prop) : Prop :=
  ⦃fun s => ⌜W.calm s.outer⌝⦄ m ⦃post⟨fun a s => ⌜Q a s.outer⌝, fun e s => ⌜W.Left e s.outer⌝⟩⦄

/-- A step keeps watch. -/
abbrev Keeps (m : Eval σ α) : Prop := W.Yields m fun _ => W.calm

/-- A call keeps watch, also if it is told how it ends without being interrupted by it. -/
abbrev Settles (m : Eval σ Called) : Prop := W.Yields m fun r => W.Behind r.1

/-- A host keeps watch. -/
structure Holds (h : Host σ) : Prop where
  progress : ∀ {w}, W.calm w → W.calm (h.progress w).2
  print : ∀ text {w}, W.calm w → W.calm (h.print text w)
  debug : ∀ p text {w}, W.calm w → W.calm (h.debug p text w)
  call : ∀ {name args act}, h.call name args = some act → ∀ {w}, W.calm w →
    match (act w).1 with
    | .ok _ => W.calm (act w).2
    | .error b => W.broken b (act w).2

variable {W}

/-- What a step that keeps watch leaves, from every state. -/
theorem yields_iff {m : Eval σ α} {Q : α → σ → Prop} :
    W.Yields m Q ↔ ∀ s, W.calm s.outer →
      match m.run.run s with
      | (.ok a, s') => Q a s'.outer
      | (.error e, s') => W.Left e s'.outer := by
  refine Failing.triple_iff.trans (forall_congr' fun s => imp_congr_right fun _ => ?_)
  rcases m.run.run s with ⟨_ | _, s'⟩ <;> simp

@[simp]
theorem behind_ok {a : α} {w : σ} : W.Behind (.ok a) w ↔ W.calm w := Iff.rfl

@[simp]
theorem behind_error {e : Interrupt} {w : σ} : W.Behind (.error e : Except Interrupt α) w ↔ W.Left e w := Iff.rfl

@[simp]
theorem left_failure {f : Failure} {w : σ} : W.Left (.failure f) w ↔ W.calm w := Iff.rfl

/-- What is set aside has left the host calm, but for a breakdown. -/
theorem Behind.calm {r : Except Interrupt α} {w : σ} (h : W.Behind r w) (hr : ∀ b, r ≠ .error (.panic b)) :
    W.calm w := by
  match r, h with
  | .ok _, h => exact h
  | .error (.panic b), _ => exact absurd rfl (hr b)
  | .error (.failure _), h | .error (.leave _ _), h | .error (.giveBack _), h | .error .exhausted, h => exact h

variable (W) in
/-- What is watched does not change as long as a script runs. -/
def invariant : Invariant σ where
  holds s := W.calm s.outer
  left e s := W.Left e s.outer
  left_of_holds {e s} he h := by
    cases e with
    | panic b => exact absurd rfl (he b)
    | _ => exact h

theorem Behind.bind {β : Type} {f : α → Except Interrupt β} {r : Except Interrupt α} {w : σ} (h : W.Behind r w)
    (hf : ∀ a, W.calm w → W.Behind (f a) w) : W.Behind (r.bind f) w := by
  cases r with
  | ok a => exact hf a h
  | error e => exact h

theorem Behind.map {β : Type} {f : α → β} {r : Except Interrupt α} {w : σ} (h : W.Behind r w) :
    W.Behind (r.map f) w := by
  cases r <;> exact h

end Watch

namespace Eval

variable {σ α : Type} (W : Watch σ) (env : Env σ)

theorem flat_keeps (v : Value) : W.Keeps (flat v) := Invariant.keeps_flat (I := W.invariant) v

theorem ofOutcome_keeps (o : Outcome) (p : Place) : W.Keeps (ofOutcome o p) :=
  Invariant.keeps_ofOutcome (I := W.invariant) o p

theorem readQualified_keeps (path : List String) (name : String) (p : Place) : W.Keeps (readQualified path name p) :=
  Invariant.keeps_readQualified (I := W.invariant) path name p

theorem checkSize_keeps (v : Value) (p : Place) : W.Keeps (checkSize env v p) :=
  Invariant.keeps_checkSize (I := W.invariant) env v p

theorem asBool_keeps (v : Value) (p : Place) : W.Keeps (asBool v p) := Invariant.keeps_asBool (I := W.invariant) v p

theorem resume_keeps (r : Except Interrupt α) :
    ⦃fun s => ⌜W.Behind r s.outer⌝⦄ (resume r : Eval σ α)
    ⦃post⟨fun _ s => ⌜W.calm s.outer⌝, fun e s => ⌜W.Left e s.outer⌝⟩⦄ := by
  mvcgen [resume]

theorem attempt_run (m : Eval σ α) (s : Store σ) :
    (attempt m).run.run s = (.ok (m.run.run s).1, (m.run.run s).2) := rfl

variable {W} in
/-- What is set aside has left the state as the interruption would have. -/
theorem attempt_yields {m : Eval σ α} (h : W.Keeps m) : W.Yields (attempt m) fun r => W.Behind r := by
  refine Watch.yields_iff.2 fun s hs => ?_
  have hm := Watch.yields_iff.1 h s hs
  rw [attempt_run]
  match hr : m.run.run s with
  | (.ok _, _) | (.error _, _) => rw [hr] at hm; exact hm

variable {W} {env} in
theorem tick_keeps (h : W.Holds env.host) (p : Place) : W.Keeps (tick env p) := by
  mvcgen [tick, fail]
  all_goals exact h.progress ‹_›

theorem binding_keeps (name : String) (bound : Bool) (p : Place) : W.Keeps (binding env name bound p) := by
  mvcgen [binding, fail]

theorem readVariable_keeps (name : String) (bound : Bool) (p : Place) : W.Keeps (readVariable env name bound p) := by
  have hflat := flat_keeps W
  have hbinding := binding_keeps W env
  mvcgen [readVariable, hflat, hbinding]

/-- A store with another value of a variable. -/
def written (name : String) (v : Value) (s : Store σ) : Store σ :=
  let v := v.flat s.cells
  match s.scope.lookup name with
  | some ⟨_, .shared c, _⟩ => { s with cells := s.cells.modify c fun cell => { cell with value := v } }
  | _ => { s with scope := s.scope.update name v }

@[simp]
theorem outer_written (name : String) (v : Value) (s : Store σ) : (written name v s).outer = s.outer := by
  unfold written
  split <;> rfl

theorem writeVariable_eq (name : String) (v : Value) :
    (writeVariable name v : Eval σ Unit) = modify (written name v) := rfl

theorem writeVariable_spec (name : String) (v : Value) {Q : PostCond Unit (.except Interrupt (.arg (Store σ) .pure))} :
    ⦃fun s => Q.1 () (written name v s)⦄ (writeVariable name v : Eval σ Unit) ⦃Q⦄ := by
  mvcgen [writeVariable_eq]

variable {W} in
theorem withScope_keeps {m : Eval σ α} (h : W.Keeps m) : W.Keeps (withScope m) := by
  have hm := attempt_yields h
  have hresume := @resume_keeps σ α W
  mvcgen [withScope, hm, hresume]

end Eval

end Lang
end ArmPilot
