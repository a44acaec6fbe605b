import ArmPilot.Command.Kinds
import ArmPilot.Proofs.Lang.Eval.Statement
import ArmPilot.Proofs.Lang.Parser.Statement

/-!
# Oversleeping

A sleep whose end is beyond the range of the clock breaks down.  Nothing else does that an expression can ask for, as
long as the camera is steady: the evaluation of an expression breaks down only in the moment of such a sleep.
-/

open Std.Do

set_option mvcgen.warning false

namespace ArmPilot

open Lang (Value Watch)

variable {σ : Type}

/-- Whether the camera never breaks down when it is asked. -/
def Outside.Steady (o : Outside σ) : Prop := ∀ name w, ∃ w', o.asked name w = .ok w'

/-- Whether a breakdown is that of a sleep begun in a world, the end of which is beyond the range of the clock. -/
def World.Oversleeps (w : World σ) (b : Breakdown) : Prop :=
  ∃ duration, b = .overslept w.clock duration ∧ clockEnd ≤ w.clock + duration

/-- A sleep overflows exactly if its end is beyond the range of the clock, and then nothing has happened yet. -/
theorem World.sleep_overflow_iff {o : Outside σ} {duration poll : Nat} {w w' : World σ} :
    w.sleep o duration poll = (.overflow, w') ↔ clockEnd ≤ w.clock + duration ∧ w' = w := by
  have huntil (deadline fuel : Nat) (w : World σ) : (sleepUntil o deadline (max poll leastPoll) fuel w).1 ≠ .overflow := by
    fun_induction sleepUntil o deadline (max poll leastPoll) fuel w with
    | case1 => exact nofun
    | case2 => exact nofun
    | case3 => exact nofun
    | case4 w fuel _ _ ih => exact ih
  unfold sleep
  dsimp only
  split
  · rename_i hend
    refine ⟨fun h => ⟨hend, (congrArg Prod.snd h).symm⟩, ?_⟩
    rintro ⟨-, rfl⟩
    rfl
  · rename_i hend
    refine ⟨fun h => absurd (congrArg Prod.fst h) (huntil _ _ _), fun h => absurd h.1 hend⟩

namespace Devices

/-- Whether a deed breaks down only by oversleeping. -/
def Deed.Wakes (d : Deed σ) : Prop := ∀ w b w', d w = (.error b, w') → w'.Oversleeps b

theorem answer_wakes (f : World σ → Value × World σ) : Deed.Wakes (answer f) := by
  intro w b w' h
  cases congrArg Prod.fst h

theorem checked_wakes {α : Type} (args : Except Lang.Cause α) {f : α → Deed σ} (h : ∀ a, (f a).Wakes) :
    Deed.Wakes (checked args f) := by
  intro w b w' hw
  cases args with
  | ok a => exact h a w b w' hw
  | error c => cases hw

/-- A script's sleep breaks down exactly if its time can be measured and its end is beyond the range of the clock. -/
theorem sleep_eq_error_iff {o : Outside σ} {poll : Nat} {seconds : Float} {w w' : World σ} {b : Breakdown} :
    sleep o poll seconds w = (.error b, w') ↔
      ∃ duration, nanosOf? (sleepTime seconds) = some duration ∧ World.clockEnd ≤ w.clock + duration ∧
        b = .overslept w.clock duration ∧ w' = w := by
  unfold sleep
  constructor
  · intro h
    split at h
    · cases h
    · rename_i duration hduration
      split at h
      · cases h
      · cases h
      · rename_i hsleep
        obtain ⟨hend, rfl⟩ := World.sleep_overflow_iff.1 hsleep
        cases h
        exact ⟨duration, hduration, hend, rfl, rfl⟩
  · rintro ⟨duration, hduration, hend, rfl, rfl⟩
    rw [hduration]
    dsimp only
    rw [World.sleep_overflow_iff.2 ⟨hend, rfl⟩]

theorem sleep_wakes (o : Outside σ) (poll : Nat) (seconds : Float) : Deed.Wakes (sleep o poll seconds) := by
  intro w b w' h
  obtain ⟨duration, -, hend, rfl, rfl⟩ := sleep_eq_error_iff.1 h
  exact ⟨duration, rfl, hend⟩

theorem isTracking_wakes {o : Outside σ} (ho : o.Steady) (name : String) : Deed.Wakes (isTracking o name) := by
  intro w b w' h
  obtain ⟨w'', hasked⟩ := ho name w
  unfold isTracking at h
  rw [hasked] at h
  cases h

/-- **The machines break down only when a script oversleeps.** -/
theorem call_wakes {o : Outside σ} (ho : o.Steady) (poll : Nat) {name : String} {args : List Value} {act : Deed σ}
    (h : call o poll name args = some act) : act.Wakes := by
  unfold call at h
  split at h
  case h_13 => cases h
  all_goals obtain rfl := Option.some.inj h
  case h_1 => exact checked_wakes _ fun x => answer_wakes _
  case h_2 => exact checked_wakes _ fun p => answer_wakes _
  case h_3 => exact checked_wakes _ fun p => answer_wakes _
  case h_7 => exact isTracking_wakes ho _
  all_goals first
    | exact answer_wakes _
    | exact sleep_wakes o poll _

/-- What is watched of the world: a breakdown is that of a sleep begun in the world that it leaves. -/
def watch (σ : Type) : Watch (World σ) where
  calm _ := True
  broken b w := w.Oversleeps b

theorem holds_host {o : Outside σ} (ho : o.Steady) (poll : Nat) : (watch σ).Holds (host o poll) where
  progress _ := trivial
  print _ _ _ := trivial
  debug _ _ _ _ := trivial
  call {name args act} h w _ := by
    have hact := call_wakes ho poll h w
    match hr : act w with
    | (.ok _, w') => trivial
    | (.error b, w') => exact hact b w' hr

end Devices

namespace Act

/-- An act breaks down only by oversleeping. -/
abbrev Wakes {α : Type} (a : Act σ α) : Prop :=
  ⦃fun _ => ⌜True⌝⦄ a ⦃post⟨fun _ _ => ⌜True⌝, fun b s => ⌜s.world.Oversleeps b⌝⟩⦄

/-- Whether an act breaks down in a scene, by oversleeping. -/
def Oversleeps {α : Type} (a : Act σ α) (s : Scene σ) (b : Breakdown) : Prop :=
  (a.run.run s).1 = .error b ∧ (a.run.run s).2.world.Oversleeps b

theorem wakes_iff {α : Type} {a : Act σ α} : a.Wakes ↔ ∀ s b, (a.run.run s).1 = .error b → a.Oversleeps s b := by
  refine Failing.triple_iff.trans (forall_congr' fun s => ?_)
  rcases hr : a.run.run s with ⟨_ | _, s'⟩ <;> simp [hr, Oversleeps]

variable {o : Outside σ} (ho : o.Steady)

include ho

/-- **A script breaks down only by oversleeping**, whatever it does to catch its failures. -/
theorem evalProgram_wakes {p : Lang.Program} (hp : p.Placed) : (evalProgram o p).Wakes := by
  refine wakes_iff.2 fun s b hb => ⟨hb, ?_⟩
  have hhost := Devices.holds_host ho s.sandbox.sleepPoll
  have heval := Watch.yields_iff.1 (Lang.Program.eval_keeps hhost hp s.sandbox.limits Lang.Eval.endless) s.store trivial
  unfold evalProgram at hb ⊢
  dsimp only [ExceptT.run, ExceptT.mk, StateT.run] at heval hb ⊢
  generalize (p.eval (Devices.host o s.sandbox.sleepPoll) s.sandbox.limits Lang.Eval.endless) s.store = r at heval hb ⊢
  match r with
  | (.ok _, _) => cases hb
  | (.error (.panic _), t) =>
    obtain rfl := Except.error.inj hb
    exact heval
  | (.error (.failure _), _) | (.error (.leave _ _), _) | (.error (.giveBack _), _) | (.error .exhausted, _) => cases hb

theorem tryEvaluate_wakes (text : String) : (tryEvaluate o text).Wakes := by
  have heval := @evalProgram_wakes σ o ho
  mvcgen [tryEvaluate, heval]
  exact Lang.Bounds.placed_of_parseExpression ‹_›

theorem evaluate_wakes (text : String) : (evaluate o text).Wakes := by
  have htry := tryEvaluate_wakes ho
  mvcgen [evaluate, htry, note, onWorld]

end Act

/-- A question is answered from the value of its expression, if that has one. -/
theorem Command.run_holds (o : Outside σ) (text : String) (s : Scene σ) :
    (holds o text).run.run s =
      match (Act.evaluate o text).run.run s with
      | (.ok v, s') => (.ok (v.any Value.truthy), s')
      | (.error b, s') => (.error b, s') := by
  unfold holds
  rw [Failing.run_bind]
  rcases (Act.evaluate o text).run.run s with ⟨_ | _ | _, s'⟩
  · rfl
  · rfl
  · rfl

/-- A question breaks down exactly if the evaluation of its expression does. -/
theorem Command.holds_eq_error_iff {o : Outside σ} {text : String} {s : Scene σ} {b : Breakdown} :
    ((holds o text).run.run s).1 = .error b ↔ ((Act.evaluate o text).run.run s).1 = .error b := by
  rw [run_holds]
  rcases (Act.evaluate o text).run.run s with ⟨_ | _, s'⟩ <;> simp

end ArmPilot
