import ArmPilot.Proofs.Worker.Routine

/-!
# Requests to stop

A request to stop takes two steps: it makes the machines inert, then it asks the run to stop.  Each of them raises a
flag.  At the end of a play a flag is up only if it was up before, if a request has raised it, or if the worker has
(`Activity.flag_play`).
-/

namespace ArmPilot

variable {σ α : Type}

/-- Whether the arm is inert. -/
def World.armInert (w : World σ) : Bool := w.robot.exiting

/-- Whether camera or arm is inert. -/
def World.inert (w : World σ) : Bool := w.visionExiting || w.armInert

/-- A step of a request to stop. -/
inductive Plea where
  /-- It makes the machines inert. -/
  | raise
  /-- It asks the run to stop. -/
  | cancel
deriving Repr, DecidableEq

/-- Whether a flag tells that the devices, camera or arm, are inert. -/
structure World.OfDevices (flag : World σ → Bool) : Prop where
  raised : ∀ w : World σ, flag (w.setExiting true) = true
  cleared : ∀ w : World σ, flag (w.setExiting false) = false
  only : ∀ w w' : World σ, w.visionExiting = w'.visionExiting → w.armInert = w'.armInert → flag w = flag w'

theorem World.ofDevices_visionExiting : World.OfDevices (σ := σ) World.visionExiting :=
  ⟨fun _ => rfl, fun _ => rfl, fun _ _ h _ => h⟩

theorem World.ofDevices_armInert : World.OfDevices (σ := σ) World.armInert :=
  ⟨fun _ => rfl, fun _ => rfl, fun _ _ _ h => h⟩

theorem World.ofDevices_inert : World.OfDevices (σ := σ) World.inert :=
  ⟨fun _ => rfl, fun _ => rfl, fun w w' hv ha => by rw [World.inert, World.inert, hv, ha]⟩

namespace Plea

/-- What a step of a request does to the world. -/
def act : Plea → World σ → World σ
  | .raise, w => w.setExiting true
  | .cancel, w => w.cancel

/-- A request takes its two steps in this order. -/
theorem requestStop_eq (w : World σ) : w.requestStop = [Plea.raise, .cancel].foldl (fun w p => p.act w) w := rfl

/-- Whether a flag of the world is one that a step of a request raises, and the other leaves alone. -/
structure Raises (p : Plea) (flag : World σ → Bool) : Prop where
  raised : ∀ w, flag (p.act w) = true
  kept : ∀ q ≠ p, ∀ w, flag (q.act w) = flag w

theorem raises_devices {flag : World σ → Bool} (h : World.OfDevices flag) : Plea.raise.Raises flag where
  raised := h.raised
  kept q hq w := by
    cases q with
    | raise => exact absurd rfl hq
    | cancel => exact h.only _ _ rfl rfl

theorem raises_cancelled : Plea.cancel.Raises (σ := σ) World.cancelled where
  raised _ := rfl
  kept q hq _ := by
    cases q with
    | raise => rfl
    | cancel => exact absurd rfl hq

end Plea

namespace Activity

/-- Whether a flag is up. -/
def has (flag : World σ → Bool) (t : Activity σ α) : Bool := flag t.scene.world

/-- Whether a step that the worker takes in a play flips a flag. -/
def Flips (flag : World σ → Bool) (up : Bool) (t : Activity σ α) (ms : List (Move Plea)) : Prop :=
  ∃ front rest, ms = front ++ .work :: rest ∧ (t.play Plea.act front).has flag = !up ∧
    (t.play Plea.act front).step.has flag = up

variable {flag : World σ → Bool} {up : Bool} {p : Plea} {t : Activity σ α} {ms : List (Move Plea)}

theorem Flips.cons {m : Move Plea} (h : (t.move Plea.act m).Flips flag up ms) : t.Flips flag up (m :: ms) := by
  obtain ⟨front, rest, rfl, hbefore, hafter⟩ := h
  exact ⟨m :: front, rest, rfl, hbefore, hafter⟩

/-- **A flag is up at the end of a play only if it was up, or was raised**, and then it is up unless the worker has
taken it down. -/
theorem flag_play (hp : p.Raises flag) (t : Activity σ α) (ms : List (Move Plea)) :
    ((t.play Plea.act ms).has flag = true → t.has flag = true ∨ .other p ∈ ms ∨ t.Flips flag true ms) ∧
      (t.has flag = true ∨ .other p ∈ ms → (t.play Plea.act ms).has flag = true ∨ t.Flips flag false ms) := by
  induction ms generalizing t with
  | nil => exact ⟨.inl, fun h => h.elim .inl nofun⟩
  | cons m ms ih =>
    obtain ⟨hup, hkept⟩ := ih (t.move Plea.act m)
    cases m with
    | work =>
      have hmem : .other p ∈ Move.work :: ms ↔ .other p ∈ ms := by simp
      rw [hmem]
      refine ⟨fun h => ?_, fun h => ?_⟩
      · rcases hup h with hstep | hp' | hflips
        · cases ht : t.has flag with
          | true => exact .inl rfl
          | false => exact .inr (.inr ⟨[], ms, rfl, ht, hstep⟩)
        · exact .inr (.inl hp')
        · exact .inr (.inr hflips.cons)
      · cases hstep : t.step.has flag with
        | true => exact (hkept (.inl hstep)).imp_right Flips.cons
        | false =>
          rcases h with ht | hp'
          · exact .inr ⟨[], ms, rfl, ht, hstep⟩
          · exact (hkept (.inr hp')).imp_right Flips.cons
    | other q =>
      by_cases hq : q = p
      · subst hq
        exact ⟨fun _ => .inr (.inl (List.mem_cons_self ..)), fun _ => (hkept (.inl (hp.raised _))).imp_right Flips.cons⟩
      · have hhas : (t.move Plea.act (.other q)).has flag = t.has flag := hp.kept q hq _
        have hmem : .other p ∈ Move.other q :: ms ↔ .other p ∈ ms := by simp [Ne.symm hq]
        rw [hmem]
        refine ⟨fun h => ?_, fun h => (hkept (hhas ▸ h)).imp_right Flips.cons⟩
        exact (hup h).imp (hhas ▸ ·) (.imp_right Flips.cons)

/-- A flag that is down is up at the end of a play only if it was raised, and then it is up unless the worker has taken
it down. -/
theorem flag_play_of_down (hp : p.Raises flag) (ht : t.has flag = false) (ms : List (Move Plea)) :
    ((t.play Plea.act ms).has flag = true → .other p ∈ ms ∨ t.Flips flag true ms) ∧
      (.other p ∈ ms → (t.play Plea.act ms).has flag = true ∨ t.Flips flag false ms) := by
  obtain ⟨hup, hkept⟩ := flag_play hp t ms
  rw [ht] at hup hkept
  exact ⟨fun h => (hup h).resolve_left Bool.false_ne_true, fun h => hkept (.inr h)⟩

/-- The same of a play that follows moves of others and one step of the worker, which leaves the flag alone. -/
theorem flag_play_behind (hp : p.Raises flag) (ht : t.has flag = false) {between : List (Move Plea)}
    (hidle : ∀ m ∈ between, m ≠ .work)
    (hstep : (t.play Plea.act (between ++ [.work])).has flag = (t.play Plea.act between).has flag)
    (behind : List (Move Plea)) :
    let u := t.play Plea.act (between ++ [.work])
    ((u.play Plea.act behind).has flag = true → .other p ∈ between ++ behind ∨ u.Flips flag true behind) ∧
      (.other p ∈ between ++ behind → (u.play Plea.act behind).has flag = true ∨ u.Flips flag false behind) := by
  intro u
  have hnone (up : Bool) : ¬t.Flips flag up between := fun ⟨front, rest, hms, _⟩ =>
    hidle .work (hms ▸ List.mem_append_right front (List.mem_cons_self ..)) rfl
  obtain ⟨hbefore, hbefore'⟩ := flag_play_of_down hp ht between
  rw [← hstep] at hbefore hbefore'
  obtain ⟨hup, hkept⟩ := flag_play hp u behind
  refine ⟨fun h => ?_, fun hmem => ?_⟩
  · rcases hup h with hu | hmem | hflips
    · exact .inl (List.mem_append_left _ ((hbefore hu).resolve_right (hnone true)))
    · exact .inl (List.mem_append_right _ hmem)
    · exact .inr hflips
  · rcases List.mem_append.1 hmem with hmem | hmem
    · exact hkept (.inl ((hbefore' hmem).resolve_right (hnone false)))
    · exact hkept (.inr hmem)

end Activity
end ArmPilot
