import ArmPilot.Run.Schedule

/-!
# Waiting

While a run waits for its next tick, nothing happens to its world but that time passes and those outside act.  A tick
that is waited for is made unless the run is asked to stop in the meantime (`wait_fst`).
-/

namespace ArmPilot

variable {σ : Type} {o : Outside σ} {P : World σ → Prop}

namespace World

theorem sleepUntil_preserves (h : ∀ d w, P w → P (w.advance o d)) (deadline poll fuel : Nat) {w : World σ} (hw : P w) :
    P (sleepUntil o deadline poll fuel w).2 := by
  fun_induction sleepUntil o deadline poll fuel w with
  | case1 => exact hw
  | case2 => exact hw
  | case3 => exact hw
  | case4 w fuel _ _ ih => exact ih (h _ _ hw)

/-- A sleep changes nothing that neither the time nor those outside change. -/
theorem sleep_preserves (h : ∀ d w, P w → P (w.advance o d)) (duration poll : Nat) {w : World σ} (hw : P w) :
    P (w.sleep o duration poll).2 := by
  unfold sleep
  dsimp only
  split
  · exact hw
  · exact sleepUntil_preserves h _ _ _ hw

theorem cancelled_of_sleepUntil_cut {deadline poll fuel : Nat} {w : World σ}
    (h : (sleepUntil o deadline poll fuel w).1 = .cut) : (sleepUntil o deadline poll fuel w).2.cancelled = true := by
  fun_induction sleepUntil o deadline poll fuel w with
  | case1 => cases h
  | case2 w fuel hw => exact hw
  | case3 => cases h
  | case4 w fuel _ _ ih => exact ih h

/-- A sleep is cut short only if the run is asked to stop. -/
theorem cancelled_of_cut {duration poll : Nat} {w : World σ} (h : (w.sleep o duration poll).1 = .cut) :
    (w.sleep o duration poll).2.cancelled = true := by
  unfold sleep at h ⊢
  dsimp only at h ⊢
  split at h
  · cases h
  · rw [if_neg ‹_›]
    exact cancelled_of_sleepUntil_cut h

end World

namespace Schedule

/-- Waiting changes nothing that neither the time nor those outside change. -/
theorem wait_preserves (h : ∀ d w, P w → P (w.advance o d)) (poll : Nat) (s : Schedule) {w : World σ} (hw : P w) :
    P (s.wait o poll w).2.2 := by
  have hsleep := World.sleep_preserves h (s.next - w.clock) poll hw
  unfold wait
  split
  · match hs : w.sleep o (s.next - w.clock) poll with
    | (.cut, w') | (.full, w') | (.overflow, w') =>
      rw [hs] at hsleep
      exact hsleep
  · exact hw

/-- The next tick is made unless the run is asked to stop. -/
theorem wait_fst (poll : Nat) (s : Schedule) (w : World σ) : (s.wait o poll w).1 = !(s.wait o poll w).2.2.cancelled := by
  unfold wait
  split
  · match hs : w.sleep o (s.next - w.clock) poll with
    | (.cut, w') =>
      have hcut : (w.sleep o (s.next - w.clock) poll).2.cancelled = true :=
        World.cancelled_of_cut (by rw [hs])
      rw [hs] at hcut
      exact (congrArg not hcut).symm
    | (.full, w') | (.overflow, w') => rfl
  · rfl

/-- What the wait says about the next tick tells whether the run is asked to stop. -/
theorem cancelled_of_wait {goes : Bool} {poll : Nat} {s s' : Schedule} {w w' : World σ}
    (h : s.wait o poll w = (goes, s', w')) : w'.cancelled = !goes := by
  have hwait := s.wait_fst (o := o) poll w
  rw [h] at hwait
  obtain rfl : goes = !w'.cancelled := hwait
  exact (Bool.not_not _).symm

end Schedule
end ArmPilot
