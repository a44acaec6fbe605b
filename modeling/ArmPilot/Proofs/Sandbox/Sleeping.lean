import Mathlib
import ArmPilot.Proofs.Decimal.Doubles
import ArmPilot.Proofs.Sandbox.Oversleeping

/-!
# How long a sleep may be

A sleep is asked for in seconds and measured in nanoseconds.  It is admitted if it can be measured, which it can below
2⁶⁴ seconds; but the clock counts to half of that only.  A sleep of 2⁶³ seconds or more is therefore admitted and breaks
down whenever it is begun, be it the sleep of a command or that of a script.
-/

namespace ArmPilot

variable {σ : Type}

theorem World.sleep_fst_ne_overflow_iff (o : Outside σ) (duration poll : Nat) (w : World σ) :
    (w.sleep o duration poll).1 ≠ .overflow ↔ w.clock + duration < clockEnd := by
  rw [← not_le, not_iff_not]
  exact ⟨fun h => (sleep_overflow_iff.1 (Prod.ext h rfl)).1, fun h => congrArg Prod.fst (sleep_overflow_iff.2 ⟨h, rfl⟩)⟩

namespace Devices

open Decimal (IsFinite value)

/-- Whether a sleep of a number of seconds can be measured. -/
structure Admitted (seconds : Float) : Prop where
  finite : IsFinite seconds
  nonneg : 0 ≤ value seconds
  below : value seconds < 2 ^ 64

/-- Whether a sleep of a number of seconds is measured to take a number of nanoseconds. -/
structure Measures (seconds : Float) (duration : Nat) : Prop where
  admitted : Admitted seconds
  nearest : |(duration : ℚ) - value seconds * nanosPerSecond| ≤ 1 / 2
  /-- At no time the clock would be able to count to the end of so long a sleep. -/
  beyond : 2 ^ 63 ≤ value seconds → World.clockEnd ≤ duration
  /-- In its first 1024 seconds the clock is able to count to the end of any shorter sleep. -/
  within : value seconds < 2 ^ 63 → duration + 1024 * nanosPerSecond ≤ World.clockEnd

theorem value_two_pow_64 : IsFinite 18446744073709551616.0 ∧ value 18446744073709551616.0 = 2 ^ 64 := by
  have hbits : (18446744073709551616.0 : Float).toBits = 0x43F0000000000000 := by decide +kernel
  have hword : Decimal.Binary.ofWord 0x43F0000000000000 = ⟨false, 2 ^ 52, 12⟩ := by decide +kernel
  have hfield : Decimal.exponentField 0x43F0000000000000 ≠ 2047 := by decide +kernel
  rw [IsFinite, value, Decimal.Binary.ofFloat_eq, hbits, hword]
  refine ⟨hfield, ?_⟩
  show ((2 ^ 52 : Nat) : ℚ) * 2 ^ (12 : Int) = 2 ^ 64
  norm_num

theorem nanosOf?_eq_some_iff {seconds : Float} {duration : Nat} :
    nanosOf? seconds = some duration ↔ IsFinite seconds ∧ value seconds < 2 ^ 64 ∧
      duration = Decimal.Binary.roundEven ((Decimal.Binary.ofFloat seconds).numerator * nanosPerSecond)
        (Decimal.Binary.ofFloat seconds).denominator := by
  obtain ⟨hlimit, hlimitvalue⟩ := value_two_pow_64
  unfold nanosOf?
  by_cases hfinite : IsFinite seconds
  · have hge : seconds ≥ 18446744073709551616.0 ↔ 2 ^ 64 ≤ value seconds := by
      rw [ge_iff_le, Decimal.le_iff hlimit hfinite, hlimitvalue]
    simp only [Decimal.isFinite_iff.1 hfinite, Bool.false_or, decide_eq_true_iff, hge]
    split
    · rename_i hlong
      exact iff_of_false nofun fun h => absurd hlong h.2.1.not_ge
    · rename_i hshort
      rw [Option.some_inj, eq_comm]
      exact ⟨fun h => ⟨hfinite, not_le.1 hshort, h⟩, fun h => h.2.2⟩
  · have hnone : (seconds.isNaN || seconds.isInf) = true := by
      rw [← Bool.not_eq_false]
      exact mt Decimal.isFinite_iff.2 hfinite
    rw [hnone, Bool.true_or, if_pos rfl]
    exact iff_of_false nofun fun h => hfinite h.1

/-- What can be measured is measured to the nearest nanosecond. -/
theorem measures_of_nanosOf? {seconds : Float} {duration : Nat} (hnonneg : IsFinite seconds → 0 ≤ value seconds)
    (h : nanosOf? seconds = some duration) : Measures seconds duration := by
  obtain ⟨hfinite, hbelow, rfl⟩ := nanosOf?_eq_some_iff.1 h
  have hnonneg := hnonneg hfinite
  have hfraction : ((Decimal.Binary.ofFloat seconds).numerator / (Decimal.Binary.ofFloat seconds).denominator : ℚ) =
    value seconds := (Decimal.Binary.fraction_eq_abs _).trans (abs_of_nonneg hnonneg)
  have hnearest := Decimal.Binary.abs_roundEven_sub_le ((Decimal.Binary.ofFloat seconds).numerator * nanosPerSecond)
    (Decimal.Binary.ofFloat seconds).denominator_pos
  rw [Nat.cast_mul, mul_div_right_comm, hfraction] at hnearest
  generalize Decimal.Binary.roundEven _ _ = duration at hnearest ⊢
  have hclock : World.clockEnd = 2 ^ 63 * nanosPerSecond := rfl
  have hnanos : nanosPerSecond = 1000000000 := rfl
  obtain ⟨hlow, hhigh⟩ := abs_le.1 hnearest
  refine ⟨⟨hfinite, hnonneg, hbelow⟩, hnearest, fun hlong => ?_, fun hshort => ?_⟩
  · have hle : ((2 ^ 63 * nanosPerSecond : Nat) : ℚ) < (duration + 1 : Nat) := by
      rw [hnanos] at hlow ⊢
      push_cast at hlow ⊢
      linarith
    rw [hclock]
    exact Nat.lt_succ_iff.1 (by exact_mod_cast hle)
  · have hgap := Decimal.value_le_of_lt hfinite (k := 10) (by decide) (hshort.trans_le (by norm_num))
    have hle : ((duration + 1024 * nanosPerSecond : Nat) : ℚ) < (2 ^ 63 * nanosPerSecond + 1 : Nat) := by
      rw [hnanos] at hhigh ⊢
      push_cast at hhigh ⊢
      norm_num at hgap
      linarith
    rw [hclock]
    exact Nat.lt_succ_iff.1 (by exact_mod_cast hle)

theorem Admitted.exists_nanosOf? {seconds : Float} (h : Admitted seconds) :
    ∃ duration, nanosOf? seconds = some duration ∧ Measures seconds duration := by
  have hsome := nanosOf?_eq_some_iff.2 ⟨h.finite, h.below, rfl⟩
  exact ⟨_, hsome, measures_of_nanosOf? (fun _ => h.nonneg) hsome⟩

/-! ## The seconds of a sleep -/

theorem value_sleepTime {seconds : Float} (h : IsFinite seconds) :
    IsFinite (sleepTime seconds) ∧ value (sleepTime seconds) = max (value seconds) 0 := by
  obtain ⟨hzero, hzerovalue⟩ := Decimal.value_zero
  have hgt : seconds > 0.0 ↔ 0 < value seconds := by rw [gt_iff_lt, Decimal.lt_iff hzero h, hzerovalue]
  unfold sleepTime
  split
  · rename_i hpos
    exact ⟨h, (max_eq_left (hgt.1 hpos).le).symm⟩
  · rename_i hnonpos
    exact ⟨hzero, hzerovalue.trans (max_eq_right (not_lt.1 (mt hgt.2 hnonpos))).symm⟩

/-- A script does not sleep for less than no time. -/
theorem value_sleepTime_nonneg {seconds : Float} (h : IsFinite (sleepTime seconds)) :
    0 ≤ value (sleepTime seconds) := by
  by_cases hfinite : IsFinite seconds
  · rw [(value_sleepTime hfinite).2]
    exact le_max_right _ _
  · unfold sleepTime at h ⊢
    split
    · rename_i hpos
      rw [if_pos hpos] at h
      exact absurd h hfinite
    · exact Decimal.value_zero.2.ge

/-! ## Two ways to sleep -/

/-- How a script's sleep ends that is begun in a world: with an answer, or in a breakdown. -/
def Ends (w : World σ) (duration : Nat) (r : Except Breakdown Lang.Outcome) : Prop :=
  if w.clock + duration < World.clockEnd then ∃ full, r = .ok (.ok (.bool full))
  else r = .error (.overslept w.clock duration)

section

variable (o : Outside σ) (poll : Nat) {seconds : Float} (w : World σ)

theorem sleep_ends {duration : Nat} (h : nanosOf? (sleepTime seconds) = some duration) :
    Ends w duration (sleep o poll seconds w).1 := by
  unfold Ends
  split
  · rename_i hclock
    have hslept := (World.sleep_fst_ne_overflow_iff o duration poll w).2 hclock
    unfold sleep
    rw [h]
    dsimp only
    rcases hw : w.sleep o duration poll with ⟨_ | _ | _, w'⟩
    · exact ⟨true, rfl⟩
    · exact ⟨false, rfl⟩
    · exact absurd (congrArg Prod.fst hw) hslept
  · rename_i hclock
    exact congrArg Prod.fst (sleep_eq_error_iff.2 ⟨duration, h, not_lt.1 hclock, rfl, rfl⟩)

theorem sleep_of_not_admitted (h : ¬ Admitted (sleepTime seconds)) :
    sleep o poll seconds w = (.ok (.error (.thrown (.string sleepComplaint))), w) := by
  have hnone : nanosOf? (sleepTime seconds) = none := by
    refine Option.eq_none_iff_forall_ne_some.2 fun duration hsome => h ?_
    exact (measures_of_nanosOf? value_sleepTime_nonneg hsome).admitted
  unfold sleep
  rw [hnone]

end

/-- The integers of scripts are all admitted, and from 2⁶³ - 512 on they are 2⁶³ seconds. -/
theorem admitted_sleepTime_ofInt {n : Int} (hn : Word.holds n = true) :
    Admitted (sleepTime (Decimal.ofInt n)) ∧ (2 ^ 63 ≤ value (sleepTime (Decimal.ofInt n)) ↔ 2 ^ 63 - 512 ≤ n) := by
  obtain ⟨hfinite, hle, hiff⟩ := Decimal.value_ofInt_of_holds hn
  obtain ⟨hsleep, hvalue⟩ := value_sleepTime hfinite
  rw [← hiff, hvalue, le_max_iff, or_iff_left (by norm_num)]
  exact ⟨⟨hsleep, hvalue ▸ le_max_right _ _, hvalue ▸ max_lt (hle.trans_lt (by norm_num)) (by norm_num)⟩, Iff.rfl⟩

end Devices

namespace Command

open Devices (Admitted Measures nanosOf? measures_of_nanosOf?)

theorem measures_of_duration? {seconds : Float} {duration : Nat} (h : duration? seconds = some duration) :
    Measures seconds duration := by
  obtain ⟨hzero, hzerovalue⟩ := Decimal.value_zero
  unfold duration? at h
  split at h
  · cases h
  · rename_i hnot
    refine measures_of_nanosOf? (fun hfinite => ?_) h
    have hnonneg : ¬ seconds < 0.0 := fun hneg => hnot (by rw [decide_eq_true hneg, Bool.or_true])
    rwa [Decimal.lt_iff hfinite hzero, hzerovalue, not_lt] at hnonneg

theorem exists_duration? {seconds : Float} (h : Admitted seconds) : ∃ duration, duration? seconds = some duration := by
  obtain ⟨hzero, hzerovalue⟩ := Decimal.value_zero
  have hnonneg : ¬ seconds < 0.0 := by
    rw [Decimal.lt_iff h.finite hzero, hzerovalue, not_lt]
    exact h.nonneg
  have hnan : seconds.isNaN = false := (Bool.or_eq_false_iff.1 (Decimal.isFinite_iff.1 h.finite)).1
  obtain ⟨duration, hsome, -⟩ := h.exists_nanosOf?
  unfold duration?
  rw [hnan, decide_eq_false hnonneg]
  exact ⟨duration, hsome⟩

theorem sleep_eq_ok_iff {o : Outside σ} {ps : Parameters} {built : Built (Action σ)} :
    sleep o ps = .ok built ↔ ∃ seconds duration, ps.number "seconds" = .ok seconds ∧
      duration? seconds = some duration ∧ built = .sound (.plain (pause o duration)) := by
  have hsleep : sleep o ps = (ps.number "seconds").bind fun seconds =>
      (duration? seconds).elim (.error (.invalidParameter "seconds" "expected a non-negative duration"))
        fun duration => .ok (.sound (.plain (pause o duration))) := by
    unfold sleep
    cases ps.number "seconds" with
    | error e => rfl
    | ok seconds =>
      simp only [bind, Except.bind]
      cases duration? seconds <;> rfl
  rw [hsleep]
  cases ps.number "seconds" with
  | error e => exact iff_of_false nofun fun ⟨_, _, h, _⟩ => nomatch h
  | ok seconds =>
    simp only [Except.bind, Except.ok.injEq, exists_and_left, exists_eq_left']
    cases duration? seconds with
    | none => exact iff_of_false nofun fun ⟨_, h, _⟩ => nomatch h
    | some duration => simp [eq_comm]

/-- A pause goes on, or it breaks down because its end is beyond the range of the clock. -/
theorem run_pause_fst (o : Outside σ) (duration : Nat) (s : Scene σ) :
    ((pause o duration).run.run s).1 =
      if s.world.clock + duration < World.clockEnd then .ok .proceed
      else .error (.overslept s.world.clock duration) := by
  simp only [← World.sleep_fst_ne_overflow_iff o duration s.sandbox.sleepPoll s.world]
  unfold pause
  rw [Failing.run_get_bind]
  rcases s.world.sleep o duration s.sandbox.sleepPoll with ⟨_ | _ | _, w⟩
  · rfl
  · rfl
  · rfl

end Command

section

open Devices

/-- **A sleep is admitted if it can be measured, and survived if the clock can count to its end.**  Both the command and
the function of scripts admit sleeps of 2⁶³ seconds and more, which break down whenever they are begun; less than that
is survived in the first 1024 seconds of the world, and from then on as long as the clock lasts.  Of the integers of
scripts, all of which are admitted, the last 512 are too long. -/
theorem Scene.sleep_survived_iff (o : Outside σ) :
    (∀ ps, (∃ built, Command.sleep o ps = .ok built) ↔ ∃ seconds, ps.number "seconds" = .ok seconds ∧
      Admitted seconds) ∧
    (∀ ps built, Command.sleep o ps = .ok built → ∃ seconds duration, ps.number "seconds" = .ok seconds ∧
      Measures seconds duration ∧ built = .sound (.plain (Command.pause o duration)) ∧
      ∀ s : Scene σ, ((Command.pause o duration).run.run s).1 =
        if s.world.clock + duration < World.clockEnd then .ok .proceed
        else .error (.overslept s.world.clock duration)) ∧
    (∀ poll seconds, ∃ deed, call o poll "sleep" [.float seconds] = some deed ∧
      (Admitted (sleepTime seconds) → ∃ duration, Measures (sleepTime seconds) duration ∧
        ∀ w, Ends w duration (deed w).1) ∧
      (¬ Admitted (sleepTime seconds) → ∀ w, deed w = (.ok (.error (.thrown (.string sleepComplaint))), w))) ∧
    ∀ poll n, Word.holds n = true → ∃ deed, call o poll "sleep" [.int n] = some deed ∧
      ∃ duration, Measures (sleepTime (Decimal.ofInt n)) duration ∧
        (2 ^ 63 ≤ Decimal.value (sleepTime (Decimal.ofInt n)) ↔ 2 ^ 63 - 512 ≤ n) ∧
        ∀ w, Ends w duration (deed w).1 := by
  refine ⟨fun ps => ⟨?_, ?_⟩, ?_, ?_, ?_⟩
  · rintro ⟨built, hbuilt⟩
    obtain ⟨seconds, duration, hseconds, hduration, -⟩ := Command.sleep_eq_ok_iff.1 hbuilt
    exact ⟨seconds, hseconds, (Command.measures_of_duration? hduration).admitted⟩
  · rintro ⟨seconds, hseconds, hadmitted⟩
    obtain ⟨duration, hduration⟩ := Command.exists_duration? hadmitted
    exact ⟨_, Command.sleep_eq_ok_iff.2 ⟨seconds, duration, hseconds, hduration, rfl⟩⟩
  · intro ps built hbuilt
    obtain ⟨seconds, duration, hseconds, hduration, rfl⟩ := Command.sleep_eq_ok_iff.1 hbuilt
    exact ⟨seconds, duration, hseconds, Command.measures_of_duration? hduration, rfl,
      Command.run_pause_fst o duration⟩
  · intro poll seconds
    refine ⟨_, rfl, fun h => ?_, fun h w => sleep_of_not_admitted o poll w h⟩
    obtain ⟨duration, hsome, hmeasures⟩ := h.exists_nanosOf?
    exact ⟨duration, hmeasures, fun w => sleep_ends o poll w hsome⟩
  · intro poll n hn
    obtain ⟨hadmitted, hlong⟩ := admitted_sleepTime_ofInt hn
    obtain ⟨duration, hsome, hmeasures⟩ := hadmitted.exists_nanosOf?
    exact ⟨_, rfl, duration, hmeasures, hlong, fun w => sleep_ends o poll w hsome⟩

/-- A script that sleeps for the greatest integer of its language breaks down. -/
theorem Scene.sleep_survived_iff_greatest :
    ∃ deed, call (.nobody Unit) 0 "sleep" [.int Word.greatest] = some deed ∧
      ∀ w, ∃ duration, (deed w).1 = .error (.overslept w.clock duration) := by
  obtain ⟨deed, hdeed, duration, hmeasures, hlong, hends⟩ :=
    (sleep_survived_iff (.nobody Unit)).2.2.2 0 Word.greatest (by decide)
  have hclock : World.clockEnd ≤ duration := hmeasures.beyond (hlong.2 (by decide))
  refine ⟨deed, hdeed, fun w => ⟨duration, ?_⟩⟩
  have hw := hends w
  rwa [Ends, if_neg (by omega)] at hw

end

end ArmPilot
