import Mathlib.Data.List.Forall2
import ArmPilot.World

/-!
# Sleeping by the clock

A sleep looks whether the run is asked to stop and reads the clock, one after the other, until its end.  Between any two
of these readings time passes, and others may ask the run to stop or withdraw that: each reading is taken at an instant
of its own.  The sleep of a run is the one at the instants that its world comes to (`exists_sleep`).
-/

namespace ArmPilot
namespace Clock

/-- An instant: what the clock shows, and whether the run is asked to stop. -/
structure Instant where
  clock : Nat
  cancelled : Bool
deriving Repr, DecidableEq

/-- Whether the clock is never set back from one instant to a later one. -/
def Forward (is : List Instant) : Prop := (is.map Instant.clock).Pairwise (· ≤ ·)

instance : DecidablePred Forward := fun is => inferInstanceAs (Decidable ((is.map Instant.clock).Pairwise (· ≤ ·)))

/-- What is done in a sleep. -/
inductive Act where
  /-- To look whether the run is asked to stop. -/
  | look (cancelled : Bool)
  /-- To read the clock. -/
  | read (clock : Nat)
  /-- To let a time pass. -/
  | nap (time : Nat)
deriving Repr, DecidableEq

/-- What the looks saw. -/
def looks (acts : List Act) : List Bool := acts.filterMap fun | .look cancelled => some cancelled | _ => none

/-- What the clock showed. -/
def reads (acts : List Act) : List Nat := acts.filterMap fun | .read clock => some clock | _ => none

/-- What times were let pass. -/
def naps (acts : List Act) : List Nat := acts.filterMap fun | .nap time => some time | _ => none

/-- What a sleep comes to: how it ended, what was done, and the instants that are left. -/
structure Sleep where
  slept : World.Slept
  acts : List Act
  rest : List Instant
deriving Repr, DecidableEq

/-- A sleep in which something was done before. -/
def Sleep.behind (acts : List Act) (p : Sleep) : Sleep := { p with acts := acts ++ p.acts }

/-- The rounds of a sleep, as `World.sleepUntil` has them; `none` if it has not ended by the last instant. -/
def sleepUntil (deadline poll : Nat) : List Instant → Option Sleep
  | [] => none
  | i :: is =>
    if i.cancelled then some ⟨.cut, [.look true], is⟩
    else
      match is with
      | [] => none
      | j :: is =>
        if deadline ≤ j.clock then some ⟨.full, [.look false, .read j.clock], is⟩
        else
          (sleepUntil deadline poll is).map
            (.behind [.look false, .read j.clock, .nap (min (deadline - j.clock) poll)])

attribute [elab_as_elim] sleepUntil.induct_unfolding

/-- A sleep for a time, as `World.sleep` has it; its end is settled by a first reading of the clock. -/
def sleep (duration poll : Nat) : List Instant → Option Sleep
  | [] => none
  | i :: is =>
    if World.clockEnd ≤ i.clock + duration then some ⟨.overflow, [.read i.clock], is⟩
    else (sleepUntil (i.clock + duration) (max poll World.leastPoll) is).map (.behind [.read i.clock])

section

variable {deadline duration poll : Nat} {i j : Instant} {is : List Instant} {p : Sleep}

theorem sleepUntil_of_cancelled (hi : i.cancelled = true) :
    sleepUntil deadline poll (i :: is) = some ⟨.cut, [.look true], is⟩ := by
  rw [sleepUntil.eq_def]
  exact if_pos hi

theorem sleepUntil_of_le (hi : i.cancelled = false) (hj : deadline ≤ j.clock) :
    sleepUntil deadline poll (i :: j :: is) = some ⟨.full, [.look false, .read j.clock], is⟩ := by
  rw [sleepUntil, if_neg (ne_true_of_eq_false hi), if_pos hj]

theorem sleepUntil_of_lt (hi : i.cancelled = false) (hj : j.clock < deadline) :
    sleepUntil deadline poll (i :: j :: is) = (sleepUntil deadline poll is).map
      (.behind [.look false, .read j.clock, .nap (min (deadline - j.clock) poll)]) := by
  rw [sleepUntil, if_neg (ne_true_of_eq_false hi), if_neg (Nat.not_le.2 hj)]

/-! ## What was read -/

theorem looks_append (acts acts' : List Act) : looks (acts ++ acts') = looks acts ++ looks acts' :=
  List.filterMap_append

theorem reads_append (acts acts' : List Act) : reads (acts ++ acts') = reads acts ++ reads acts' :=
  List.filterMap_append

theorem naps_append (acts acts' : List Act) : naps (acts ++ acts') = naps acts ++ naps acts' :=
  List.filterMap_append

end

/-! ## The rounds -/

/-- The rounds of a sleep until a deadline that lets at most a bounded time pass in each: how it ended, and what was
done. -/
inductive Rounds (deadline bound : Nat) : World.Slept → List Act → Prop where
  /-- The run is asked to stop. -/
  | cut : Rounds deadline bound .cut [.look true]
  /-- The run is not asked to stop, and the clock shows the deadline or a later time. -/
  | full {t : Nat} (reached : deadline ≤ t) : Rounds deadline bound .full [.look false, .read t]
  /-- The run is not asked to stop, and some time passes. -/
  | again {t d : Nat} {slept : World.Slept} {acts : List Act} (positive : 0 < d) (bounded : d ≤ bound)
      (within : t + d ≤ deadline) (rest : Rounds deadline bound slept acts) :
      Rounds deadline bound slept (.look false :: .read t :: .nap d :: acts)

/-- What is done at an instant of its own: all but to let a time pass. -/
def readings (acts : List Act) : List Act := acts.filter fun | .nap _ => false | _ => true

theorem readings_append (acts acts' : List Act) : readings (acts ++ acts') = readings acts ++ readings acts' :=
  List.filter_append ..

/-- Whether something that is done shows an instant as it is. -/
def ShownAt : Act → Instant → Prop
  | .look cancelled, i => i.cancelled = cancelled
  | .read clock, i => i.clock = clock
  | .nap _, _ => False

section

variable {deadline bound duration poll : Nat} {slept : World.Slept} {i : Instant} {is : List Instant} {p : Sleep}
  {acts : List Act}

theorem rounds_of_sleepUntil (hpoll : 0 < poll) (h : sleepUntil deadline poll is = some p) :
    Rounds deadline poll p.slept p.acts := by
  fun_induction sleepUntil deadline poll is generalizing p with
  | case1 => cases h
  | case2 =>
    cases h
    exact .cut
  | case3 => cases h
  | case4 i _ j is hj =>
    cases h
    exact .full hj
  | case5 i _ j is hj ih =>
    obtain ⟨q, hq, rfl⟩ := Option.map_eq_some_iff.1 h
    exact .again (by omega) (Nat.min_le_right ..) (by omega) (ih hq)

/-- Each reading of a sleep shows the instant that it is taken at. -/
theorem shownAt_of_sleepUntil (h : sleepUntil deadline poll is = some p) :
    ∃ taken, is = taken ++ p.rest ∧ List.Forall₂ ShownAt (readings p.acts) taken := by
  fun_induction sleepUntil deadline poll is generalizing p with
  | case1 => cases h
  | case2 i is hi =>
    cases h
    exact ⟨[i], rfl, .cons hi .nil⟩
  | case3 => cases h
  | case4 i hi j is =>
    cases h
    exact ⟨[i, j], rfl, .cons (eq_false_of_ne_true hi) (.cons rfl .nil)⟩
  | case5 i hi j is _ ih =>
    obtain ⟨q, hq, rfl⟩ := Option.map_eq_some_iff.1 h
    obtain ⟨taken, rfl, hshown⟩ := ih hq
    exact ⟨i :: j :: taken, rfl, .cons (eq_false_of_ne_true hi) (.cons rfl hshown)⟩

/-- The last thing that is done in rounds that are cut short is to see that the run is asked to stop. -/
theorem Rounds.looks_of_cut (h : Rounds deadline bound slept acts) (hcut : slept = .cut) :
    (looks acts).getLast? = some true := by
  induction h with
  | cut => rfl
  | full => cases hcut
  | @again _ _ _ acts _ _ _ _ ih =>
    show (false :: looks acts).getLast? = some true
    rw [List.getLast?_cons, ih hcut, Option.getD_some]

/-- The last reading of the clock in rounds that are not cut short is at their end or later. -/
theorem Rounds.reads_of_full (h : Rounds deadline bound slept acts) (hfull : slept ≠ .cut) :
    ∃ t, (reads acts).getLast? = some t ∧ deadline ≤ t := by
  induction h with
  | cut => exact absurd rfl hfull
  | @full t reached => exact ⟨t, rfl, reached⟩
  | @again t _ _ acts _ _ _ _ ih =>
    obtain ⟨t', ht', hle⟩ := ih hfull
    refine ⟨t', ?_, hle⟩
    show (t :: reads acts).getLast? = some t'
    rw [List.getLast?_cons, ht', Option.getD_some]

/-- What comes of the sleep for a time: it takes the instants one after the other; one that is cut short has seen last that
the run is asked to stop; and one that is not has read last that the time has passed since the first reading. -/
theorem sleep_spec (h : sleep duration poll (i :: is) = some p) :
    p.rest <:+ is ∧ (p.slept = .cut → (looks p.acts).getLast? = some true) ∧
      (p.slept = .full → ∃ t, (reads p.acts).getLast? = some t ∧ i.clock + duration ≤ t) := by
  rw [sleep] at h
  split at h
  · cases h
    exact ⟨List.suffix_refl is, nofun, nofun⟩
  · obtain ⟨q, hq, rfl⟩ := Option.map_eq_some_iff.1 h
    have hrounds := rounds_of_sleepUntil (Nat.lt_of_lt_of_le (by decide) (Nat.le_max_right poll World.leastPoll)) hq
    obtain ⟨taken, rfl, -⟩ := shownAt_of_sleepUntil hq
    refine ⟨List.suffix_append taken _, hrounds.looks_of_cut, fun (hfull : q.slept = .full) => ?_⟩
    obtain ⟨t, ht, hle⟩ := hrounds.reads_of_full fun hcut => World.Slept.noConfusion (hfull.symm.trans hcut)
    refine ⟨t, ?_, hle⟩
    show (i.clock :: reads q.acts).getLast? = some t
    rw [List.getLast?_cons, ht, Option.getD_some]

end

/-! ## The sleep of a run -/

section

variable {σ : Type} {o : Outside σ}

/-- The instant that a world is at. -/
def instant (w : World σ) : Instant := ⟨w.clock, w.cancelled⟩

/-- Whether those outside never set the clock back. -/
def Onward (o : Outside σ) : Prop := ∀ w, w.clock ≤ (o.turn w).clock

theorem Onward.advance (ho : Onward o) (d : Nat) (w : World σ) : w.clock + d ≤ (w.advance o d).clock :=
  ho { w with clock := w.clock + d }

theorem forward_cons {i j : Instant} {is : List Instant} (hij : i.clock ≤ j.clock) (h : Forward (j :: is)) :
    Forward (i :: j :: is) := by
  refine List.pairwise_cons.2 ⟨fun t ht => ?_, h⟩
  rcases List.mem_cons.1 ht with rfl | ht
  · exact hij
  · exact Nat.le_trans hij ((List.pairwise_cons.1 h).1 t ht)

theorem forward_concat {i : Instant} {is : List Instant} (h : Forward (is ++ [i])) : Forward (is ++ [i] ++ [i]) := by
  unfold Forward at h ⊢
  rw [List.map_append, List.pairwise_append]
  refine ⟨h, List.pairwise_singleton .., fun t ht t' ht' => ?_⟩
  obtain rfl := List.mem_singleton.1 ht'
  rw [List.map_append, List.pairwise_append] at h
  rw [List.map_append] at ht
  rcases List.mem_append.1 ht with ht | ht
  · exact h.2.2 t ht _ (List.mem_singleton_self _)
  · exact Nat.le_of_eq (List.mem_singleton.1 ht)

/-- The rounds of a sleep in a world are those at the instants that the world comes to. -/
theorem exists_sleepUntil (ho : Onward o) {deadline poll fuel : Nat} (hpoll : 0 < poll) (w : World σ) (hfuel : 0 < fuel)
    (hdeadline : deadline < w.clock + fuel) (rest : List Instant) :
    ∃ is acts, Forward (instant w :: (is ++ [instant (World.sleepUntil o deadline poll fuel w).2])) ∧
      sleepUntil deadline poll (is ++ rest) = some ⟨(World.sleepUntil o deadline poll fuel w).1, acts, rest⟩ := by
  fun_induction World.sleepUntil o deadline poll fuel w with
  | case1 => cases hfuel
  | case2 fuel w hw =>
    refine ⟨[instant w], [.look true], ?_, sleepUntil_of_cancelled hw⟩
    exact forward_cons (Nat.le_refl _) (forward_cons (Nat.le_refl _) (List.pairwise_singleton ..))
  | case3 fuel w hw hle =>
    refine ⟨[instant w, instant w], [.look false, .read w.clock], ?_,
      sleepUntil_of_le (eq_false_of_ne_true hw) hle⟩
    exact forward_cons (Nat.le_refl _) (forward_cons (Nat.le_refl _) (forward_cons (Nat.le_refl _)
      (List.pairwise_singleton ..)))
  | case4 fuel w hw hlt ih =>
    -- A round that does not end the sleep lets some time pass, so that the fuel lasts until the deadline.
    have hadvance := ho.advance (min (deadline - w.clock) poll) w
    obtain ⟨is, acts, hforward, hsleep⟩ := ih (by omega) (by omega)
    refine ⟨instant w :: instant w :: is,
      [.look false, .read w.clock, .nap (min (deadline - w.clock) poll)] ++ acts, ?_, ?_⟩
    · obtain ⟨hlater, hrest⟩ := List.pairwise_cons.1 hforward
      refine forward_cons (Nat.le_refl _) (forward_cons (Nat.le_refl _) (List.pairwise_cons.2 ⟨fun t ht => ?_, hrest⟩))
      exact Nat.le_trans (Nat.le_of_add_right_le hadvance) (hlater t ht)
    · refine (sleepUntil_of_lt (eq_false_of_ne_true hw) (Nat.lt_of_not_le hlt)).trans ?_
      exact congrArg (Option.map _) hsleep

/-- The sleep of a run begins with a reading of the clock at the instant that its world is at. -/
theorem exists_sleep_from (ho : Onward o) (duration poll : Nat) (w : World σ) (rest : List Instant) :
    ∃ is acts, Forward (instant w :: (is ++ [instant (w.sleep o duration poll).2])) ∧
      sleep duration poll (instant w :: (is ++ rest)) = some ⟨(w.sleep o duration poll).1, acts, rest⟩ := by
  unfold World.sleep
  dsimp only
  split
  · exact ⟨[], [.read w.clock], forward_cons (Nat.le_refl _) (List.pairwise_singleton ..), if_pos ‹_›⟩
  · have hpoll : 0 < max poll World.leastPoll := Nat.lt_of_lt_of_le (by decide) (Nat.le_max_right ..)
    have hdeadline : w.clock + duration < w.clock + (duration + 1) := Nat.lt_succ_self _
    obtain ⟨is, acts, hforward, hsleep⟩ := exists_sleepUntil ho hpoll w (Nat.succ_pos duration) hdeadline rest
    refine ⟨is, .read w.clock :: acts, hforward, ?_⟩
    rw [sleep]
    refine (if_neg ‹_›).trans ?_
    rw [show (instant w).clock = w.clock from rfl, hsleep]
    rfl

/-- **The sleep of a run is the one at the instants that its world comes to.** -/
theorem exists_sleep (ho : Onward o) (duration poll : Nat) (w : World σ) (rest : List Instant) :
    ∃ is acts, Forward (instant w :: (is ++ [instant (w.sleep o duration poll).2])) ∧
      sleep duration poll (is ++ rest) = some ⟨(w.sleep o duration poll).1, acts, rest⟩ := by
  obtain ⟨is, acts, hforward, hsleep⟩ := exists_sleep_from ho duration poll w rest
  exact ⟨instant w :: is, acts, forward_cons (Nat.le_refl _) hforward, hsleep⟩

end

end Clock
end ArmPilot
