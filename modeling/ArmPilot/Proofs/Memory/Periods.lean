import ArmPilot.Proofs.Memory.Kinds

/-!
# The periods of a timer

A timer that is due goes on period by period until it is due later (`Timer.catchUp`).  The trigger of an event gets there
in one step (`Event.poll_timed`), and comes to the same due time unless a time on the way is beyond the range of
durations, which none is while the run has lasted for no more than half of that range (`Timer.After.poll_eq`).  Asked at
times that never decrease, a timer is active exactly if a multiple of its period was reached since it was asked before
(`Event.fires_between`).
-/

namespace ArmPilot

variable {σ : Type}

/-- The first time beyond the range of durations. -/
def durationEnd : Nat := Word.count * nanosPerSecond

/-- How long a run has lasted at a moment. -/
def Moment.elapsed (m : Moment) (s : Scene σ) : Nat := s.world.clock - m.started

/-! ## Period by period -/

/-- A timer that counts its periods one by one. -/
structure Timer where
  period : Nat
  /-- When it is due. -/
  next : Nat
  positive : 0 < period

namespace Timer

variable {t : Timer} {elapsed before : Nat}

/-- Goes on until the timer is due later than a time; `none` if it comes to a time beyond the range of durations. -/
def catchUp (elapsed : Nat) (t : Timer) : Option Timer :=
  if elapsed < t.next then some t
  else if t.next + t.period < durationEnd then catchUp elapsed { t with next := t.next + t.period }
  else none
termination_by elapsed + 1 - t.next
decreasing_by
  have := t.positive
  omega

/-- Asks a timer whether it is due; one that is goes on. -/
def poll (elapsed : Nat) (t : Timer) : Option (Bool × Timer) :=
  if elapsed < t.next then some (false, t) else (t.catchUp elapsed).map (true, ·)

theorem nextDue_of_lt (hle : t.next ≤ elapsed) (hlt : elapsed < t.next + t.period) :
    Event.nextDue t.period t.next elapsed = t.next + t.period := by
  have hdiv : (elapsed - t.next) / t.period = 0 := Nat.div_eq_of_lt (by omega)
  rw [Event.nextDue, hdiv, Nat.mul_one]

/-- A timer that is still due after a period comes to the same time from there. -/
theorem nextDue_add (h : t.next + t.period ≤ elapsed) :
    Event.nextDue t.period (t.next + t.period) elapsed = Event.nextDue t.period t.next elapsed := by
  have hdiv : (elapsed - t.next) / t.period = (elapsed - (t.next + t.period)) / t.period + 1 := by
    rw [Nat.div_eq_sub_div t.positive (by omega), Nat.sub_sub]
  rw [Event.nextDue, Event.nextDue, hdiv, Nat.mul_succ t.period (_ + 1)]
  omega

/-- **Period by period a timer comes to its next due time**, unless that is beyond the range of durations. -/
theorem catchUp_eq (h : t.next ≤ elapsed) :
    t.catchUp elapsed =
      if Event.nextDue t.period t.next elapsed < durationEnd then
        some { t with next := Event.nextDue t.period t.next elapsed }
      else none := by
  fun_induction catchUp elapsed t with
  | case1 t hlt => omega
  | case2 t _ hrange ih =>
    rcases Nat.lt_or_ge elapsed (t.next + t.period) with hlt | hge
    · rw [nextDue_of_lt h hlt, if_pos hrange, catchUp, if_pos hlt]
    · rw [ih hge, nextDue_add hge]
  | case3 t _ hrange =>
    have hperiod : t.next + t.period ≤ Event.nextDue t.period t.next elapsed := by
      rw [Event.nextDue, Nat.mul_succ]
      omega
    rw [if_neg (by omega)]

/-- A timer was asked last at a time if it is due at the first multiple of its period behind that time. -/
def After (t : Timer) (before : Nat) : Prop := t.next = t.period * (before / t.period + 1)

/-- The same timer, asked last at another time. -/
def askedAt (t : Timer) (before : Nat) : Timer := { t with next := t.period * (before / t.period + 1) }

theorem after_askedAt (t : Timer) (before : Nat) : (t.askedAt before).After before := rfl

namespace After

theorem askedAt_eq (h : t.After before) : t.askedAt before = t := by
  rw [askedAt, ← h]

/-- A timer is due once a multiple of its period was reached since it was asked last. -/
theorem next_le_iff (h : t.After before) : t.next ≤ elapsed ↔ before / t.period < elapsed / t.period := by
  rw [h, Nat.mul_comm, ← Nat.le_div_iff_mul_le t.positive, Nat.succ_le_iff]

/-- Where a timer is due when it was asked, whether it was due then or not. -/
theorem next_eq (h : t.After before) (hle : before ≤ elapsed) :
    (if elapsed < t.next then t.next else Event.nextDue t.period t.next elapsed) = (t.askedAt elapsed).next := by
  have hnext := Event.nextDue_eq t.period before elapsed
  rw [← h, Nat.max_eq_right hle] at hnext
  exact hnext

/-- While the run has lasted for no more than half of the range of durations, no time that a timer comes to is beyond that
range. -/
theorem poll_eq (h : t.After before) (hle : before ≤ elapsed) (hhalf : elapsed ≤ (durationEnd - 1) / 2) :
    t.poll elapsed = some (decide (before / t.period < elapsed / t.period), t.askedAt elapsed) := by
  have hnext := h.next_eq hle
  unfold poll
  split at hnext
  · rename_i hlt
    have hsame : t.askedAt elapsed = t := After.askedAt_eq hnext
    rw [if_pos hlt, hsame, decide_eq_false (mt h.next_le_iff.2 (Nat.not_le.2 hlt))]
  · rename_i hge
    have hdue := Nat.not_lt.1 hge
    have hperiod : t.period ≤ t.next := by
      rw [h]
      exact Nat.le_mul_of_pos_right _ (Nat.succ_pos _)
    have hbound := (Event.nextDue_bounds t.positive hdue).2
    have hrange : 0 < durationEnd := by decide
    rw [if_neg hge, catchUp_eq hdue, if_pos (by omega), hnext, decide_eq_true (h.next_le_iff.1 hdue)]
    rfl

end After

end Timer

/-! ## The trigger of an event -/

namespace Event

variable {e : Event σ} {t : Timer} {before : Nat} {m : Moment} {s : Scene σ}

/-- An event with a timer for its trigger. -/
def timed (e : Event σ) (t : Timer) : Event σ := { e with trigger := { periodic t.period with memory := t.next } }

/-- The trigger of an event gets to its next due time in one step. -/
theorem poll_timed (e : Event σ) (t : Timer) (m : Moment) (s : Scene σ) :
    (e.timed t).poll m s = (.ok (decide (t.next ≤ m.elapsed s)), e.timed { t with
      next := if m.elapsed s < t.next then t.next else nextDue t.period t.next (m.elapsed s) }, s) := by
  have hask := ask_periodic t.period t.next m s
  unfold poll timed
  dsimp only
  rw [hask]
  rfl

/-- **A timer that is asked** is active exactly if a multiple of its period was reached since it was asked last. -/
theorem poll_after (h : t.After before) (hle : before ≤ m.elapsed s) :
    (e.timed t).poll m s =
      (.ok (decide (before / t.period < m.elapsed s / t.period)), e.timed (t.askedAt (m.elapsed s)), s) := by
  rw [poll_timed, h.next_eq hle]
  simp only [h.next_le_iff]
  rfl

/-- An event that was asked at moments, each in a scene. -/
def polled (e : Event σ) (asked : List (Moment × Scene σ)) : Event σ :=
  asked.foldl (fun e x => (e.poll x.1 x.2).2.1) e

/-- How long the run has lasted each time that an event is asked. -/
def times (asked : List (Moment × Scene σ)) : List Nat := asked.map fun x => x.1.elapsed x.2

/-- A timer that was asked at times that never decrease was asked last at the latest of them. -/
theorem polled_timed (h : t.After before) {asked : List (Moment × Scene σ)}
    (hsorted : (before :: times asked).Pairwise (· ≤ ·)) {i : Nat} (hi : i ≤ asked.length) :
    (e.timed t).polled (asked.take i) = e.timed (t.askedAt ((before :: times asked).getD i 0)) := by
  induction asked generalizing t before i with
  | nil =>
    obtain rfl : i = 0 := Nat.le_zero.1 hi
    exact congrArg e.timed h.askedAt_eq.symm
  | cons x rest ih =>
    cases i with
    | zero => exact congrArg e.timed h.askedAt_eq.symm
    | succ i =>
      have hle : before ≤ x.1.elapsed x.2 := List.rel_of_pairwise_cons hsorted (List.mem_cons_self ..)
      have hstep : (e.timed t).polled ((x :: rest).take (i + 1)) =
          (e.timed (t.askedAt (x.1.elapsed x.2))).polled (rest.take i) := by
        rw [List.take_succ_cons, polled, List.foldl_cons, poll_after h hle]
        rfl
      rw [hstep, ih (t.after_askedAt _) hsorted.of_cons (Nat.le_of_succ_le_succ hi)]
      rfl

/-- **A timer is active once for all multiples of its period that were reached since it was asked before.**  Asked at
times that never decrease, it answers each time whether there are any, and is then due at the next one.  Going on period
by period it comes to the same, as long as the run has lasted for no more than half of the range of durations. -/
theorem fires_between {period : Nat} (hperiod : 0 < period) (he : e.trigger = periodic period)
    {asked : List (Moment × Scene σ)} (hsorted : (times asked).Pairwise (· ≤ ·)) {i : Nat} (hi : asked[i]? = some (m, s)) :
    let before := (0 :: times asked).getD i 0
    let active := decide (before / period < m.elapsed s / period)
    let due := period * (m.elapsed s / period + 1)
    let t : Timer := ⟨period, (e.polled (asked.take i)).trigger.memory, hperiod⟩
    (e.polled (asked.take i)).poll m s = (.ok active, { e with trigger := { periodic period with memory := due } }, s) ∧
      (m.elapsed s ≤ (durationEnd - 1) / 2 → t.poll (m.elapsed s) = some (active, ⟨period, due, hperiod⟩)) := by
  intro before active due t
  obtain ⟨hlt, hget⟩ := List.getElem?_eq_some_iff.1 hi
  have hstart : (0 :: times asked).Pairwise (· ≤ ·) := List.pairwise_cons.2 ⟨fun _ _ => Nat.zero_le _, hsorted⟩
  -- a fresh timer is one that was asked last when the run began
  let fresh : Timer := ⟨period, period, hperiod⟩
  have hfresh : fresh.After 0 := by
    show period = period * (0 / period + 1)
    rw [Nat.zero_div, Nat.mul_one]
  have hevent : e = e.timed fresh := by
    obtain ⟨kind, parameters, trigger, commands⟩ := e
    obtain rfl : trigger = periodic period := he
    rfl
  have hpolled : e.polled (asked.take i) = e.timed (fresh.askedAt before) := by
    conv_lhs => rw [hevent]
    exact polled_timed hfresh hstart hlt.le
  have hle : before ≤ m.elapsed s := by
    have hlength : i + 1 < (0 :: times asked).length := by simpa [times] using hlt
    have hsucc := List.pairwise_iff_getElem.1 hstart i (i + 1) (by omega) hlength (Nat.lt_succ_self i)
    have hnow : (0 :: times asked)[i + 1] = m.elapsed s := by simp [times, hget]
    have hbefore : before = (0 :: times asked)[i] := by
      rw [show before = (0 :: times asked)[i]?.getD 0 from rfl, List.getElem?_eq_getElem (by omega), Option.getD_some]
    rw [hbefore, ← hnow]
    exact hsucc
  have ht : t = fresh.askedAt before := by
    simp only [t, hpolled]
    rfl
  rw [hpolled, ht]
  exact ⟨poll_after (fresh.after_askedAt before) hle, (fresh.after_askedAt before).poll_eq hle⟩

/-- A scene some time after the run of its event began. -/
def sceneAfter (nanos : Nat) : Moment × Scene Unit :=
  (⟨1, 0⟩, ⟨.create .default (.obj []), { World.initial () with clock := nanos }⟩)

/-- An event with a timer of one second. -/
def everySecond : Event Unit := ⟨"TimerEvent", [], periodic nanosPerSecond, []⟩

/-- Times at which a timer of one second is asked; three of its periods pass between the second and the third. -/
def askedTimes : List (Moment × Scene Unit) := [sceneAfter 500000000, sceneAfter 1000000000, sceneAfter 4200000000]

/-- **Periods that were missed count as one**: a timer that was asked after one second is active after 4.2 seconds, and due
after five then. -/
theorem fires_between_askedTimes :
    0 < nanosPerSecond ∧ everySecond.trigger = periodic nanosPerSecond ∧ (times askedTimes).Pairwise (· ≤ ·) ∧
      (everySecond.polled (askedTimes.take 2)).poll (sceneAfter 4200000000).1 (sceneAfter 4200000000).2 =
        (.ok true, { everySecond with trigger := { periodic nanosPerSecond with memory := 5000000000 } },
          (sceneAfter 4200000000).2) ∧
      (⟨nanosPerSecond, (everySecond.polled (askedTimes.take 2)).trigger.memory, by decide⟩ : Timer).poll 4200000000 =
        some (true, ⟨nanosPerSecond, 5000000000, by decide⟩) := by
  have hperiod : 0 < nanosPerSecond := by decide
  have hsorted : (times askedTimes).Pairwise (· ≤ ·) := by decide
  obtain ⟨hpoll, htimer⟩ := fires_between (e := everySecond) (i := 2) hperiod rfl hsorted rfl
  exact ⟨hperiod, rfl, hsorted, hpoll, htimer (by decide)⟩

end Event
end ArmPilot
