import ArmPilot.Proofs.Run.Turns
import ArmPilot.Proofs.Run.Waiting

/-!
# The course of a run

A run makes its ticks one after the other, each when it is due, until it is asked to stop.  Its course tells which
ticks there were, with which events and in which scenes; it determines the run (`execute_eq`).  When the run stops, the
first event of the role `destroy` is closed with a pass that nothing cuts short.
-/

namespace ArmPilot
namespace Run

variable {σ : Type}

/-- A tick of a run: the time, the events as they stand, and the scene in which the tick begins. -/
structure Round (σ : Type) where
  moment : Moment
  events : List (Event σ)
  before : Scene σ

namespace Round

/-- The turns of the events in the tick. -/
def turns (t : Round σ) : List (Turn σ) := turnsFrom t.moment 0 [] t.events (publish [] t.before)

/-- The events with their memories after the tick. -/
def left (t : Round σ) : List (Event σ) := leftByTurns 0 t.events t.turns

/-- The scene in which the tick ends. -/
def after (t : Round σ) : Scene σ := endOf Turn.after (publish [] t.before) t.turns

/-- Whether a command ended the program. -/
def killed (t : Round σ) : Bool := t.turns.any Turn.killed

/-- Why the tick broke off, if it did. -/
def breakdown (t : Round σ) : Option Breakdown := t.turns.findSome? Turn.breakdown

/-- What ran in the tick. -/
def status (t : Round σ) : Status := statusOf t.turns

theorem tick_eq (t : Round σ) : tick t.moment t.events t.before = (⟨t.left, t.killed, t.breakdown⟩, t.after) :=
  tickFrom_eq ..

/-- A turn in which the run is asked to stop is the last of its tick. -/
theorem getLast_of_cancelled {t : Round σ} {turn : Turn σ} (h : turn ∈ t.turns)
    (hc : turn.after.world.cancelled = true) :
    t.turns.getLast? = some turn ∧ t.after.world.cancelled = true := by
  have hlast : t.turns.getLast? = some turn :=
    (linked_turnsFrom ..).eq_getLast (P := fun s : Scene σ => s.world.cancelled = true) (fun turn' h' => by
      obtain ⟨-, -, -, -, hbefore⟩ := of_mem_turnsFrom h'
      exact ne_true_of_eq_false hbefore) h hc
  refine ⟨hlast, ?_⟩
  rw [after, endOf, hlast]
  exact hc

/-- At the end of a tick that began before the run was asked to stop, it is asked to stop only by the last turn. -/
theorem getLast_turns_of_cancelled {t : Round σ} (hb : t.before.world.cancelled = false)
    (ha : t.after.world.cancelled = true) :
    ∃ turn, t.turns.getLast? = some turn ∧ turn.after.world.cancelled = true := by
  unfold after endOf at ha
  match hlast : t.turns.getLast? with
  | none =>
    rw [hlast] at ha
    exact absurd (hb.symm.trans ha) Bool.false_ne_true
  | some turn =>
    rw [hlast] at ha
    exact ⟨turn, rfl, ha⟩

end Round

/-- How far a run has come. -/
inductive Progress where
  /-- It was not followed further. -/
  | pending
  /-- It was asked to stop. -/
  | stopped
  /-- A trigger broke down. -/
  | broken (b : Breakdown)

/-- The ticks of a run, and what they left. -/
structure Course (σ : Type) where
  rounds : List (Round σ)
  events : List (Event σ)
  scene : Scene σ
  progress : Progress

namespace Course

/-- A course behind a tick. -/
def behind (t : Round σ) (q : Course σ) : Course σ := { q with rounds := t :: q.rounds }

/-- Whether a command ended the program in a tick. -/
def killed (q : Course σ) : Bool := q.rounds.any Round.killed

end Course

/-- The course of a run after its first `n` ticks, of which at most `fuel` more are followed. -/
def courseFrom (o : Outside σ) (started : Nat) :
    Nat → Nat → Schedule → List (Event σ) → Scene σ → Course σ
  | 0, _, _, events, s => ⟨[], events, s, .pending⟩
  | fuel + 1, n, schedule, events, s =>
    if s.world.cancelled then ⟨[], events, s, .stopped⟩
    else
      match schedule.wait o s.sandbox.sleepPoll s.world with
      | (false, _, w) => ⟨[], events, { s with world := w }, .stopped⟩
      | (true, schedule, w) =>
        let t : Round σ := ⟨⟨n + 1, started⟩, events, { s with world := w }⟩
        match t.breakdown with
        | some b => ⟨[t], t.left, t.after, .broken b⟩
        | none => (courseFrom o started fuel (n + 1) schedule t.left t.after).behind t

attribute [elab_as_elim] courseFrom.induct_unfolding

/-- The scene in which a run starts. -/
def startScene (r : Run σ) : Scene σ := tell (greeting r) r.scene

/-- When a run starts. -/
def startTime (r : Run σ) : Nat := (startScene r).world.clock

/-- The course of a run, of which at most `fuel` ticks are followed. -/
def course (o : Outside σ) (fuel : Nat) (r : Run σ) : Course σ :=
  courseFrom o (startTime r) fuel 0 (.start r.period (startTime r)) r.events (startScene r)

/-- The ticks of a run are those of its course. -/
theorem ticks_eq (o : Outside σ) (started fuel n : Nat) (schedule : Schedule) (events : List (Event σ)) (s : Scene σ)
    (period : Nat) (killed : Bool) :
    ticks o started fuel n schedule ⟨events, s, period, killed⟩ =
      let q := courseFrom o started fuel n schedule events s
      (match q.progress with
        | .pending => none
        | .stopped => some (.ok (n + q.rounds.length))
        | .broken b => some (.error b),
        ⟨q.events, q.scene, period, killed || q.killed⟩) := by
  fun_induction courseFrom o started fuel n schedule events s generalizing killed with
  | case1 => simp [ticks, Course.killed]
  | case2 fuel n schedule events s hs => simp [ticks, hs, Course.killed]
  | case3 fuel n schedule events s hs schedule' w hw => simp [ticks, hs, hw, Course.killed]
  | case4 fuel n schedule events s hs schedule' w hw t b hb =>
    have htick : tick ⟨n + 1, started⟩ events { s with world := w } = _ := t.tick_eq
    simp [ticks, hs, hw, htick, hb, Course.killed]
  | case5 fuel n schedule events s hs schedule' w hw t hb =>
    rename_i ih
    have htick : tick ⟨n + 1, started⟩ events { s with world := w } = _ := t.tick_eq
    have hcount (k : Nat) : n + 1 + k = n + (k + 1) := Nat.add_right_comm n 1 k
    simp [ticks, hs, hw, htick, hb, ih, hcount, Course.killed, Course.behind, Bool.or_assoc]

/-! ## The ticks of a course -/

section Course

variable {o : Outside σ} {started fuel n : Nat} {schedule : Schedule} {events : List (Event σ)} {s : Scene σ}

/-- The ticks are numbered one after the other. -/
theorem moment_courseFrom {k : Nat} {t : Round σ}
    (h : (courseFrom o started fuel n schedule events s).rounds[k]? = some t) : t.moment = ⟨n + k + 1, started⟩ := by
  fun_induction courseFrom o started fuel n schedule events s generalizing k with
  | case1 => cases h
  | case2 => cases h
  | case3 => cases h
  | case4 =>
    cases k with
    | zero => exact Option.some.inj h ▸ rfl
    | succ k => cases h
  | case5 fuel n =>
    rename_i ih
    cases k with
    | zero => exact Option.some.inj h ▸ rfl
    | succ k =>
      rw [ih h]
      exact congrArg (Moment.mk · started) (by omega)

/-- No tick begins once the run is asked to stop. -/
theorem not_cancelled_of_mem_courseFrom {t : Round σ}
    (h : t ∈ (courseFrom o started fuel n schedule events s).rounds) : t.before.world.cancelled = false := by
  fun_induction courseFrom o started fuel n schedule events s with
  | case1 => cases h
  | case2 => cases h
  | case3 => cases h
  | case4 fuel n schedule events s _ _ w hw =>
    obtain rfl := List.mem_singleton.1 h
    exact Schedule.cancelled_of_wait hw
  | case5 fuel n schedule events s _ _ w hw _ _ ih =>
    rcases List.mem_cons.1 h with rfl | h
    · exact Schedule.cancelled_of_wait hw
    · exact ih h

/-- Every tick begins with the events that the one before left. -/
theorem linked_courseFrom (o : Outside σ) (started fuel n : Nat) (schedule : Schedule) (events : List (Event σ))
    (s : Scene σ) :
    Linked Round.events Round.left events (courseFrom o started fuel n schedule events s).rounds ∧
      (courseFrom o started fuel n schedule events s).events =
        endOf Round.left events (courseFrom o started fuel n schedule events s).rounds := by
  fun_induction courseFrom o started fuel n schedule events s with
  | case1 => exact ⟨trivial, rfl⟩
  | case2 => exact ⟨trivial, rfl⟩
  | case3 => exact ⟨trivial, rfl⟩
  | case4 => exact ⟨⟨rfl, trivial⟩, rfl⟩
  | case5 fuel n schedule events s _ _ _ _ t _ ih =>
    refine ⟨⟨rfl, ih.1⟩, ?_⟩
    exact ih.2.trans (endOf_cons ..).symm

/-- The events of every tick, and those that are left in the end, differ from the first ones in their memories alone. -/
theorem map_forget_courseFrom (o : Outside σ) (started fuel n : Nat) (schedule : Schedule) (events : List (Event σ))
    (s : Scene σ) :
    (∀ t ∈ (courseFrom o started fuel n schedule events s).rounds,
        t.events.map Event.forget = events.map Event.forget) ∧
      (courseFrom o started fuel n schedule events s).events.map Event.forget = events.map Event.forget := by
  obtain ⟨hlinked, hleft⟩ := linked_courseFrom o started fuel n schedule events s
  rw [hleft]
  exact hlinked.eq_of_const fun t _ => map_forget_leftByTurns ..

/-- A course that was followed no further has as many ticks as were to be followed. -/
theorem length_of_pending (h : (courseFrom o started fuel n schedule events s).progress = .pending) :
    (courseFrom o started fuel n schedule events s).rounds.length = fuel := by
  fun_induction courseFrom o started fuel n schedule events s with
  | case1 => rfl
  | case2 => cases h
  | case3 => cases h
  | case4 => cases h
  | case5 =>
    rename_i ih
    exact congrArg (· + 1) (ih h)

/-- A run stops only if it is asked to. -/
theorem cancelled_of_stopped (h : (courseFrom o started fuel n schedule events s).progress = .stopped) :
    (courseFrom o started fuel n schedule events s).scene.world.cancelled = true := by
  fun_induction courseFrom o started fuel n schedule events s with
  | case1 => cases h
  | case2 fuel n schedule events s hs => exact hs
  | case3 fuel n schedule events s _ _ w hw =>
    exact Schedule.cancelled_of_wait hw
  | case4 => cases h
  | case5 =>
    rename_i ih
    exact ih h

theorem rounds_of_cancelled (h : s.world.cancelled = true) :
    (courseFrom o started fuel n schedule events s).rounds = [] := by
  cases fuel with
  | zero => rfl
  | succ fuel => rw [courseFrom, if_pos h]

/-- A tick at whose end the run is asked to stop is the last. -/
theorem getLast_of_cancelled {t : Round σ} (h : t ∈ (courseFrom o started fuel n schedule events s).rounds)
    (ht : t.after.world.cancelled = true) :
    (courseFrom o started fuel n schedule events s).rounds.getLast? = some t := by
  fun_induction courseFrom o started fuel n schedule events s with
  | case1 => cases h
  | case2 => cases h
  | case3 => cases h
  | case4 => exact congrArg some (List.mem_singleton.1 h).symm
  | case5 fuel n schedule events s _ schedule' _ _ t' _ ih =>
    rcases List.mem_cons.1 h with h | h
    · rw [h] at ht ⊢
      exact congrArg (fun rounds => (t' :: rounds).getLast?) (rounds_of_cancelled ht)
    · show (t' :: (courseFrom o started fuel (n + 1) schedule' t'.left t'.after).rounds).getLast? = some t
      rw [List.getLast?_cons, ih h]
      rfl

/-- A run breaks off with the first tick that does. -/
theorem broken_iff {b : Breakdown} : (courseFrom o started fuel n schedule events s).progress = .broken b ↔
    ∃ t ∈ (courseFrom o started fuel n schedule events s).rounds, t.breakdown = some b := by
  have hnil (P : Round σ → Prop) : ¬∃ t ∈ [], P t := fun ⟨_, h, _⟩ => nomatch h
  fun_induction courseFrom o started fuel n schedule events s with
  | case1 => exact ⟨(nomatch ·), fun h => absurd h (hnil _)⟩
  | case2 => exact ⟨(nomatch ·), fun h => absurd h (hnil _)⟩
  | case3 => exact ⟨(nomatch ·), fun h => absurd h (hnil _)⟩
  | case4 _ _ _ _ _ _ _ _ _ t b' hb =>
    refine ⟨fun h => ⟨t, List.mem_singleton_self t, hb.trans (congrArg some ?_)⟩, ?_⟩
    · exact Progress.broken.inj h
    · rintro ⟨t', ht', hb'⟩
      obtain rfl := List.mem_singleton.1 ht'
      exact congrArg Progress.broken (Option.some.inj (hb.symm.trans hb'))
  | case5 _ _ _ _ _ _ _ _ _ t hb ih =>
    refine ih.trans ⟨?_, ?_⟩
    · rintro ⟨t', ht', hb'⟩
      exact ⟨t', List.mem_cons_of_mem _ ht', hb'⟩
    · rintro ⟨t', ht', hb'⟩
      rcases List.mem_cons.1 ht' with rfl | ht'
      · rw [hb] at hb'
        cases hb'
      · exact ⟨t', ht', hb'⟩

/-- When a run stops, nothing has happened since its last tick but that time has passed and those outside have acted. -/
theorem scene_courseFrom_preserves {P : World σ → Prop} (hP : ∀ d w, P w → P (w.advance o d))
    (h : P (endOf Round.after s (courseFrom o started fuel n schedule events s).rounds).world) :
    P (courseFrom o started fuel n schedule events s).scene.world := by
  fun_induction courseFrom o started fuel n schedule events s with
  | case1 => exact h
  | case2 => exact h
  | case3 fuel n schedule events s _ _ w hw =>
    have hwait : P (schedule.wait o s.sandbox.sleepPoll s.world).2.2 := schedule.wait_preserves hP _ h
    rw [hw] at hwait
    exact hwait
  | case4 => exact h
  | case5 =>
    rename_i ih
    exact ih (endOf_cons .. ▸ h)

end Course

/-! ## Closing -/

/-- The pass over the commands of an event when the run has stopped. -/
structure Closing (σ : Type) where
  started : Nat
  index : Nat
  event : Event σ
  /-- The scene in which the run has stopped. -/
  before : Scene σ

namespace Closing

/-- The scene in which the pass begins: the request to stop is withdrawn, and the machines are at work. -/
def opened (c : Closing σ) : Scene σ :=
  (tell "Running destroy event" c.before).onWorld fun w => w.reset.setExiting false

/-- The steps of the pass, which is not responsive. -/
def steps (c : Closing σ) : List (Step σ) := Run.steps false ⟨0, c.started⟩ c.event.commands c.opened

/-- The places of the commands that were run. -/
def executed (c : Closing σ) : List Nat := c.steps.map Step.place

/-- The event with its memories after the pass. -/
def left (c : Closing σ) : Event σ := { c.event with commands := leftBy 0 c.event.commands c.steps }

/-- The scene in which the pass ends. -/
def ended (c : Closing σ) : Scene σ := endOf Step.after c.opened c.steps

/-- What the board shows in the end. -/
def status (c : Closing σ) : Status := Status.insert c.index c.executed c.ended.world.board

/-- The scene behind the pass: the machines are cut short, and the run is asked to stop. -/
def after (c : Closing σ) : Scene σ := (publish c.status c.ended).onWorld fun w => (w.setExiting true).cancel

end Closing

/-- The closing of a run that has stopped with events in a scene, if one of them is closed. -/
def closing? (started : Nat) (events : List (Event σ)) (s : Scene σ) : Option (Closing σ) :=
  (events.findIdx? (·.role = .destroy)).bind fun i => events[i]?.map fun e => ⟨started, i, e, s⟩

/-- The event that is closed is the first of the role `destroy`. -/
theorem closing?_eq_some {started : Nat} {events : List (Event σ)} {s : Scene σ} {c : Closing σ}
    (h : closing? started events s = some c) :
    events[c.index]? = some c.event ∧ c.event.role = .destroy ∧
      (∀ i < c.index, ∀ e, events[i]? = some e → e.role ≠ .destroy) ∧ c.started = started ∧ c.before = s := by
  obtain ⟨i, hi, hc⟩ := Option.bind_eq_some_iff.1 h
  obtain ⟨e, he, rfl⟩ := Option.map_eq_some_iff.1 hc
  obtain ⟨hlt, hrole, hfirst⟩ := List.findIdx?_eq_some_iff_getElem.1 hi
  obtain ⟨_, hget⟩ := List.getElem?_eq_some_iff.1 he
  refine ⟨he, hget ▸ of_decide_eq_true hrole, fun j hj e' he' => ?_, rfl, rfl⟩
  obtain ⟨_, hget'⟩ := List.getElem?_eq_some_iff.1 he'
  have := hfirst j hj
  rw [hget'] at this
  exact fun hd => this (decide_eq_true hd)

/-- No event is closed only if none has the role `destroy`. -/
theorem closing?_eq_none {started : Nat} {events : List (Event σ)} {s : Scene σ}
    (h : closing? started events s = none) {e : Event σ} (he : e ∈ events) : e.role ≠ .destroy := by
  cases hi : events.findIdx? (·.role = .destroy) with
  | none =>
    have := List.findIdx?_eq_none_iff.1 hi e he
    exact of_decide_eq_false this
  | some i =>
    obtain ⟨hlt, -⟩ := List.findIdx?_eq_some_iff_getElem.1 hi
    rw [closing?, hi, Option.bind_some, List.getElem?_eq_getElem hlt] at h
    cases h

theorem Closing.runDestroy_eq (c : Closing σ) :
    runDestroy c.started c.index c.event c.before = (c.left, c.after) := by
  have hpass : interpret false ⟨0, c.started⟩ c.event.commands
      ((tell "Running destroy event" c.before).onWorld fun w => w.reset.setExiting false) =
      (⟨c.executed, c.steps.any (·.signal = .kill), leftBy 0 c.event.commands c.steps⟩, c.ended) := by
    rw [interpret, interpretFrom_eq]
    rfl
  rw [runDestroy, hpass]
  rfl

theorem shutdown_eq (started : Nat) (events : List (Event σ)) (s : Scene σ) :
    shutdown started events s =
      match closing? started events s with
      | none => (events, s)
      | some c => (events.set c.index c.left, c.after) := by
  unfold shutdown closing?
  cases hi : events.findIdx? (·.role = .destroy) with
  | none => rfl
  | some i =>
    cases he : events[i]? with
    | none => simp only [Option.bind_some, Option.map_none, he]
    | some e =>
      have hrun : runDestroy started i e s = _ := Closing.runDestroy_eq ⟨started, i, e, s⟩
      simp only [Option.bind_some, Option.map_some, he, hrun]

/-! ## The ending -/

/-- The scene in which a run has stopped. -/
def Course.stoppedScene (q : Course σ) : Scene σ :=
  tell ("Program stopping after " ++ toString q.rounds.length ++ " tick(s)") q.scene

/-- The closing of a run that has stopped, if an event is closed. -/
def Course.closing? (q : Course σ) (started : Nat) : Option (Closing σ) := Run.closing? started q.events q.stoppedScene

/-- How a run with a course ends. -/
def conclude (r : Run σ) (q : Course σ) : Ending σ × World σ :=
  match q.progress with
  | .pending => (.unfinished, q.scene.world)
  | .broken b => (.broken b, q.scene.world)
  | .stopped =>
    match q.closing? (startTime r) with
    | none =>
      let s := q.stoppedScene
      (.finished q.events ⟨q.rounds.length, s.world.board, s.sandbox.values, r.killed || q.killed⟩, s.world)
    | some c =>
      (.finished (q.events.set c.index c.left)
        ⟨q.rounds.length, c.status, c.after.sandbox.values, r.killed || q.killed⟩, c.after.world)

/-- **A run ends as its course says.** -/
theorem execute_eq (o : Outside σ) (fuel : Nat) (r : Run σ) : execute o fuel r = conclude r (course o fuel r) := by
  have hticks : ticks o (tell (greeting r) r.scene).world.clock fuel 0
      (.start r.period (tell (greeting r) r.scene).world.clock) { r with scene := tell (greeting r) r.scene } = _ :=
    ticks_eq ..
  unfold execute conclude Course.closing? Course.stoppedScene course startTime startScene
  dsimp only
  rw [hticks]
  dsimp only
  generalize courseFrom o _ fuel 0 _ r.events _ = q
  match hq : q.progress with
  | .pending => rfl
  | .broken b => rfl
  | .stopped =>
    dsimp only
    rw [Nat.zero_add, shutdown_eq]
    cases closing? _ q.events _ with
    | none => rfl
    | some c => rfl

end Run
end ArmPilot
