import ArmPilot.Proofs.Worker.Routine
import ArmPilot.Run.Basic

/-!
# The steps of a worker

A run as the routine of its worker.  Every look at the request to stop, every round of a wait, every question to an
event, every run of a command and every write to the flags or the board is a step of its own.  A worker that nobody
disturbs does what the run does (`Run.exists_play_worker`).
-/

namespace ArmPilot
namespace Run

variable {σ α ι : Type}

/-- A look whether the run is asked to stop, and what to do in either case. -/
def look (d : Deed) (stopped going : Routine σ α) : Routine σ α :=
  .step d id fun s => if s.world.cancelled then stopped else going

/-- The run of a command at a place, and the pass behind it once some of the other commands are passed over. -/
def running (responsive : Bool) (m : Moment) (i : Nat) (c : Command σ) (rest : List (Command σ))
    (behind : Nat → Routine σ (Pass σ)) : Routine σ (Pass σ) :=
  .step (.command responsive) (fun s => (runGuarded m c s).2.2) fun s =>
    let (signal, c, _) := runGuarded m c s
    match signal with
    | .kill => .step (.kill responsive) (·.onWorld (endProgram c.kind)) fun _ => .done ⟨[i], true, c :: rest⟩
    | .exit => .done ⟨[i], false, c :: rest⟩
    | .skip => (behind (guarded rest)).map (·.behind i c (rest.take (guarded rest)))
    | .proceed => (behind (elseLength rest)).map (·.behind i c (rest.take (elseLength rest)))

/-- The pass over the commands from a place on. -/
def passing (responsive : Bool) (m : Moment) (i : Nat) (cs : List (Command σ)) : Routine σ (Pass σ) :=
  match cs with
  | [] => .done ⟨[], false, []⟩
  | c :: rest =>
    let run := running responsive m i c rest fun n => passing responsive m (i + 1 + n) (rest.drop n)
    if responsive then look .look (.done ⟨[], false, c :: rest⟩) run else run
termination_by cs.length
decreasing_by simp only [List.length_drop, List.length_cons]; omega

/-- The events of a tick from a place on, after those that ran before. -/
def touring (m : Moment) : Nat → Status → List (Event σ) → Routine σ (Tick σ)
  | _, _, [] => .done ⟨[], false, none⟩
  | i, status, e :: rest =>
    look .look (.done ⟨e :: rest, false, none⟩) <|
      if e.role = .destroy then (touring m (i + 1) status rest).map (·.behind e false)
      else
        .step .poll (fun s => (e.poll m s).2.2) fun s =>
          match e.poll m s with
          | (.error b, e, _) => .done ⟨e :: rest, false, some b⟩
          | (.ok false, e, _) => (touring m (i + 1) status rest).map (·.behind e false)
          | (.ok true, e, _) =>
            (passing true m 0 e.commands).bind fun p =>
              let status := Status.insert i p.executed status
              .step (.publish true) (publish status) fun _ =>
                (touring m (i + 1) status rest).map (·.behind { e with commands := p.commands } p.killed)

/-- The rounds of a sleep until the next tick. -/
def sleeping (o : Outside σ) (deadline poll : Nat) : Nat → Routine σ World.Slept
  | 0 => .done .full
  | fuel + 1 =>
    look .wait (.done .cut) <|
      .step .wait id fun s =>
        if deadline ≤ s.world.clock then .done .full
        else
          .step .wait (·.onWorld (World.advance o (min (deadline - s.world.clock) poll))) fun _ =>
            sleeping o deadline poll fuel

/-- The sleep until the next tick, if it is not due. -/
def pausing (o : Outside σ) (schedule : Schedule) : Routine σ World.Slept :=
  .step .wait id fun s =>
    let duration := schedule.next - s.world.clock
    if s.world.clock < schedule.next then
      if World.clockEnd ≤ s.world.clock + duration then .done .overflow
      else sleeping o (s.world.clock + duration) (max s.sandbox.sleepPoll World.leastPoll) (duration + 1)
    else .done .full

/-- How the ticks of a run ended, as `Run.ticks` has it, and what they left of the run. -/
structure Ticked (σ : Type) where
  outcome : Option (Except Breakdown Nat)
  events : List (Event σ)
  killed : Bool

/-- What is done behind a tick, after those that came before: nothing if it broke off. -/
def behindTick (t : Tick σ) (killed : Bool) (next : Routine σ (Ticked σ)) : Routine σ (Ticked σ) :=
  match t.breakdown with
  | some b => .done ⟨some (.error b), t.events, killed || t.killed⟩
  | none => next

/-- The ticks of a run, at most `fuel` more after the first `n`. -/
def ticking (o : Outside σ) (started : Nat) :
    Nat → Nat → Schedule → List (Event σ) → Bool → Routine σ (Ticked σ)
  | 0, _, _, events, killed => .done ⟨none, events, killed⟩
  | fuel + 1, n, schedule, events, killed =>
    let ended : Routine σ (Ticked σ) := .done ⟨some (.ok n), events, killed⟩
    look .look ended <|
      (pausing o schedule).bind fun slept =>
        match slept with
        | .cut => ended
        | .full | .overflow =>
          look .wait ended <|
            .step .tick (publish []) fun _ =>
              (touring ⟨n + 1, started⟩ 0 [] events).bind fun t =>
                behindTick t killed <|
                  ticking o started fuel (n + 1) schedule.advance t.events (killed || t.killed)

/-- The pass over the commands of an event when the program ends. -/
def closing (started i : Nat) (e : Event σ) : Routine σ (Event σ) :=
  .step .reset (fun s => (tell "Running destroy event" s).onWorld World.reset) fun _ =>
    .step .clear (·.onWorld (·.setExiting false)) fun _ =>
      (passing false ⟨0, started⟩ 0 e.commands).bind fun p =>
        .step (.publish false) (fun s => publish (Status.insert i p.executed s.world.board) s) fun _ =>
          .step .raise (·.onWorld (·.setExiting true)) fun _ =>
            .step .cancel (·.onWorld World.cancel) fun _ => .done { e with commands := p.commands }

/-- The closing of the first event of the role `destroy`, if there is one. -/
def shutting (started : Nat) (events : List (Event σ)) : Routine σ (List (Event σ)) :=
  match events.findIdx? (·.role = .destroy) with
  | none => .done events
  | some i =>
    match events[i]? with
    | none => .done events
    | some e => (closing started i e).map (events.set i ·)

/-- What is done behind the ticks of a run. -/
def ending (started : Nat) (t : Ticked σ) : Routine σ (Ending σ) :=
  match t.outcome with
  | none => .done .unfinished
  | some (.error b) => .done (.broken b)
  | some (.ok n) =>
    .step .stop (tell ("Program stopping after " ++ toString n ++ " tick(s)")) fun _ =>
      (shutting started t.events).bind fun events =>
        .step .sum id fun s => .done (.finished events ⟨n, s.world.board, s.sandbox.values, t.killed⟩)

/-- A run from its start to its end, in at most `fuel` ticks. -/
def working (o : Outside σ) (fuel : Nat) (r : Run σ) : Routine σ (Ending σ) :=
  .step .start (tell (greeting r)) fun s =>
    let started := s.world.clock
    (ticking o started fuel 0 (.start r.period started) r.events r.killed).bind (ending started)

/-- The worker of a run. -/
def worker (o : Outside σ) (fuel : Nat) (r : Run σ) : Activity σ (Ending σ) := ⟨working o fuel r, r.scene⟩

/-! ## The worker by itself -/

theorem alone_look (d : Deed) (p q : Routine σ α) (s : Scene σ) :
    (look d p q).alone s = if s.world.cancelled then p.alone s else q.alone s := by
  rw [look, Routine.alone_step]
  split
  · rfl
  · rfl

theorem alone_passing (responsive : Bool) (m : Moment) (i : Nat) (cs : List (Command σ)) (s : Scene σ) :
    (passing responsive m i cs).alone s = interpretFrom responsive m i cs s := by
  match cs with
  | [] => rw [passing, interpretFrom, Routine.alone_done]
  | c :: rest =>
    have ih (n : Nat) (s : Scene σ) := alone_passing responsive m (i + 1 + n) (rest.drop n) s
    have hrun (hs : ¬(responsive && s.world.cancelled) = true) :
        (running responsive m i c rest fun n => passing responsive m (i + 1 + n) (rest.drop n)).alone s =
          interpretFrom responsive m i (c :: rest) s := by
      rw [running, Routine.alone_step, interpretFrom, if_neg hs]
      rcases runGuarded m c s with ⟨signal, c', s'⟩
      cases signal with
      | kill | exit => rfl
      | skip | proceed =>
        dsimp only
        rw [Routine.alone_map, ih]
    rw [passing]
    cases responsive with
    | false => exact hrun Bool.false_ne_true
    | true =>
      rw [if_pos rfl, alone_look]
      split
      · rw [interpretFrom, if_pos ‹_›]
        rfl
      · exact hrun ‹_›
termination_by cs.length
decreasing_by simp only [List.length_drop, List.length_cons]; omega

theorem alone_touring (m : Moment) (i : Nat) (status : Status) (events : List (Event σ)) (s : Scene σ) :
    (touring m i status events).alone s = tickFrom m i status events s := by
  induction events generalizing i status s with
  | nil => rfl
  | cons e rest ih =>
    rw [touring, tickFrom, alone_look]
    split
    · rfl
    · split
      · rw [Routine.alone_map, ih]
      · rw [Routine.alone_step]
        rcases e.poll m s with ⟨answer, e', s'⟩
        match answer with
        | .error b => rfl
        | .ok false =>
          dsimp only
          rw [Routine.alone_map, ih]
        | .ok true =>
          dsimp only
          rw [Routine.alone_bind, alone_passing, interpret, Routine.alone_step, Routine.alone_map, ih]

theorem alone_sleeping (o : Outside σ) (deadline poll fuel : Nat) (s : Scene σ) :
    (sleeping o deadline poll fuel).alone s =
      ((World.sleepUntil o deadline poll fuel s.world).1,
        { s with world := (World.sleepUntil o deadline poll fuel s.world).2 }) := by
  induction fuel generalizing s with
  | zero => rfl
  | succ fuel ih =>
    rw [sleeping, World.sleepUntil, alone_look, Routine.alone_step]
    split
    · rfl
    · split
      · rfl
      · rw [Routine.alone_step, ih]
        rfl

theorem alone_pausing (o : Outside σ) (schedule : Schedule) (s : Scene σ) :
    (pausing o schedule).alone s =
      if s.world.clock < schedule.next then
        let (slept, w) := s.world.sleep o (schedule.next - s.world.clock) s.sandbox.sleepPoll
        (slept, { s with world := w })
      else (.full, s) := by
  rw [pausing, Routine.alone_step]
  dsimp only [World.sleep]
  split
  · split
    · rfl
    · exact alone_sleeping ..
  · rfl

/-- The wait for a tick is a pause with a look behind it, which changes nothing but the world. -/
theorem wait_eq {o : Outside σ} {schedule : Schedule} {s s' : Scene σ} {slept : World.Slept}
    (h : (pausing o schedule).alone s = (slept, s')) :
    s' = { s with world := s'.world } ∧ schedule.wait o s.sandbox.sleepPoll s.world =
      match slept with
      | .cut => (false, schedule, s'.world)
      | .full | .overflow => (!s'.world.cancelled, schedule.advance, s'.world) := by
  rw [alone_pausing] at h
  unfold Schedule.wait
  split at h
  · rw [if_pos ‹_›]
    rcases hsleep : s.world.sleep o (schedule.next - s.world.clock) s.sandbox.sleepPoll with ⟨slept', w⟩
    rw [hsleep] at h
    obtain ⟨rfl, rfl⟩ := Prod.mk.inj h
    cases slept' <;> exact ⟨rfl, rfl⟩
  · rw [if_neg ‹_›]
    obtain ⟨rfl, rfl⟩ := Prod.mk.inj h
    exact ⟨rfl, rfl⟩

/-- The ticks that a worker makes by itself are those of the run. -/
theorem alone_ticking (o : Outside σ) (started fuel n : Nat) (schedule : Schedule) (r : Run σ) :
    ticks o started fuel n schedule r =
      let (t, s) := (ticking o started fuel n schedule r.events r.killed).alone r.scene
      (t.outcome, { r with events := t.events, scene := s, killed := t.killed }) := by
  induction fuel generalizing n schedule r with
  | zero => rfl
  | succ fuel ih =>
    rw [ticks, ticking, alone_look]
    split
    · rfl
    · rw [Routine.alone_bind]
      rcases hp : (pausing o schedule).alone r.scene with ⟨slept, s⟩
      obtain ⟨hs, hwait⟩ := wait_eq hp
      rw [hwait]
      cases slept with
      | cut =>
        dsimp only
        rw [← hs]
        rfl
      | full | overflow =>
        dsimp only
        rw [alone_look]
        by_cases hc : s.world.cancelled = true
        · rw [if_pos hc, hc, Bool.not_true]
          dsimp only
          rw [← hs]
          rfl
        · rw [if_neg hc, eq_false_of_ne_true hc, Bool.not_false]
          dsimp only
          rw [← hs, Routine.alone_step, Routine.alone_bind, alone_touring, tick]
          rcases tickFrom ⟨n + 1, started⟩ 0 [] r.events (publish [] s) with ⟨t, s'⟩
          dsimp only [behindTick]
          cases t.breakdown with
          | some b => rfl
          | none => exact ih ..

/-- The closing of an event by a worker by itself is that of the run. -/
theorem alone_closing (started i : Nat) (e : Event σ) (s : Scene σ) :
    (closing started i e).alone s = runDestroy started i e s := by
  simp only [closing, Routine.alone_step, Routine.alone_bind, alone_passing, runDestroy, interpret]
  rfl

theorem alone_shutting (started : Nat) (events : List (Event σ)) (s : Scene σ) :
    (shutting started events).alone s = shutdown started events s := by
  unfold shutting shutdown
  cases events.findIdx? (·.role = .destroy) with
  | none => rfl
  | some i =>
    cases he : events[i]? with
    | none => simp only [he, Routine.alone_done]
    | some e => simp only [he, Routine.alone_map, alone_closing]

/-- A worker by itself does what the run does. -/
theorem alone_working (o : Outside σ) (fuel : Nat) (r : Run σ) :
    execute o fuel r = (((working o fuel r).alone r.scene).1, ((working o fuel r).alone r.scene).2.world) := by
  have hstarted : (tell (greeting r) r.scene).world.clock = r.scene.world.clock := rfl
  unfold execute working
  dsimp only
  rw [Routine.alone_step, Routine.alone_bind, alone_ticking, hstarted]
  generalize (ticking o r.scene.world.clock fuel 0 _ r.events r.killed).alone (tell (greeting r) r.scene) = q
  obtain ⟨⟨outcome, events, killed⟩, s⟩ := q
  match outcome with
  | none => rfl
  | some (.error b) => rfl
  | some (.ok n) =>
    dsimp only [ending]
    rw [Routine.alone_step, Routine.alone_bind, alone_shutting]
    rfl

/-- **A worker that nobody disturbs does what the run does**, however others might act. -/
theorem exists_play_worker (act : ι → World σ → World σ) (o : Outside σ) (fuel : Nat) (r : Run σ) :
    ∃ n s, (worker o fuel r).play act (List.replicate n .work) = ⟨.done (execute o fuel r).1, s⟩ ∧
      s.world = (execute o fuel r).2 := by
  obtain ⟨n, hn⟩ := (working o fuel r).exists_play r.scene
  refine ⟨n, ((working o fuel r).alone r.scene).2, hn.trans ?_, ?_⟩
  · rw [alone_working]
  · rw [alone_working]

end Run
end ArmPilot
