import ArmPilot.Proofs.Worker.Chronicle
import ArmPilot.Proofs.Worker.Steps

/-!
# The account of a run

The routine of a worker with a chronicle beside it, in which every command is written down in the step that runs it.
Nothing that the worker does depends on the chronicle: without it the routine is the one of the run
(`Account.routine_working`), and so is every play (`Telling.activity_play`).
-/

namespace ArmPilot

/-- A routine with what is written down in its steps. -/
inductive Account (σ α : Type) where
  | done (a : α)
  | step (deed : Deed) (note : Scene σ → Chronicle → Chronicle) (act : Scene σ → Scene σ)
      (next : Scene σ → Account σ α)

variable {σ α β ι : Type}

namespace Account

/-- What is done, without the chronicle. -/
def routine : Account σ α → Routine σ α
  | .done a => .done a
  | .step d _ act next => .step d act fun s => (next s).routine

/-- A routine in which nothing is written down. -/
def silent : Routine σ α → Account σ α
  | .done a => .done a
  | .step d act next => .step d (fun _ => id) act fun s => silent (next s)

/-- An account, then another for its result. -/
def bind : Account σ α → (α → Account σ β) → Account σ β
  | .done a, f => f a
  | .step d note act next, f => .step d note act fun s => (next s).bind f

/-- An account with another result. -/
def map (f : α → β) (p : Account σ α) : Account σ β := p.bind fun a => .done (f a)

theorem routine_silent (p : Routine σ α) : (silent p).routine = p := by
  induction p with
  | done => rfl
  | step d act next ih => exact congrArg (Routine.step d act) (funext ih)

theorem routine_bind (p : Account σ α) (f : α → Account σ β) :
    (p.bind f).routine = p.routine.bind fun a => (f a).routine := by
  induction p with
  | done => rfl
  | step d note act next ih => exact congrArg (Routine.step d act) (funext ih)

theorem routine_map (f : α → β) (p : Account σ α) : (p.map f).routine = p.routine.map f := routine_bind ..

/-! ## The worker -/

/-- A step in which nothing is written down. -/
def still (d : Deed) (act : Scene σ → Scene σ) (next : Scene σ → Account σ α) : Account σ α :=
  .step d (fun _ => id) act next

/-- A look whether the run is asked to stop, and what to do in either case. -/
def look (d : Deed) (stopped going : Account σ α) : Account σ α :=
  still d id fun s => if s.world.cancelled then stopped else going

open Run (Pass Tick Ticked runGuarded guarded elseLength endProgram publish tell greeting)

/-- The run of a command at a place, which is written down, and the pass behind it. -/
def running (responsive : Bool) (m : Moment) (i : Nat) (c : Command σ) (rest : List (Command σ))
    (behind : Nat → Account σ (Pass σ)) : Account σ (Pass σ) :=
  .step (.command responsive) (fun _ => Chronicle.run i) (fun s => (runGuarded m c s).2.2) fun s =>
    let (signal, c, _) := runGuarded m c s
    match signal with
    | .kill => still (.kill responsive) (·.onWorld (endProgram c.kind)) fun _ => .done ⟨[i], true, c :: rest⟩
    | .exit => .done ⟨[i], false, c :: rest⟩
    | .skip => (behind (guarded rest)).map (·.behind i c (rest.take (guarded rest)))
    | .proceed => (behind (elseLength rest)).map (·.behind i c (rest.take (elseLength rest)))

/-- The pass over the commands from a place on. -/
def passing (responsive : Bool) (m : Moment) (i : Nat) (cs : List (Command σ)) : Account σ (Pass σ) :=
  match cs with
  | [] => .done ⟨[], false, []⟩
  | c :: rest =>
    let run := running responsive m i c rest fun n => passing responsive m (i + 1 + n) (rest.drop n)
    if responsive then look .look (.done ⟨[], false, c :: rest⟩) run else run
termination_by cs.length
decreasing_by simp only [List.length_drop, List.length_cons]; omega

/-- What is written down when an event has answered: that its commands are to be run, if it is active. -/
def polled (i : Nat) (answer : Except Breakdown Bool) : Chronicle → Chronicle :=
  match answer with
  | .ok true => Chronicle.visit i
  | .ok false | .error _ => id

/-- The events of a tick from a place on, after those that ran before. -/
def touring (m : Moment) : Nat → Status → List (Event σ) → Account σ (Tick σ)
  | _, _, [] => .done ⟨[], false, none⟩
  | i, status, e :: rest =>
    look .look (.done ⟨e :: rest, false, none⟩) <|
      if e.role = .destroy then (touring m (i + 1) status rest).map (·.behind e false)
      else
        .step .poll (fun s => polled i (e.poll m s).1) (fun s => (e.poll m s).2.2) fun s =>
          match e.poll m s with
          | (.error b, e, _) => .done ⟨e :: rest, false, some b⟩
          | (.ok false, e, _) => (touring m (i + 1) status rest).map (·.behind e false)
          | (.ok true, e, _) =>
            (passing true m 0 e.commands).bind fun p =>
              let status := Status.insert i p.executed status
              .step (.publish true) (fun _ => Chronicle.leave) (publish status) fun _ =>
                (touring m (i + 1) status rest).map (·.behind { e with commands := p.commands } p.killed)

/-- What is done behind a tick: nothing if it broke off. -/
def behindTick (t : Tick σ) (killed : Bool) (next : Account σ (Ticked σ)) : Account σ (Ticked σ) :=
  match t.breakdown with
  | some b => .done ⟨some (.error b), t.events, killed || t.killed⟩
  | none => next

/-- The ticks of a run, at most `fuel` more after the first `n`. -/
def ticking (o : Outside σ) (started : Nat) :
    Nat → Nat → Schedule → List (Event σ) → Bool → Account σ (Ticked σ)
  | 0, _, _, events, killed => .done ⟨none, events, killed⟩
  | fuel + 1, n, schedule, events, killed =>
    let ended : Account σ (Ticked σ) := .done ⟨some (.ok n), events, killed⟩
    look .look ended <|
      (silent (Run.pausing o schedule)).bind fun slept =>
        match slept with
        | .cut => ended
        | .full | .overflow =>
          look .wait ended <|
            .step .tick (fun _ => Chronicle.enter) (publish []) fun _ =>
              (touring ⟨n + 1, started⟩ 0 [] events).bind fun t =>
                behindTick t killed <|
                  ticking o started fuel (n + 1) schedule.advance t.events (killed || t.killed)

/-- The pass over the commands of an event when the program ends. -/
def closing (started i : Nat) (e : Event σ) : Account σ (Event σ) :=
  .step .reset (fun _ => Chronicle.visit i) (fun s => (tell "Running destroy event" s).onWorld World.reset) fun _ =>
    still .clear (·.onWorld (·.setExiting false)) fun _ =>
      (passing false ⟨0, started⟩ 0 e.commands).bind fun p =>
        .step (.publish false) (fun _ => Chronicle.close)
            (fun s => publish (Status.insert i p.executed s.world.board) s) fun _ =>
          still .raise (·.onWorld (·.setExiting true)) fun _ =>
            still .cancel (·.onWorld World.cancel) fun _ => .done { e with commands := p.commands }

/-- The closing of the first event of the role `destroy`, if there is one. -/
def shutting (started : Nat) (events : List (Event σ)) : Account σ (List (Event σ)) :=
  match events.findIdx? (·.role = .destroy) with
  | none => .done events
  | some i =>
    match events[i]? with
    | none => .done events
    | some e => (closing started i e).map (events.set i ·)

/-- What is done behind the ticks of a run. -/
def ending (started : Nat) (t : Ticked σ) : Account σ (Ending σ) :=
  match t.outcome with
  | none => .done .unfinished
  | some (.error b) => .done (.broken b)
  | some (.ok n) =>
    still .stop (tell ("Program stopping after " ++ toString n ++ " tick(s)")) fun _ =>
      (shutting started t.events).bind fun events =>
        still .sum id fun s => .done (.finished events ⟨n, s.world.board, s.sandbox.values, t.killed⟩)

/-- A run from its start to its end, in at most `fuel` ticks. -/
def working (o : Outside σ) (fuel : Nat) (r : Run σ) : Account σ (Ending σ) :=
  still .start (tell (greeting r)) fun s =>
    let started := s.world.clock
    (ticking o started fuel 0 (.start r.period started) r.events r.killed).bind (ending started)

/-! ## The worker without its chronicle -/

theorem routine_look (d : Deed) (p q : Account σ α) : (look d p q).routine = Run.look d p.routine q.routine := by
  refine congrArg (Routine.step d id) (funext fun s => ?_)
  exact apply_ite routine _ p q

theorem routine_running (responsive : Bool) (m : Moment) (i : Nat) (c : Command σ) (rest : List (Command σ))
    (behind : Nat → Account σ (Pass σ)) :
    (running responsive m i c rest behind).routine =
      Run.running responsive m i c rest fun n => (behind n).routine := by
  refine congrArg (Routine.step _ _) (funext fun s => ?_)
  dsimp only
  rcases runGuarded m c s with ⟨signal, c', s'⟩
  cases signal with
  | kill | exit => rfl
  | skip | proceed => exact routine_map ..

theorem routine_passing (responsive : Bool) (m : Moment) (i : Nat) (cs : List (Command σ)) :
    (passing responsive m i cs).routine = Run.passing responsive m i cs := by
  match cs with
  | [] =>
    rw [passing, Run.passing]
    rfl
  | c :: rest =>
    have ih (n : Nat) := routine_passing responsive m (i + 1 + n) (rest.drop n)
    have hrunning : (running responsive m i c rest fun n => passing responsive m (i + 1 + n) (rest.drop n)).routine =
        Run.running responsive m i c rest fun n => Run.passing responsive m (i + 1 + n) (rest.drop n) := by
      simp only [routine_running, ih]
    rw [passing, Run.passing]
    split
    · exact (routine_look ..).trans (congrArg (Run.look _ _) hrunning)
    · exact hrunning
termination_by cs.length
decreasing_by simp only [List.length_drop, List.length_cons]; omega

theorem routine_touring (m : Moment) (i : Nat) (status : Status) (events : List (Event σ)) :
    (touring m i status events).routine = Run.touring m i status events := by
  induction events generalizing i status with
  | nil => rfl
  | cons e rest ih =>
    rw [touring, Run.touring, routine_look]
    refine congrArg (Run.look _ _) ?_
    split
    · rw [routine_map, ih]
    · refine congrArg (Routine.step _ _) (funext fun s => ?_)
      dsimp only
      rcases e.poll m s with ⟨answer, e', s'⟩
      rcases answer with b | _ | _
      · rfl
      · dsimp only
        rw [routine_map, ih]
      · dsimp only
        rw [routine_bind, routine_passing]
        refine congrArg (Routine.bind _) (funext fun p => congrArg (Routine.step _ _) (funext fun _ => ?_))
        rw [routine_map, ih]

theorem routine_behindTick (t : Tick σ) (killed : Bool) (next : Account σ (Ticked σ)) :
    (behindTick t killed next).routine = Run.behindTick t killed next.routine := by
  unfold behindTick Run.behindTick
  cases t.breakdown with
  | some b => rfl
  | none => rfl

theorem routine_ticking (o : Outside σ) (started fuel n : Nat) (schedule : Schedule) (events : List (Event σ))
    (killed : Bool) :
    (ticking o started fuel n schedule events killed).routine = Run.ticking o started fuel n schedule events killed := by
  induction fuel generalizing n schedule events killed with
  | zero => rfl
  | succ fuel ih =>
    rw [ticking, Run.ticking, routine_look, routine_bind, routine_silent]
    refine congrArg (fun p => Run.look _ _ (Routine.bind _ p)) (funext fun slept => ?_)
    have hticked : (look .wait (.done ⟨some (.ok n), events, killed⟩) <|
        .step .tick (fun _ => Chronicle.enter) (publish []) fun _ => (touring ⟨n + 1, started⟩ 0 [] events).bind fun t =>
          behindTick t killed (ticking o started fuel (n + 1) schedule.advance t.events (killed || t.killed))).routine =
        Run.look .wait (.done ⟨some (.ok n), events, killed⟩) (.step .tick (publish []) fun _ =>
          (Run.touring ⟨n + 1, started⟩ 0 [] events).bind fun t =>
            Run.behindTick t killed
              (Run.ticking o started fuel (n + 1) schedule.advance t.events (killed || t.killed))) := by
      rw [routine_look]
      refine congrArg (Run.look _ _) (congrArg (Routine.step _ _) (funext fun _ => ?_))
      rw [routine_bind, routine_touring]
      refine congrArg (Routine.bind _) (funext fun t => ?_)
      rw [routine_behindTick, ih]
    cases slept with
    | cut => rfl
    | full | overflow => exact hticked

theorem routine_closing (started i : Nat) (e : Event σ) :
    (closing started i e).routine = Run.closing started i e := by
  refine congrArg (Routine.step _ _) (funext fun _ => congrArg (Routine.step _ _) (funext fun _ => ?_))
  rw [routine_bind, routine_passing]
  rfl

theorem routine_shutting (started : Nat) (events : List (Event σ)) :
    (shutting started events).routine = Run.shutting started events := by
  unfold shutting Run.shutting
  cases events.findIdx? (·.role = .destroy) with
  | none => rfl
  | some i =>
    cases he : events[i]? with
    | none => simp only [he, routine]
    | some e => simp only [he, routine_map, routine_closing]

theorem routine_ending (started : Nat) (t : Ticked σ) : (ending started t).routine = Run.ending started t := by
  unfold ending Run.ending
  match t.outcome with
  | none => rfl
  | some (.error b) => rfl
  | some (.ok n) =>
    refine congrArg (Routine.step _ _) (funext fun _ => ?_)
    rw [routine_bind, routine_shutting]
    rfl

/-- **The account of a run, without its chronicle, is what the worker does.** -/
theorem routine_working (o : Outside σ) (fuel : Nat) (r : Run σ) :
    (working o fuel r).routine = r.working o fuel := by
  refine congrArg (Routine.step _ _) (funext fun s => ?_)
  rw [routine_bind, routine_ticking]
  exact congrArg (Routine.bind _) (funext (routine_ending _))

end Account

/-! ## Plays -/

/-- An account under way in a scene, with what has been written down. -/
structure Telling (σ α : Type) where
  rest : Account σ α
  scene : Scene σ
  chronicle : Chronicle

namespace Telling

/-- What is under way, without the chronicle. -/
def activity (t : Telling σ α) : Activity σ α := ⟨t.rest.routine, t.scene⟩

/-- The next step of the worker, if there is one. -/
def step (t : Telling σ α) : Telling σ α :=
  match t.rest with
  | .done a => ⟨.done a, t.scene, t.chronicle⟩
  | .step _ note act next => ⟨next t.scene, act t.scene, note t.scene t.chronicle⟩

variable (act : ι → World σ → World σ)

/-- A move, where others act on the world in their ways. -/
def move (t : Telling σ α) : Move ι → Telling σ α
  | .work => t.step
  | .other i => { t with scene := t.scene.onWorld (act i) }

/-- A play. -/
def play (t : Telling σ α) (ms : List (Move ι)) : Telling σ α := ms.foldl (move act) t

theorem activity_move (t : Telling σ α) (m : Move ι) : (t.move act m).activity = t.activity.move act m := by
  cases m with
  | other i => rfl
  | work =>
    obtain ⟨p, s, c⟩ := t
    cases p with
    | done => rfl
    | step => rfl

/-- **A play with a chronicle is the play without it.** -/
theorem activity_play (t : Telling σ α) (ms : List (Move ι)) : (t.play act ms).activity = t.activity.play act ms := by
  induction ms generalizing t with
  | nil => rfl
  | cons m ms ih => exact (ih (t.move act m)).trans (congrArg (Activity.play act · ms) (activity_move act t m))

end Telling
end ArmPilot
