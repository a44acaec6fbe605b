import ArmPilot.Proofs.Run.Course

/-!
# The order of a run

What a run does, and in which order, for any events: their triggers must answer, and neither they nor those outside
may write on the board or stop the run from outside.  The ticks are numbered, in each of them the regular events have
their turns in order, and nothing is done once the run is asked to stop but that the first event of the role `destroy`
is closed (`Course.Orderly`).  The result of the run is read off its course (`execute_create`).
-/

namespace ArmPilot

variable {σ : Type}

/-- Whether those outside leave the request to stop and the board alone. -/
structure Outside.Aloof (o : Outside σ) : Prop where
  cancelled : ∀ w, (o.turn w).cancelled = w.cancelled
  board : ∀ w, (o.turn w).board = w.board

namespace Event

/-- The answer of a trigger with a memory. -/
def ask (e : Event σ) (m : Moment) (memory : Nat) (s : Scene σ) : (Except Breakdown Bool × Nat) × Scene σ :=
  ((e.trigger.isActive m).run.run memory).run s

/-- Whether the trigger of an event never breaks down. -/
def Answers (e : Event σ) : Prop := ∀ m memory s, ∃ active, (e.ask m memory s).1.1 = .ok active

/-- Whether neither the trigger nor a command of an event writes on the board. -/
structure SparesBoard (e : Event σ) : Prop where
  ask : ∀ m memory s, (e.ask m memory s).2.world.board = s.world.board
  run : ∀ c ∈ e.commands, ∀ m memory s, ((c.remember memory).run m s).2.2.world.board = s.world.board

variable {e e' : Event σ}

theorem role_eq_of_forget (h : e.forget = e'.forget) : e.role = e'.role :=
  show e.forget.role = e'.forget.role from congrArg Event.role h

theorem ask_eq_of_forget (h : e.forget = e'.forget) : e.ask = e'.ask := by
  have hactive : e.trigger.isActive = e'.trigger.isActive :=
    show e.forget.trigger.isActive = e'.forget.trigger.isActive by rw [h]
  unfold ask
  rw [hactive]

/-- What an event remembers does not matter for whether its trigger answers. -/
theorem Answers.of_forget (h : e.forget = e'.forget) (he : e.Answers) : e'.Answers := by
  unfold Answers
  rw [← ask_eq_of_forget h]
  exact he

/-- What an event remembers does not matter for whether it spares the board. -/
theorem SparesBoard.of_forget (h : e.forget = e'.forget) (he : e.SparesBoard) : e'.SparesBoard := by
  refine ⟨?_, fun c' hc' => ?_⟩
  · rw [← ask_eq_of_forget h]
    exact he.ask
  · have hcommands : e.commands.map Command.forget = e'.commands.map Command.forget := congrArg Event.commands h
    obtain ⟨c, hc, hcc'⟩ := List.mem_map.1 (hcommands ▸ List.mem_map_of_mem hc')
    intro m memory s
    have hremember : c'.remember memory = c.remember memory := (congrArg (Command.remember · memory) hcc').symm
    rw [hremember]
    exact he.run c hc m memory s

end Event

namespace Run

/-! ## The board -/

/-- A step writes no more on the board than its command does. -/
theorem board_stepAt (m : Moment) (i : Nat) (c : Command σ) (s : Scene σ) :
    (stepAt m i c s).after.world.board = (c.run m s).2.2.world.board := by
  unfold stepAt runGuarded
  match c.run m s with
  | (.ok .kill, _, _) | (.ok .proceed, _, _) | (.ok .skip, _, _) | (.ok .exit, _, _) | (.error _, _, _) => rfl

/-- A pass over commands that spare the board leaves it alone. -/
theorem board_stepsFrom {responsive : Bool} {m : Moment} {cs : List (Command σ)} {s : Scene σ}
    (h : ∀ c ∈ cs, ∀ m memory s, ((c.remember memory).run m s).2.2.world.board = s.world.board) :
    (endOf Step.after s (steps responsive m cs s)).world.board = s.world.board := by
  refine (Linked.eq_of_const (f := fun s : Scene σ => s.world.board) (linked_stepsFrom responsive m 0 cs s)
    fun st hst => ?_).2
  obtain ⟨c, hc, heq⟩ := eq_stepAt hst
  show st.after.world.board = st.before.world.board
  rw [heq, board_stepAt]
  exact h c (List.mem_of_getElem? hc) m c.action.memory st.before

/-- At the end of a tick the board shows what ran in it. -/
theorem Round.board_after {t : Round σ} (h : ∀ e ∈ t.events, e.SparesBoard) : t.after.world.board = t.status := by
  refine (board_turnsFrom (fun _ he => absurd he List.not_mem_nil) rfl fun turn hturn _ => ?_).trans (List.nil_append _)
  obtain ⟨-, hget, -⟩ := of_mem_turnsFrom hturn
  exact (h turn.event (List.mem_of_getElem? hget)).ask _ _ _

/-- What the board shows after ticks, if it showed something before. -/
def Course.status (q : Course σ) (board : Status) : Status := endOf Round.status board q.rounds

theorem Course.board_scene {o : Outside σ} {started fuel n : Nat} {schedule : Schedule} {events : List (Event σ)}
    {s : Scene σ} (ho : o.Aloof) (h : ∀ e ∈ events, e.SparesBoard) :
    (courseFrom o started fuel n schedule events s).scene.world.board =
      (courseFrom o started fuel n schedule events s).status s.world.board := by
  have hrounds := (map_forget_courseFrom o started fuel n schedule events s).1
  generalize hq : courseFrom o started fuel n schedule events s = q at hrounds ⊢
  have hafter (t : Round σ) (ht : t ∈ q.rounds) : t.after.world.board = t.status :=
    t.board_after (forall_mem_of_map_eq (fun _ _ => Event.SparesBoard.of_forget) (hrounds t ht) h)
  rw [← hq]
  refine scene_courseFrom_preserves (P := fun w => w.board = _) (fun d w hw => (ho.board _).trans hw) ?_
  rw [hq]
  unfold Course.status endOf
  match hlast : q.rounds.getLast? with
  | none => rfl
  | some t => exact hafter t (List.mem_of_getLast? hlast)

/-! ## The order -/

/-- What the closing of a run with events is like. -/
structure Closing.Orderly (c : Closing σ) (events : List (Event σ)) : Prop where
  /-- The event that is closed is the first of the role `destroy`. -/
  event : events[c.index]? = some c.event
  role : c.event.role = .destroy
  first : ∀ i < c.index, ∀ e, events[i]? = some e → e.role ≠ .destroy
  /-- The request to stop is withdrawn before its commands are run, and the machines are at work. -/
  resumed : c.opened.world.cancelled = false
  working : c.opened.world.visionExiting = false ∧ c.opened.world.robot.exiting = false
  /-- Afterwards the machines are cut short, and the run is asked to stop. -/
  inert : c.after.world.visionExiting = true ∧ c.after.world.robot.exiting = true
  cancelled : c.after.world.cancelled = true

/-- What the course of a run is like. -/
structure Course.Orderly (q : Course σ) (r : Run σ) (fuel : Nat) : Prop where
  /-- The ticks are numbered from one. -/
  numbered : ∀ (k : Nat) (t : Round σ), q.rounds[k]? = some t → t.moment = ⟨k + 1, startTime r⟩
  /-- Each tick has the events that the one before left. -/
  linked : Linked Round.events Round.left r.events q.rounds
  left : q.events = endOf Round.left r.events q.rounds
  /-- The turns of a tick are taken in the order of the events. -/
  in_order : ∀ t ∈ q.rounds, t.turns.Pairwise fun a b => a.index < b.index
  /-- A turn asks the event at its place, which is a regular one, and it does not break off. -/
  regular : ∀ t ∈ q.rounds, ∀ turn ∈ t.turns,
    t.events[turn.index]? = some turn.event ∧ turn.event.role ≠ .destroy ∧ turn.moment = t.moment ∧
      turn.breakdown = none
  /-- Every regular event has its turn in every tick, unless the run is asked to stop in an earlier one. -/
  complete : ∀ t ∈ q.rounds, ∀ k e, t.events[k]? = some e → e.role ≠ .destroy →
    (∃ turn ∈ t.turns, turn.index = k) ∨ ∃ turn ∈ t.turns, turn.index < k ∧ turn.after.world.cancelled = true
  /-- No event is asked and no command is run once the run is asked to stop. -/
  awake : ∀ t ∈ q.rounds, ∀ turn ∈ t.turns,
    turn.before.world.cancelled = false ∧ ∀ st ∈ turn.steps, st.before.world.cancelled = false
  /-- If the run is asked to stop in a turn, nothing comes after it. -/
  last : ∀ t ∈ q.rounds, ∀ turn ∈ t.turns, turn.after.world.cancelled = true →
    q.rounds.getLast? = some t ∧ t.turns.getLast? = some turn
  /-- If it is asked to stop by a command, that is the last one. -/
  last_step : ∀ t ∈ q.rounds, ∀ turn ∈ t.turns, ∀ st ∈ turn.steps, st.after.world.cancelled = true →
    turn.steps.getLast? = some st ∧ turn.after.world.cancelled = true
  /-- A run goes on as far as it is followed, unless it is asked to stop. -/
  followed : q.progress = .pending → q.rounds.length = fuel
  /-- A run does not break off. -/
  sound : ∀ b, q.progress ≠ .broken b
  /-- A run stops only if it is asked to, before its first tick or in the last turn. -/
  stopped : q.progress = .stopped →
    q.rounds = [] ∧ r.scene.world.cancelled = true ∨
      ∃ t turn, q.rounds.getLast? = some t ∧ t.turns.getLast? = some turn ∧ turn.after.world.cancelled = true

/-- **A run is orderly**, if the triggers of its regular events answer and those outside leave the request to stop
alone. -/
theorem orderly_course {o : Outside σ} (ho : ∀ w, (o.turn w).cancelled = w.cancelled) (fuel : Nat) {r : Run σ}
    (h : ∀ e ∈ r.events, e.role ≠ .destroy → e.Answers) : (course o fuel r).Orderly r fuel := by
  have hforget := (map_forget_courseFrom o (startTime r) fuel 0 (.start r.period (startTime r)) r.events (startScene r)).1
  obtain ⟨hlinked, hleft⟩ :=
    linked_courseFrom o (startTime r) fuel 0 (.start r.period (startTime r)) r.events (startScene r)
  have hanswers (t : Round σ) (ht : t ∈ (course o fuel r).rounds) (turn : Turn σ) (hturn : turn ∈ t.turns) :
      turn.breakdown = none := by
    obtain ⟨-, hget, hrole, -⟩ := of_mem_turnsFrom hturn
    have hevent := forall_mem_of_map_eq (P := fun e => e.role ≠ .destroy → e.Answers)
      (fun e e' he hP hr => (hP (e.role_eq_of_forget he ▸ hr)).of_forget he) (hforget t ht) h _ (List.mem_of_getElem? hget)
    obtain ⟨active, hactive⟩ := hevent hrole turn.moment turn.event.trigger.memory turn.before
    have hanswer : turn.answer = .ok active := hactive
    rw [Turn.breakdown, hanswer]
  refine
    { numbered := fun k t ht => by rw [moment_courseFrom ht, Nat.zero_add]
      linked := hlinked
      left := hleft
      in_order := fun t _ => pairwise_index ..
      regular := fun t ht turn hturn => ?regular
      complete := fun t ht k e hk he => ?complete
      awake := fun t ht turn hturn => ?awake
      last := fun t ht turn hturn hc => ?last
      last_step := fun t ht turn hturn st hst hc => ?last_step
      followed := length_of_pending
      sound := fun b hb => ?sound
      stopped := fun hstop => ?stopped }
  case regular =>
    obtain ⟨-, hget, hrole, hmoment, -⟩ := of_mem_turnsFrom hturn
    exact ⟨hget, hrole, hmoment, hanswers t ht turn hturn⟩
  case complete =>
    have hs : ¬(publish [] t.before).world.cancelled = true := ne_true_of_eq_false (not_cancelled_of_mem_courseFrom ht)
    rcases exists_turn_or_cancelled hk he with ⟨turn, hturn, hindex⟩ | hc | ⟨turn, hturn, hindex, hb | hc⟩
    · exact .inl ⟨turn, hturn, hindex.trans (Nat.zero_add k)⟩
    · exact absurd hc hs
    · rw [hanswers t ht turn hturn] at hb
      cases hb
    · exact .inr ⟨turn, hturn, Nat.zero_add k ▸ hindex, hc⟩
  case awake =>
    obtain ⟨-, -, -, -, hbefore⟩ := of_mem_turnsFrom hturn
    exact ⟨hbefore, fun st hst => turn.before_not_cancelled hst⟩
  case last =>
    obtain ⟨hlast, hafter⟩ := t.getLast_of_cancelled hturn hc
    exact ⟨Run.getLast_of_cancelled ht hafter, hlast⟩
  case last_step => exact turn.getLast_of_cancelled hst hc
  case sound =>
    obtain ⟨t, ht, hbreak⟩ := broken_iff.1 hb
    obtain ⟨turn, hturn, hturnb⟩ := List.exists_of_findSome?_eq_some hbreak
    rw [hanswers t ht turn hturn] at hturnb
    cases hturnb
  case stopped =>
    have hend : (endOf Round.after (startScene r) (course o fuel r).rounds).world.cancelled = true :=
      (scene_courseFrom_preserves (P := fun w => w.cancelled = _) (fun d w hw => (ho _).trans hw) rfl).symm.trans
        (cancelled_of_stopped hstop)
    unfold endOf at hend
    cases hlast : (course o fuel r).rounds.getLast? with
    | none =>
      rw [hlast] at hend
      exact .inl ⟨List.getLast?_eq_none_iff.1 hlast, hend⟩
    | some t =>
      rw [hlast] at hend
      have hbefore := not_cancelled_of_mem_courseFrom (List.mem_of_getLast? hlast)
      obtain ⟨turn, hturn, hc⟩ := t.getLast_turns_of_cancelled hbefore hend
      exact .inr ⟨t, turn, rfl, hturn, hc⟩

/-- The closing of a run is orderly. -/
theorem orderly_closing {started : Nat} {events : List (Event σ)} {s : Scene σ} {c : Closing σ}
    (h : closing? started events s = some c) : c.Orderly events := by
  obtain ⟨hget, hrole, hfirst, -⟩ := closing?_eq_some h
  exact
    { event := hget
      role := hrole
      first := hfirst
      resumed := rfl
      working := ⟨rfl, rfl⟩
      inert := ⟨rfl, rfl⟩
      cancelled := rfl }

/-! ## The result -/

/-- The result of a run, if the board showed something before.  It counts the ticks and tells whether a command of them
ended the program, and its status tells what ran in the last of them and in the closing. -/
def Course.result (q : Course σ) (started : Nat) (board : Status) : Ending σ × World σ :=
  match q.progress with
  | .pending => (.unfinished, q.scene.world)
  | .broken b => (.broken b, q.scene.world)
  | .stopped =>
    match q.closing? started with
    | none =>
      (.finished q.events ⟨q.rounds.length, q.status board, q.stoppedScene.sandbox.values, q.killed⟩,
        q.stoppedScene.world)
    | some c =>
      (.finished (q.events.set c.index c.left)
        ⟨q.rounds.length, Status.insert c.index c.executed (q.status board), c.ended.sandbox.values, q.killed⟩,
        c.after.world)

/-- **A run does what its course says, and its course is orderly**: for all events whose triggers answer and that, like
those outside, leave to the run its board and the request to stop. -/
theorem execute_create {o : Outside σ} (ho : o.Aloof) (fuel : Nat) (c : Config) {events : List (Event σ)} (w : World σ)
    (hanswers : ∀ e ∈ events, e.role ≠ .destroy → e.Answers) (hspares : ∀ e ∈ events, e.SparesBoard) :
    let r := create c events w
    let q := course o fuel r
    execute o fuel r = q.result (startTime r) w.board ∧ q.Orderly r fuel ∧
      ∀ closing, q.closing? (startTime r) = some closing → closing.Orderly q.events := by
  intro r q
  refine ⟨?_, orderly_course ho.cancelled fuel hanswers, fun closing h => orderly_closing h⟩
  have hboard : q.scene.world.board = q.status w.board := Course.board_scene ho hspares
  have hevents : ∀ e ∈ q.events, e.SparesBoard :=
    forall_mem_of_map_eq (fun _ _ => Event.SparesBoard.of_forget) (map_forget_courseFrom ..).2 hspares
  rw [execute_eq]
  show conclude r q = q.result (startTime r) w.board
  have hkilled : (r.killed || q.killed) = q.killed := Bool.false_or _
  unfold conclude Course.result
  rw [hkilled]
  match q.progress with
  | .pending => rfl
  | .broken b => rfl
  | .stopped =>
    dsimp only
    cases hclosing : q.closing? (startTime r) with
    | none =>
      have hstopped : q.stoppedScene.world.board = q.status w.board := hboard
      simp only [hstopped]
    | some closing =>
      obtain ⟨hget, -, -, -, hbefore⟩ := closing?_eq_some hclosing
      have hended : closing.ended.world.board = q.status w.board := by
        refine (board_stepsFrom (hevents _ (List.mem_of_getElem? hget)).run).trans ?_
        show closing.before.world.board = _
        rw [hbefore]
        exact hboard
      simp only [Closing.status, hended]
      rfl

/-- An event that ends the program in its first turn, and one that is closed. -/
def endingEvents : List (Event Unit) :=
  [⟨"StepEvent", [], ⟨.regular, 0, fun _ => return true⟩, [⟨"EndProgramCommand", [], .signal .plain .kill⟩]⟩,
    ⟨"DestroyEvent", [], ⟨.destroy, 0, fun _ => return false⟩, [⟨"EndBlockCommand", [], .signal .endBlock .proceed⟩]⟩]

/-- A run of such events fulfils the hypotheses of `execute_create`. -/
theorem execute_create_endingEvents :
    (Outside.nobody Unit).Aloof ∧ (∀ e ∈ endingEvents, e.role ≠ .destroy → e.Answers) ∧
      (∀ e ∈ endingEvents, e.SparesBoard) ∧
      let r := create Config.default endingEvents (World.initial ())
      let q := course (Outside.nobody Unit) 2 r
      execute (Outside.nobody Unit) 2 r = q.result (startTime r) [] ∧ q.Orderly r 2 ∧
        ∀ closing, q.closing? (startTime r) = some closing → closing.Orderly q.events := by
  have haloof : (Outside.nobody Unit).Aloof := ⟨fun _ => rfl, fun _ => rfl⟩
  have hanswers : ∀ e ∈ endingEvents, e.role ≠ .destroy → e.Answers := by
    intro e he _ m memory s
    simp only [endingEvents, List.mem_cons, List.not_mem_nil, or_false] at he
    rcases he with rfl | rfl
    · exact ⟨true, rfl⟩
    · exact ⟨false, rfl⟩
  have hspares : ∀ e ∈ endingEvents, e.SparesBoard := by
    intro e he
    simp only [endingEvents, List.mem_cons, List.not_mem_nil, or_false] at he
    rcases he with rfl | rfl
    all_goals
      refine ⟨fun _ _ _ => rfl, fun c hc _ _ _ => ?_⟩
      obtain rfl := List.mem_singleton.1 hc
      rfl
  exact ⟨haloof, hanswers, hspares, execute_create haloof 2 Config.default (World.initial ()) hanswers hspares⟩

end Run
end ArmPilot
