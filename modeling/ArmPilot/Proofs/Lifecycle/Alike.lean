import ArmPilot.Proofs.Lifecycle.Effects
import ArmPilot.Proofs.Worker.Tied

/-!
# Interpreters side by side

Two interpreters are alike if they hold the same in tied worlds.  What one of them can come to by calls, the other can
come to as well: the calls have the same replies, and the interpreters are still alike (`Station.Alike.history`).
-/

namespace ArmPilot

variable {σ α ι : Type} {o : Outside σ} {T : Tie o}

/-- Whether two runs are the same in tied worlds. -/
structure Run.Alike (T : Tie o) (r r' : Run σ) : Prop where
  events : r'.events = r.events
  tame : ∀ e ∈ r.events, e.Tame o
  scene : T.Scenes r.scene r'.scene
  period : r'.period = r.period
  killed : r'.killed = r.killed

theorem Run.Alike.working_eq {r r' : Run σ} (h : r.Alike T r') (fuel : Nat) : r'.working o fuel = r.working o fuel := by
  unfold Run.working Run.greeting
  rw [h.events, h.period, h.killed]

/-- Whether the events that a run hands back are tame. -/
def Ending.Tame (o : Outside σ) (e : Ending σ) : Prop := ∀ events summary, e = .finished events summary → ∀ e ∈ events, e.Tame o

theorem Run.gives_tame (fuel : Nat) (r : Run σ) (h : ∀ e ∈ r.events, e.Tame o) : (r.working o fuel).Gives (Ending.Tame o) :=
  (Run.working_gives o fuel r).mono fun _ hq e he events summary hfinished =>
    forall_mem_of_map_eq (fun _ _ => Event.Tame.of_forget) (hq e he events summary hfinished) h

/-- Whether two workers are the same in tied worlds. -/
inductive Worker.Alike (T : Tie o) : Worker σ → Worker σ → Prop
  | absent : Alike T .absent .absent
  | running {r r' : Run σ} : r.Alike T r' → Alike T (.running r) (.running r')
  | ended {events : List (Event σ)} (summary : Summary) : (∀ e ∈ events, e.Tame o) →
    Alike T (.ended events summary) (.ended events summary)
  | panicked : Alike T .panicked .panicked

theorem Worker.alike_atEnd {e : Ending σ} (h : e.Tame o) : Worker.Alike T (.atEnd e) (.atEnd e) := by
  cases e with
  | finished events summary => exact .ended summary (h events summary rfl)
  | broken | unfinished => exact .panicked

/-! ## What is done with an interpreter -/

/-- Whether two interpreters are the same in tied worlds. -/
structure Interpreter.Alike (T : Tie o) (i i' : Interpreter σ) : Prop where
  config : i'.config = i.config
  registry : i'.registry = i.registry
  kinds : i.registry.Tame o
  events : i'.events = i.events
  tame : ∀ e ∈ i.events, e.Tame o
  worker : i.worker.Alike T i'.worker
  last : i'.last = i.last
  world : T.holds i.world i'.world

namespace Interpreter

variable {i i' : Interpreter σ}

theorem Alike.complaining (h : i.Alike T i') (text : String) : (i.complaining text).Alike T (i'.complaining text) :=
  { h with world := T.note h.world _ _ _ }

theorem Alike.withWorker (h : i.Alike T i') {v v' : Worker σ} (hv : v.Alike T v') :
    Interpreter.Alike T { i with worker := v } { i' with worker := v' } :=
  { h with worker := hv }

theorem Alike.withWorld (h : i.Alike T i') {w w' : World σ} (hw : T.holds w w') :
    Interpreter.Alike T { i with world := w } { i' with world := w' } :=
  { h with world := hw }

/-- What cannot be done during a run does the same, if what comes then does. -/
theorem Alike.entering (h : i.Alike T i') (text : String) {next : Interpreter σ → Except LifecycleError α × Interpreter σ}
    {Q : Except LifecycleError α → Except LifecycleError α → Prop} (herror : ∀ e, Q (.error e) (.error e))
    (hnext : ∀ {j j'}, j.Alike T j' → Q (next j).1 (next j').1 ∧ (next j).2.Alike T (next j').2) :
    Q (i.entering text next).1 (i'.entering text next).1 ∧
      (i.entering text next).2.Alike T (i'.entering text next).2 := by
  obtain ⟨c, reg, events, worker, last, w⟩ := i
  obtain ⟨c', reg', events', worker', last', w'⟩ := i'
  have hworker : worker.Alike T worker' := h.worker
  cases hworker with
  | absent => exact hnext (h.withWorker .absent)
  | running => exact ⟨herror _, h.complaining text⟩
  | panicked => exact ⟨herror _, (h.complaining brokenDown).withWorker .absent⟩
  | ended summary htame =>
    exact hnext { h with events := rfl, tame := htame, worker := .absent, last := rfl, world := T.setExiting h.world false }

theorem Alike.loaded (h : i.Alike T i') (s : Script) : (i.loaded s).Alike T (i'.loaded s) := by
  obtain ⟨c, reg, events, worker, last, w⟩ := i
  obtain ⟨c', reg', events', worker', last', w'⟩ := i'
  obtain rfl : reg' = reg := h.registry
  exact { h with
    events := rfl
    tame := fun e he => h.kinds.events he
    world := T.change h.world id fun _ => (ArmPilot.load reg' s).records.reverse }

theorem Alike.load (h : i.Alike T i') (s : Script) :
    ((load s).run.run i').1 = ((load s).run.run i).1 ∧ ((load s).run.run i).2.Alike T ((load s).run.run i').2 := by
  rw [run_load, run_load]
  refine h.entering loadRefused (Q := fun x y => y = x) (fun _ => rfl) fun {j j'} hj => ⟨?_, hj.loaded s⟩
  rw [hj.registry]

/-- Whether the result of making a run ready is the same in tied worlds. -/
inductive Readies (T : Tie o) : Except LifecycleError (Run σ) → Except LifecycleError (Run σ) → Prop
  | ok {r r' : Run σ} : r.Alike T r' → Readies T (.ok r) (.ok r')
  | error (e : LifecycleError) : Readies T (.error e) (.error e)

theorem startSteps_tied (hT : T.Boards) (c : Config) {w w' : World σ} (h : T.holds w w') :
    T.holds ((startSteps c).foldl (fun w step => step w) w) ((startSteps c).foldl (fun w step => step w) w') :=
  T.reset (hT.written (T.setSpeed (T.setServos (T.setExiting h false) true) c.defaultSpeed) [])

theorem Alike.readied (hT : T.Boards) (h : i.Alike T i') : i.readied.Alike T i'.readied := by
  refine { h with events := rfl, tame := by simp [Interpreter.readied], last := rfl, world := ?_ }
  unfold Interpreter.readied
  rw [h.config]
  exact startSteps_tied hT i.config h.world

theorem alike_create {c : Config} {events : List (Event σ)} (htame : ∀ e ∈ events, e.Tame o) {w w' : World σ}
    (h : T.holds w w') : (Run.create c events w).Alike T (Run.create c events w') where
  events := rfl
  tame := htame
  scene := ⟨congrArg (Sandbox.create c) (congrArg World.settings (T.machines h) :), h⟩
  period := rfl
  killed := rfl

theorem Alike.next (hT : T.Boards) (h : i.Alike T i') :
    (Run.create i.config i.events i.readied.world).Alike T (Run.create i'.config i'.events i'.readied.world) := by
  rw [h.config, h.events]
  exact alike_create h.tame (h.readied hT).world

theorem Alike.prepare (hT : T.Boards) (h : i.Alike T i') :
    Readies T (prepare.run.run i).1 (prepare.run.run i').1 ∧ (prepare.run.run i).2.Alike T (prepare.run.run i').2 := by
  rw [run_prepare, run_prepare]
  exact h.entering startRefused .error fun hj => ⟨.ok (hj.next hT), hj.readied hT⟩

theorem Alike.hire (h : i.Alike T i') {r r' : Run σ} (hr : r.Alike T r') :
    ((hire r').run.run i').1 = ((hire r).run.run i).1 ∧ ((hire r).run.run i).2.Alike T ((hire r').run.run i').2 := by
  have hroom : hasRoom i'.config = hasRoom i.config := congrArg hasRoom h.config
  rw [run_hire, run_hire, hroom]
  split
  · exact ⟨rfl, h.withWorker (.running hr)⟩
  · exact ⟨rfl, { h.complaining roomless with events := hr.events, tame := hr.tame }⟩

theorem Alike.start (hT : T.Boards) (h : i.Alike T i') :
    (start.run.run i').1 = (start.run.run i).1 ∧ (start.run.run i).2.Alike T (start.run.run i').2 := by
  rw [run_start, run_start]
  exact h.entering startRefused (Q := fun x y => y = x) (fun _ => rfl) fun hj => (hj.readied hT).hire (hj.next hT)

theorem Alike.handBack (h : i.Alike T i') {e : Ending σ} (he : e.Tame o) :
    ((handBack e).run.run i').1 = ((handBack e).run.run i).1 ∧
      ((handBack e).run.run i).2.Alike T ((handBack e).run.run i').2 := by
  cases e with
  | finished events summary =>
    exact ⟨rfl, { h with
      events := rfl
      tame := he events summary rfl
      last := rfl
      world := T.setExiting h.world false }⟩
  | broken | unfinished => exact ⟨rfl, h⟩

theorem Alike.stopped (hT : T.Boards) (h : i.Alike T i') (requested : Nat) (e : Ending σ) :
    (i'.stopped requested e).1 = (i.stopped requested e).1 ∧
      (i.stopped requested e).2.Alike T (i'.stopped requested e).2 := by
  have hleft {w w' : World σ} (hw : T.holds w w') :
      T.holds (w.setExiting false).clearBoard (w'.setExiting false).clearBoard := hT.written (T.setExiting hw false) []
  cases e with
  | finished events summary =>
    refine ⟨rfl, { h with events := rfl, tame := by simp [Interpreter.stopped], worker := .absent, last := rfl, world := ?_ }⟩
    have hclock : (i'.world.setExiting false).clearBoard.clock = (i.world.setExiting false).clearBoard.clock :=
      T.clock (hleft h.world)
    unfold Interpreter.stopped
    dsimp only
    rw [hclock]
    exact T.note (hleft h.world) _ _ _
  | broken | unfinished =>
    exact ⟨rfl, { h with
      events := rfl
      tame := by simp [Interpreter.stopped]
      worker := .absent
      world := hleft (h.complaining brokenDown).world }⟩

end Interpreter

/-! ## Stations -/

/-- Whether a thread takes the same steps in tied worlds. -/
def Thread.Tied (T : Tie o) : Thread σ → Prop
  | .working rest _ => rest.Tied T
  | .leaving _ | .gone _ => True

/-- Whether two workers that are held are the same in tied worlds. -/
structure Held.Alike (T : Tie o) (d d' : Held σ) : Prop where
  run : d.run.Alike T d'.run
  thread : d'.thread = d.thread
  noticed : d'.noticed = d.noticed
  tied : d.thread.Tied T
  promises : d.thread.Promises (Ending.Tame o)

/-- Whether two interpreters with their threads are the same in tied worlds, but for the threads that they have let go
of. -/
structure Station.Alike (T : Tie o) (k k' : Station σ) : Prop where
  desk : k.desk.Alike T k'.desk
  held : Option.Rel (Held.Alike T) k.held k'.held

/-- Whether calls have come to the same, and the runs that were begun are the same in tied worlds. -/
structure Outcome.Alike (T : Tie o) (r r' : Outcome σ) : Prop where
  reply : r'.reply = r.reply
  run : Option.Rel (Run.Alike T) r.run r'.run
  collected : r'.collected = r.collected

namespace Held

variable {d d' : Held σ}

theorem Alike.ending?_eq (h : d.Alike T d') : d'.ending? = d.ending? := by
  unfold ending?
  rw [h.thread, h.noticed]

theorem Alike.told_eq (h : d.Alike T d') : d'.told = d.told := by
  unfold told
  rw [h.thread, h.noticed]

theorem Alike.tame (h : d.Alike T d') {e : Ending σ} (he : d.thread.end? = some e) : e.Tame o := by
  have hpromises := h.promises
  cases hd : d.thread with
  | working =>
    rw [hd] at he
    cases he
  | leaving | gone =>
    rw [hd] at he hpromises
    obtain rfl := Option.some.inj he
    exact hpromises

theorem Alike.seen (h : d.Alike T d') : d.seen.Alike T d'.seen := by
  unfold Held.seen
  rw [h.ending?_eq]
  cases he : d.ending? with
  | none => exact .running h.run
  | some e => exact Worker.alike_atEnd (h.tame (end?_of_ending? he))

end Held

namespace Station

variable {act : ι → World σ → World σ} {k k' k₁ : Station σ}

theorem Alike.seen (h : k.Alike T k') : k.seen.Alike T k'.seen := by
  obtain ⟨i, held, past⟩ := k
  obtain ⟨i', held', past'⟩ := k'
  have hheld : Option.Rel (Held.Alike T) held held' := h.held
  cases hheld with
  | none => exact h.desk.withWorker .absent
  | some hd => exact h.desk.withWorker hd.seen

theorem isRunning_eq {i i' : Interpreter σ} (h : i.Alike T i') : i'.isRunning = i.isRunning := by
  obtain ⟨c, reg, events, worker, last, w⟩ := i
  obtain ⟨c', reg', events', worker', last', w'⟩ := i'
  have hworker : worker.Alike T worker' := h.worker
  cases hworker <;> rfl

theorem Alike.status_eq (hT : T.Boards) (h : k.Alike T k') : k'.seen.status = k.seen.status := by
  unfold Interpreter.status
  rw [isRunning_eq h.seen, hT.shown h.seen.world]

theorem Alike.ended_eq (h : k.Alike T k') : k'.ended = k.ended := by
  obtain ⟨i, held, past⟩ := k
  obtain ⟨i', held', past'⟩ := k'
  have hheld : Option.Rel (Held.Alike T) held held' := h.held
  cases hheld with
  | none => rfl
  | @some d d' hd =>
    obtain ⟨r, thread, noticed⟩ := d
    obtain ⟨r', thread', noticed'⟩ := d'
    obtain rfl : thread' = thread := hd.thread
    cases thread' <;> rfl

theorem Alike.onWorld (h : k.Alike T k') {f : World σ → World σ} (hf : ∀ w w', T.holds w w' → T.holds (f w) (f w')) :
    (k.onWorld f).Alike T (k'.onWorld f) :=
  ⟨{ h.desk with world := hf _ _ h.desk.world }, h.held⟩

theorem Alike.step (h : k.Alike T k') : k.step.Alike T k'.step := by
  obtain ⟨i, held, past⟩ := k
  obtain ⟨i', held', past'⟩ := k'
  have hheld : Option.Rel (Held.Alike T) held held' := h.held
  cases hheld with
  | none => exact h
  | @some d d' hd =>
    obtain ⟨r, thread, noticed⟩ := d
    obtain ⟨r', thread', noticed'⟩ := d'
    obtain rfl : thread' = thread := hd.thread
    obtain rfl : noticed' = noticed := hd.noticed
    have hpromises := (thread'.leads_step i.world).promises _ hd.promises
    rcases thread' with ⟨_ | ⟨deed, act, next⟩, b⟩ | e | e
    · exact ⟨h.desk, .some ⟨hd.run, rfl, rfl, trivial, hpromises⟩⟩
    · obtain ⟨hleft, hnext, htied⟩ := hd.tied ⟨b, i.world⟩ ⟨b, i'.world⟩ ⟨rfl, h.desk.world⟩
      refine ⟨{ h.desk with world := hleft.2 }, .some ⟨hd.run, ?_, rfl, htied, hpromises⟩⟩
      show Thread.working (next ⟨b, i'.world⟩) (act ⟨b, i'.world⟩).sandbox = _
      rw [hnext, hleft.1]
      rfl
    · exact ⟨h.desk, .some ⟨hd.run, rfl, rfl, trivial, hpromises⟩⟩
    · exact ⟨h.desk, .some ⟨hd.run, rfl, rfl, trivial, hpromises⟩⟩

section

variable (hact : ∀ i w w', T.holds w w' → T.holds (act i w) (act i w'))

include hact

theorem Alike.move (h : k.Alike T k') (m : Move ι) : (k.move act m).Alike T (k'.move act m) := by
  cases m with
  | work => exact h.step
  | other i => exact h.onWorld (hact i)

theorem Alike.play (h : k.Alike T k') (ms : List (Move ι)) : (k.play act ms).Alike T (k'.play act ms) := by
  induction ms generalizing k k' with
  | nil => exact h
  | cons m ms ih => exact ih (h.move hact m)

theorem Alike.requests (h : k.Alike T k') (hrequests : k.Requests act k₁) : ∃ k₁', k'.Requests act k₁' ∧ k₁.Alike T k₁' := by
  obtain ⟨ms, rfl⟩ := hrequests
  refine ⟨_, ⟨ms, rfl⟩, Alike.onWorld (Alike.play hact (h.onWorld ?_) ms) ?_⟩
  · exact fun _ _ hw => T.setExiting hw true
  · exact fun _ _ hw => T.cancel hw

end

theorem Alike.held_none (h : k.Alike T k') (hnone : k.held = none) : k'.held = none := by
  have hheld := h.held
  rw [hnone] at hheld
  generalize k'.held = held' at hheld ⊢
  cases hheld
  rfl

theorem Alike.held_some (h : k.Alike T k') {d : Held σ} (hd : k.held = some d) : ∃ d', k'.held = some d' ∧ d.Alike T d' := by
  have hheld := h.held
  rw [hd] at hheld
  generalize k'.held = held' at hheld ⊢
  cases hheld with
  | some h => exact ⟨_, rfl, h⟩

theorem Alike.finished_iff (h : k.Alike T k') : k'.Finished ↔ k.Finished := by
  cases hd : k.held with
  | none => simp [Finished, hd, h.held_none hd]
  | some d =>
    obtain ⟨d', hd', halike⟩ := h.held_some hd
    simp [Finished, hd, hd', halike.ending?_eq]

theorem Alike.left (h : k.Alike T k') (hleft : k.Left) : k'.Left := by
  obtain ⟨d, hd, hgone⟩ := hleft
  obtain ⟨d', hd', halike⟩ := h.held_some hd
  exact ⟨d', hd', halike.thread ▸ hgone⟩

theorem Alike.joins (hact : ∀ i w w', T.holds w w' → T.holds (act i w) (act i w')) (h : k.Alike T k')
    (hjoin : k.Joins act k₁) : ∃ k₁', k'.Joins act k₁' ∧ k₁.Alike T k₁' := by
  cases hjoin with
  | now hnot => exact ⟨k', .now (mt h.finished_iff.1 hnot), h⟩
  | left ms hfinished hleft =>
    have hplay := h.play hact ms
    exact ⟨_, .left ms (h.finished_iff.2 hfinished) (hplay.left hleft), hplay⟩

/-- A thread that is about to begin a run. -/
theorem alike_ofRun (hT : T.Boards) (fuel : Nat) {r r' : Run σ} (h : r.Alike T r') :
    Held.Alike T ⟨r, .ofRun o fuel r, false⟩ ⟨r', .ofRun o fuel r', false⟩ where
  run := h
  thread := by
    unfold Thread.ofRun
    rw [h.working_eq, h.scene.1]
  noticed := rfl
  tied := Run.working_tied hT fuel r h.tame
  promises := Run.gives_tame fuel r h.tame

/-- The world of a station that has been settled is the one of its interpreter, so that it does not matter which it was
before. -/
theorem settle_alike (hT : T.Boards) (fuel : Nat) (hworker : k.desk.worker.Alike T k'.desk.worker)
    (hheld : Option.Rel (Held.Alike T) k.held k'.held) (hrunning : k'.seen.isRunning = k.seen.isRunning)
    {i i' : Interpreter σ} (h : i.Alike T i') : (k.settle o fuel i).Alike T (k'.settle o fuel i') := by
  obtain ⟨c, reg, events, worker, last, w⟩ := i
  obtain ⟨c', reg', events', worker', last', w'⟩ := i'
  have hi : worker.Alike T worker' := h.worker
  have hdesk := h.withWorker hworker
  unfold settle
  rw [hrunning]
  cases hi with
  | absent | ended | panicked => exact ⟨hdesk, .none⟩
  | running hr =>
    dsimp only
    split
    · exact ⟨hdesk, hheld⟩
    · exact ⟨hdesk, .some (alike_ofRun hT fuel hr)⟩

theorem handed_alike (hrunning : k'.seen.isRunning = k.seen.isRunning) {i i' : Interpreter σ} (h : i.Alike T i') :
    Option.Rel (Run.Alike T) (k.handed i) (k'.handed i') := by
  obtain ⟨c, reg, events, worker, last, w⟩ := i
  obtain ⟨c', reg', events', worker', last', w'⟩ := i'
  have hi : worker.Alike T worker' := h.worker
  unfold handed
  rw [hrunning]
  cases hi with
  | absent | ended | panicked => exact .none
  | running hr =>
    dsimp only
    split
    · exact .none
    · exact .some hr

theorem Alike.settle (hT : T.Boards) (fuel : Nat) (h : k.Alike T k') {i i' : Interpreter σ} (hi : i.Alike T i') :
    (k.settle o fuel i).Alike T (k'.settle o fuel i') :=
  settle_alike hT fuel h.desk.worker h.held (isRunning_eq h.seen) hi

/-- A run that is made here. -/
theorem exists_returns_here (hT : T.Boards) (hact : ∀ i w w', T.holds w w' → T.holds (act i w) (act i w')) {fuel : Nat}
    {r r' : Run σ} (hr : r.Alike T r') {ms : List (Move ι)} {e : Ending σ} {s : Scene σ}
    (hplay : (r.worker o fuel).play act ms = ⟨.done e, s⟩) :
    e.Tame o ∧ ∃ s', (r'.worker o fuel).play act ms = ⟨.done e, s'⟩ ∧ T.holds s.world s'.world := by
  have hgives : (r.worker o fuel).rest.Gives (Ending.Tame o) := Run.gives_tame fuel r hr.tame
  refine ⟨hgives.play hplay, ?_⟩
  obtain ⟨hrest, hscene⟩ := (Run.working_tied hT fuel r hr.tame).play hact hr.scene ms
  have hworker : r'.worker o fuel = ⟨r.working o fuel, r'.scene⟩ := congrArg (Activity.mk · r'.scene) (hr.working_eq fuel)
  rw [← hworker] at hrest hscene
  have hplay' : Activity.play act ⟨r.working o fuel, r.scene⟩ ms = ⟨.done e, s⟩ := hplay
  rw [hplay'] at hrest hscene
  exact ⟨_, congrArg (Activity.mk · ((r'.worker o fuel).play act ms).scene) hrest, hscene.2⟩

/-- **What a call of one interpreter comes to, it comes to with one that is alike.** -/
theorem Alike.returns (hT : T.Boards) (hact : ∀ i w w', T.holds w w' → T.holds (act i w) (act i w')) {fuel : Nat}
    {c : Call} {r : Outcome σ} (h : k.Alike T k') (hreturns : Returns act o fuel k c r k₁) :
    ∃ r' k₁', Returns act o fuel k' c r' k₁' ∧ r.Alike T r' ∧ k₁.Alike T k₁' := by
  cases hreturns with
  | load s hjoin hrun =>
    obtain ⟨k₂, hjoin', h₂⟩ := h.joins hact hjoin
    obtain ⟨hresult, hleft⟩ := h₂.seen.load s
    rcases hrun' : (Interpreter.load s).run.run k₂.seen with ⟨r', i'⟩
    rw [hrun, hrun'] at hresult hleft
    exact ⟨_, _, .load s hjoin' hrun', ⟨congrArg (Session.Reply.of _) hresult, .none, h₂.ended_eq⟩, h₂.settle hT fuel hleft⟩
  | start hjoin hrun =>
    obtain ⟨k₂, hjoin', h₂⟩ := h.joins hact hjoin
    obtain ⟨hresult, hleft⟩ := h₂.seen.start hT
    rcases hrun' : Interpreter.start.run.run k₂.seen with ⟨r', i'⟩
    rw [hrun, hrun'] at hresult hleft
    exact ⟨_, _, .start hjoin' hrun', ⟨congrArg (Session.Reply.of _) hresult, handed_alike (isRunning_eq h₂.seen) hleft,
      h₂.ended_eq⟩, h₂.settle hT fuel hleft⟩
  | notBegun hjoin hrun =>
    obtain ⟨k₂, hjoin', h₂⟩ := h.joins hact hjoin
    obtain ⟨hresult, hleft⟩ := h₂.seen.prepare hT
    rcases hrun' : Interpreter.prepare.run.run k₂.seen with ⟨result, i'⟩
    rw [hrun, hrun'] at hresult hleft
    cases hresult
    exact ⟨_, _, .notBegun hjoin' hrun', ⟨rfl, .none, h₂.ended_eq⟩, h₂.settle hT fuel hleft⟩
  | here ms hjoin hrun hplay hback =>
    obtain ⟨k₂, hjoin', h₂⟩ := h.joins hact hjoin
    obtain ⟨hresult, hleft⟩ := h₂.seen.prepare hT
    rcases hrun' : Interpreter.prepare.run.run k₂.seen with ⟨result, i'⟩
    rw [hrun, hrun'] at hresult hleft
    cases hresult with
    | ok hr =>
      obtain ⟨htame, s', hplay', hworld⟩ := exists_returns_here hT hact hr hplay
      obtain ⟨hresult, hleft'⟩ := (hleft.withWorld hworld).handBack htame
      rw [hback] at hresult hleft'
      generalize hback' : (Interpreter.handBack _).run.run _ = back at hresult hleft'
      obtain ⟨answer', j'⟩ := back
      obtain rfl : answer' = .ok _ := hresult
      refine ⟨_, _, .here ms hjoin' hrun' hplay' hback', ⟨rfl, .some hr, ?_⟩, h₂.settle hT fuel hleft'⟩
      exact congrArg (· ++ _) h₂.ended_eq
  | notStopped hnone hrun =>
    have hnone' := h.held_none hnone
    rw [seen_of_none hnone] at hrun
    obtain ⟨rfl, rfl⟩ := Prod.mk.inj hrun
    have hrun' : (Interpreter.stop o fuel).run.run k'.seen = (.error .notRunning, { k'.desk with worker := .absent }) := by
      rw [seen_of_none hnone']
      rfl
    exact ⟨_, _, .notStopped hnone' hrun', ⟨rfl, .none, rfl⟩, h.settle hT fuel (h.desk.withWorker .absent)⟩
  | @stop k₂ ms r i hsome hrequests hleft hrun =>
    obtain ⟨k₂', hrequests', h₂⟩ := h.requests hact hrequests
    have hplay := h₂.play hact ms
    obtain ⟨d, hd⟩ := Option.ne_none_iff_exists'.1 hsome
    obtain ⟨d', hd', -⟩ := h.held_some hd
    obtain ⟨e, hgone, -⟩ := (hrequests.leads.trans (leads_play act k₂ ms)).held_gone hd hleft
    obtain ⟨⟨run, thread, noticed⟩, hgone', halike⟩ := hplay.held_some hgone
    obtain rfl : thread = .gone e := halike.thread
    have hclock : k₂'.world.clock = k₂.world.clock := T.clock h₂.desk.world
    obtain ⟨hresult, hleft'⟩ := hplay.desk.stopped hT k₂.world.clock e
    rw [seen_of_gone hgone, Interpreter.run_finishStop] at hrun
    obtain rfl := congrArg Prod.fst hrun
    obtain rfl := congrArg Prod.snd hrun
    rw [settle_absent (Interpreter.worker_stopped ..), ended_of_gone hgone]
    rw [← hclock] at hresult hleft' ⊢
    refine ⟨_, _, returns_stop ms (by simp [hd']) hrequests' rfl hgone', ⟨?_, .none, rfl⟩, ?_, .none⟩
    · exact congrArg (Session.Reply.of Session.Reply.summary) hresult
    · exact hleft'.withWorker hplay.desk.worker
  | idle forever hnone => exact ⟨_, _, .idle forever (h.held_none hnone), ⟨rfl, .none, rfl⟩, h⟩
  | wait forever ms hd htold =>
    have hplay := h.play hact ms
    obtain ⟨d', hd', halike⟩ := hplay.held_some hd
    refine ⟨_, _, .wait forever ms hd' fun hf => halike.told_eq ▸ htold hf, ⟨?_, .none, rfl⟩, hplay.desk, .some ?_⟩
    · exact congrArg Session.Reply.ended halike.told_eq
    · exact { halike with noticed := halike.told_eq }
  | requestStop hrequests =>
    obtain ⟨k₂, hrequests', h₂⟩ := h.requests hact hrequests
    exact ⟨_, _, .requestStop hrequests', ⟨rfl, .none, rfl⟩, h₂⟩
  | cancel => exact ⟨_, _, .cancel, ⟨rfl, .none, rfl⟩, h.onWorld fun _ _ hw => T.cancel hw⟩
  | status => exact ⟨_, _, .status, ⟨congrArg Session.Reply.status (h.status_eq hT), .none, rfl⟩, h⟩

/-- **What one interpreter comes to, one that is alike can come to**: by the same calls, with the same replies and the same
ends of runs. -/
theorem Alike.history (hT : T.Boards) (hact : ∀ i w w', T.holds w w' → T.holds (act i w) (act i w')) {fuel : Nat}
    {past : List (Call × Outcome σ)} (h : k.Alike T k') (hhistory : History act o fuel k past k₁) :
    ∃ past' k₁', History act o fuel k' past' k₁' ∧
      List.Forall₂ (fun p p' => p'.1 = p.1 ∧ p.2.Alike T p'.2) past past' ∧ k₁.Alike T k₁' := by
  induction hhistory with
  | start => exact ⟨[], k', .start, .nil, h⟩
  | move m _ ih =>
    obtain ⟨past', k₁', hhistory', hpast, halike⟩ := ih
    exact ⟨past', _, hhistory'.move m, hpast, halike.move hact m⟩
  | @call past k k₁ c r _ hreturns ih =>
    obtain ⟨past', k₁', hhistory', hpast, halike⟩ := ih
    obtain ⟨r', k₂', hreturns', hr, halike'⟩ := halike.returns hT hact hreturns
    refine ⟨past' ++ [(c, r')], k₂', hhistory'.call hreturns', ?_, halike'⟩
    exact List.rel_append hpast (.cons ⟨rfl, hr⟩ .nil)

end Station
end ArmPilot
