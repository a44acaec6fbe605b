import ArmPilot.Proofs.Lifecycle.Thread
import ArmPilot.Proofs.Memory.Restart
import ArmPilot.Proofs.Worker.Requests

/-!
# Calls

The calls of an interpreter are those of its user: scripts are loaded, started, waited for and stopped, while workers
follow their runs in threads.  A call does what the interpreter does with its worker as it takes it.  It waits for a
thread to leave where it needs what the thread hands over, and others may act meanwhile (`Station.Returns`).
-/

namespace ArmPilot

variable {σ ι : Type}

/-- Whether a run has come to its end without a breakdown. -/
def Ending.isFinished : Ending σ → Bool
  | .finished _ _ => true
  | .broken _ | .unfinished => false

/-- The reply to a control by its result. -/
def Session.Reply.of {α : Type} (f : α → Session.Reply) : Except LifecycleError α → Session.Reply
  | .ok a => f a
  | .error e => .failed e

namespace Interpreter

variable {i : Interpreter σ}

/-- An interpreter that has told of an error. -/
def complaining (text : String) (i : Interpreter σ) : Interpreter σ :=
  { i with world := i.world.note .error Run.target text }

/-- What is told when a worker turns out to have broken down. -/
def brokenDown : String := "Script thread panicked"

/-- An interpreter that has collected a worker without a breakdown, if there was one. -/
def freed (i : Interpreter σ) : Interpreter σ :=
  match i.worker with
  | .ended events summary =>
    { i with worker := .absent, events := events, last := some summary, world := i.world.setExiting false }
  | _ => { i with worker := .absent }

/-- What a call comes to that cannot be made during a run and needs the events of the run before. -/
def entering {α : Type} (text : String) (next : Interpreter σ → Except LifecycleError α × Interpreter σ)
    (i : Interpreter σ) : Except LifecycleError α × Interpreter σ :=
  match i.worker with
  | .running _ => (.error .alreadyRunning, i.complaining text)
  | .panicked => (.error .workerPanicked, { i.complaining brokenDown with worker := .absent })
  | .absent | .ended _ _ => next i.freed

/-- An interpreter with the events of a script. -/
def loaded (s : Script) (i : Interpreter σ) : Interpreter σ :=
  let l := ArmPilot.load i.registry s
  { i with events := l.events, world := { i.world with records := l.records.reverse ++ i.world.records } }

theorem run_load (s : Script) (i : Interpreter σ) :
    (load s).run.run i = i.entering loadRefused fun i => (.ok (ArmPilot.load i.registry s).report, i.loaded s) := by
  obtain ⟨c, reg, events, worker, last, w⟩ := i
  cases worker <;> rfl

/-- An interpreter that is ready for a run, which takes its events. -/
def readied (i : Interpreter σ) : Interpreter σ :=
  { i with events := [], last := none, world := (startSteps i.config).foldl (fun w step => step w) i.world }

theorem run_prepare (i : Interpreter σ) :
    prepare.run.run i =
      i.entering startRefused fun i => (.ok (Run.create i.config i.events i.readied.world), i.readied) := by
  obtain ⟨c, reg, events, worker, last, w⟩ := i
  cases worker <;> rfl

/-- What is told when there is no room for a worker. -/
def roomless : String := "Could not start script thread: " ++ spawnReason

/-- Gives a run to a worker; without room for it the events are kept. -/
def hire (r : Run σ) : Control σ Unit := do
  if hasRoom (← get).config then modify fun i => { i with worker := .running r }
  else
    modify fun i => { i with events := r.events }
    note .error roomless
    throw .spawn

theorem run_hire (r : Run σ) (i : Interpreter σ) :
    (hire r).run.run i =
      if hasRoom i.config then (.ok (), { i with worker := .running r })
      else (.error .spawn, { i.complaining roomless with events := r.events }) := by
  change (if hasRoom i.config then modify fun i => { i with worker := .running r }
    else do
      modify fun i => { i with events := r.events }
      note .error roomless
      throw .spawn : Control σ Unit).run.run i = _
  split <;> rfl

theorem run_start (i : Interpreter σ) :
    start.run.run i = i.entering startRefused fun i =>
      (hire (Run.create i.config i.events i.readied.world)).run.run i.readied := by
  obtain ⟨c, reg, events, worker, last, w⟩ := i
  cases worker <;> rfl

/-- What is done when a run has come to its end here. -/
def handBack : Ending σ → Control σ (Except Breakdown Unit)
  | .finished events summary => do
    onWorld (·.setExiting false)
    modify fun i => { i with events := events, last := some summary }
    return .ok ()
  | .broken b => return .error b
  | .unfinished => return .error (.told "run not followed to its end")

/-- An operation does not go on from where an earlier one has failed. -/
theorem run_bind_error {α β : Type} {j : Interpreter σ} {x : Control σ α} {f : α → Control σ β} {e : LifecycleError}
    (h : x.run.run i = (.error e, j)) : (x >>= f).run.run i = (.error e, j) := by
  rw [Failing.run_bind, h]

/-- A run here is made ready, followed and handed back. -/
theorem runHere_eq (o : Outside σ) (fuel : Nat) :
    runHere o fuel = (do
      let r ← prepare
      modify fun i => { i with world := (r.execute o fuel).2 }
      handBack (r.execute o fuel).1) := rfl

/-- An interpreter at the end of a stop of a worker that has come to an end. -/
def stopped (requested : Nat) (e : Ending σ) (i : Interpreter σ) : Except LifecycleError Summary × Interpreter σ :=
  match e with
  | .finished _ summary =>
    let w := (i.world.setExiting false).clearBoard
    (.ok summary,
      { i with
        worker := .absent
        events := []
        last := some summary
        world := w.note .info Run.target
          ("Script stopped after " ++ toString summary.ticks ++ " tick(s) in " ++ durationText (w.clock - requested)) })
  | .broken _ | .unfinished =>
    (.error .workerPanicked,
      { i with
        worker := .absent
        events := []
        world := ((i.complaining brokenDown).world.setExiting false).clearBoard })

theorem worker_stopped (requested : Nat) (e : Ending σ) (i : Interpreter σ) :
    (i.stopped requested e).2.worker = .absent := by
  cases e <;> rfl

theorem run_finishStop (requested : Nat) (e : Ending σ) (i : Interpreter σ) :
    (finishStop requested).run.run { i with worker := .atEnd e } = i.stopped requested e := by
  cases e <;> rfl

end Interpreter

/-- A call of an interpreter. -/
inductive Call where
  | load (s : Script)
  /-- It starts a run by a worker, or makes one here. -/
  | start (threaded : Bool)
  | stop
  /-- It waits for the end of a run, without a limit or for at most some time. -/
  | wait (forever : Bool)
  | requestStop
  | cancel
  | status

/-- What a call comes to. -/
structure Outcome (σ : Type) where
  reply : Session.Reply
  /-- The run that was handed over to a worker, or begun here. -/
  run : Option (Run σ)
  /-- The ends of the runs that were collected, the earliest first. -/
  collected : List (Ending σ)

namespace Station

/-- Whether a worker that has come to an end is held, which may be about to leave. -/
def Finished (k : Station σ) : Prop := ∃ d ∈ k.held, ∃ e, d.ending? = some e

/-- The end of the run of the thread that is held, if it has left. -/
def ended (k : Station σ) : List (Ending σ) :=
  match k.held with
  | some ⟨_, .gone e, _⟩ => [e]
  | _ => []

section

variable (act : ι → World σ → World σ) (o : Outside σ) (fuel : Nat)

/-- The way to the point at which a call may take what the thread that is held hands over: the thread of a worker that
has come to an end is waited for. -/
inductive Joins : Station σ → Station σ → Prop
  | now {k : Station σ} : ¬k.Finished → Joins k k
  | left {k : Station σ} (ms : List (Move ι)) : k.Finished → (k.play act ms).Left → Joins k (k.play act ms)

/-- A request to stop, in its two steps. -/
def Requests (k k₁ : Station σ) : Prop :=
  ∃ ms : List (Move ι), k₁ = ((k.onWorld Plea.raise.act).play act ms).onWorld Plea.cancel.act

/-- The station after something was done with its interpreter as it takes it: a worker is held still, was let go of, or
has been given its run. -/
def settle (k : Station σ) (i : Interpreter σ) : Station σ :=
  let desk := { i with worker := k.desk.worker }
  match i.worker with
  | .running r => if k.seen.isRunning then { k with desk := desk } else ⟨desk, some ⟨r, .ofRun o fuel r, false⟩, k.threads⟩
  | _ => ⟨desk, none, k.threads⟩

/-- The run that a worker has been given when something was done with the interpreter. -/
def handed (k : Station σ) (i : Interpreter σ) : Option (Run σ) :=
  match i.worker with
  | .running r => if k.seen.isRunning then none else some r
  | _ => none

/-- The reply to a run that was made here. -/
def ran : Except Breakdown Unit → Session.Reply
  | .ok _ => .done
  | .error b => .broken b

/-- What calls come to, and what they leave. -/
inductive Returns : Station σ → Call → Outcome σ → Station σ → Prop
  | load {k k₁ : Station σ} (s : Script) {r : Except LifecycleError Report} {i : Interpreter σ} :
    Joins act k k₁ → (Interpreter.load s).run.run k₁.seen = (r, i) →
      Returns k (.load s) ⟨.of .report r, none, k₁.ended⟩ (k₁.settle o fuel i)
  | start {k k₁ : Station σ} {r : Except LifecycleError Unit} {i : Interpreter σ} :
    Joins act k k₁ → Interpreter.start.run.run k₁.seen = (r, i) →
      Returns k (.start true) ⟨.of (fun _ => .done) r, k₁.handed i, k₁.ended⟩ (k₁.settle o fuel i)
  | notBegun {k k₁ : Station σ} {e : LifecycleError} {i : Interpreter σ} :
    Joins act k k₁ → Interpreter.prepare.run.run k₁.seen = (.error e, i) →
      Returns k (.start false) ⟨.failed e, none, k₁.ended⟩ (k₁.settle o fuel i)
  /-- A run is made here. -/
  | here {k k₁ : Station σ} {r : Run σ} {i j : Interpreter σ} (ms : List (Move ι)) {e : Ending σ} {s : Scene σ}
    {answer : Except Breakdown Unit} :
    Joins act k k₁ → Interpreter.prepare.run.run k₁.seen = (.ok r, i) →
      (r.worker o fuel).play act ms = ⟨.done e, s⟩ →
      (Interpreter.handBack e).run.run { i with world := s.world } = (.ok answer, j) →
      Returns k (.start false) ⟨ran answer, some r, k₁.ended ++ [e]⟩ (k₁.settle o fuel j)
  | notStopped {k : Station σ} {r : Except LifecycleError Summary} {i : Interpreter σ} :
    k.held = none → (Interpreter.stop o fuel).run.run k.seen = (r, i) →
      Returns k .stop ⟨.of .summary r, none, []⟩ (k.settle o fuel i)
  /-- The thread is waited for. -/
  | stop {k k₁ : Station σ} (ms : List (Move ι)) {r : Except LifecycleError Summary} {i : Interpreter σ} :
    k.held ≠ none → k.Requests act k₁ → (k₁.play act ms).Left →
      (Interpreter.finishStop k₁.world.clock).run.run (k₁.play act ms).seen = (r, i) →
      Returns k .stop ⟨.of .summary r, none, (k₁.play act ms).ended⟩ ((k₁.play act ms).settle o fuel i)
  | idle {k : Station σ} (forever : Bool) : k.held = none → Returns k (.wait forever) ⟨.ended true, none, []⟩ k
  | wait {k : Station σ} (forever : Bool) (ms : List (Move ι)) {d : Held σ} :
    (k.play act ms).held = some d → (forever = true → d.told = true) →
      Returns k (.wait forever) ⟨.ended d.told, none, []⟩ { k.play act ms with held := some d.listen }
  | requestStop {k k₁ : Station σ} : k.Requests act k₁ → Returns k .requestStop ⟨.done, none, []⟩ k₁
  | cancel {k : Station σ} : Returns k .cancel ⟨.done, none, []⟩ (k.onWorld World.cancel)
  | status {k : Station σ} : Returns k .status ⟨.status k.seen.status, none, []⟩ k

/-- The calls that were made of an interpreter, each with what it has come to, and the station that they leave.  Between
any two of them the thread that is held goes on and others act. -/
inductive History (k₀ : Station σ) : List (Call × Outcome σ) → Station σ → Prop
  | start : History k₀ [] k₀
  | move {past : List (Call × Outcome σ)} {k : Station σ} (m : Move ι) : History k₀ past k → History k₀ past (k.move act m)
  | call {past : List (Call × Outcome σ)} {k k' : Station σ} {c : Call} {r : Outcome σ} :
    History k₀ past k → Returns act o fuel k c r k' → History k₀ (past ++ [(c, r)]) k'

end

/-! ## What a station takes its worker for -/

variable {act : ι → World σ → World σ} {o : Outside σ} {fuel : Nat} {k k₁ k' : Station σ} {d : Held σ} {e : Ending σ}

theorem seen_of_none (h : k.held = none) : k.seen = { k.desk with worker := .absent } := by
  unfold seen
  rw [h]

theorem seen_of_some (h : k.held = some d) : k.seen = { k.desk with worker := d.seen } := by
  unfold seen
  rw [h]

theorem seen_of_gone {r : Run σ} {noticed : Bool} (h : k.held = some ⟨r, .gone e, noticed⟩) :
    k.seen = { k.desk with worker := .atEnd e } := by
  rw [seen_of_some h]
  cases noticed <;> rfl

theorem ended_of_gone {r : Run σ} {noticed : Bool} (h : k.held = some ⟨r, .gone e, noticed⟩) : k.ended = [e] := by
  unfold ended
  rw [h]

theorem isRunning_atEnd (i : Interpreter σ) (e : Ending σ) :
    Interpreter.isRunning { i with worker := .atEnd e } = false := by
  cases e <;> rfl

theorem busy_iff_isRunning : k.Busy ↔ k.seen.isRunning = true := by
  cases hd : k.held with
  | none => simp [Busy, hd, seen_of_none hd, Interpreter.isRunning]
  | some d =>
    rw [seen_of_some hd, Held.seen]
    cases he : d.ending? with
    | none => simp [Busy, hd, he, Interpreter.isRunning]
    | some e => simp [Busy, hd, he, isRunning_atEnd]

theorem not_busy_of_none (h : k.held = none) : ¬k.Busy := by
  rintro ⟨d, hd, -⟩
  simp [h] at hd

theorem not_busy_of_gone {r : Run σ} {noticed : Bool} (h : k.held = some ⟨r, .gone e, noticed⟩) : ¬k.Busy := by
  rw [busy_iff_isRunning, seen_of_gone h, isRunning_atEnd]
  exact Bool.false_ne_true

/-- A station that holds a worker is busy, or the worker has come to an end. -/
theorem held_cases (k : Station σ) : k.held = none ∨ k.Busy ∨ k.Finished := by
  cases hd : k.held with
  | none => exact .inl rfl
  | some d =>
    refine .inr ?_
    cases he : d.ending? with
    | none => exact .inl ⟨d, hd, he⟩
    | some e => exact .inr ⟨d, hd, e, he⟩

/-- When a thread has left that was held, it holds the end that its run has come to. -/
theorem Leads.held_gone (h : k.Leads k₁) (hd : k.held = some d) (hleft : k₁.Left) :
    ∃ e, k₁.held = some { d with thread := .gone e } ∧ ∀ e', d.thread.end? = some e' → e = e' := by
  obtain ⟨t, ht, hk₁⟩ := h.thread d hd
  obtain ⟨d', hd', hgone⟩ := hleft
  obtain rfl : d' = { d with thread := t } := Option.some.inj (hd'.symm.trans hk₁)
  cases t with
  | working | leaving => cases hgone
  | gone e =>
    refine ⟨e, hk₁, fun e' he' => ?_⟩
    exact Option.some.inj (ht.told e' he')

end Station
end ArmPilot
