import ArmPilot.Load.Program
import ArmPilot.Run.Basic

/-!
# The interpreter

The interpreter loads scripts and runs them, one at a time: here, or beside its user, by a worker.  A worker that
has ended is held until the next call that needs its result; collecting it lets the machines work again.
-/

namespace ArmPilot

/-- A misuse of the interpreter, or the end of a worker by a breakdown. -/
inductive LifecycleError where
  | alreadyRunning
  | notRunning
  | workerPanicked
  /-- There is no room for the stack of a worker. -/
  | spawn
deriving Repr, DecidableEq

/-- Why there is no worker with a stack that has no room. -/
def spawnReason : String := "Resource temporarily unavailable (os error 11)"

/-- The wording of an error. -/
def LifecycleError.message : LifecycleError → String
  | .alreadyRunning => "a script is already running"
  | .notRunning => "no script is running"
  | .workerPanicked => "the script thread panicked"
  | .spawn => "failed to spawn the script thread: " ++ spawnReason

/-- What runs beside the user of the interpreter. -/
inductive Worker (σ : Type) where
  | absent
  | running (r : Run σ)
  | ended (events : List (Event σ)) (summary : Summary)
  | panicked

/-- The worker at the end of its run. -/
def Worker.atEnd {σ : Type} : Ending σ → Worker σ
  | .finished events summary => .ended events summary
  | .broken _ | .unfinished => .panicked

/-- What the board tells about a worker. -/
inductive RunStatus where
  | notRunning
  | running (board : Status)
deriving Repr, DecidableEq

namespace RunStatus

/-- Whether something is running. -/
def isRunning : RunStatus → Bool
  | .running _ => true
  | .notRunning => false

/-- What ran in the latest tick, if something is running. -/
def board? : RunStatus → Option Status
  | .running b => some b
  | .notRunning => none

/-- A status as a document value. -/
def toJson : RunStatus → Json
  | .notRunning => .str "NotRunning"
  | .running b => .obj [("Running", b.toJson)]

end RunStatus

/-- An interpreter in its world. -/
structure Interpreter (σ : Type) where
  config : Config
  registry : Registry σ
  /-- The events that are loaded for the next run. -/
  events : List (Event σ)
  worker : Worker σ
  /-- What the latest run that was collected has done. -/
  last : Option Summary
  world : World σ

namespace Interpreter

variable {σ : Type}

/-- What is done with an interpreter. -/
abbrev Control (σ : Type) := ExceptT LifecycleError (StateM (Interpreter σ))

/-- An interpreter with nothing loaded. -/
def create (c : Config) (r : Registry σ) (w : World σ) : Interpreter σ := ⟨c, r, [], .absent, none, w⟩

/-- Whether a worker is running. -/
def isRunning (i : Interpreter σ) : Bool :=
  match i.worker with
  | .running _ => true
  | _ => false

/-- Whether there is a worker, which may have ended. -/
def hasWorker (i : Interpreter σ) : Bool :=
  match i.worker with
  | .absent => false
  | _ => true

/-- Whether the worker is asked to stop. -/
def isExiting (i : Interpreter σ) : Bool := i.hasWorker && i.world.cancelled

/-- What is running. -/
def status (i : Interpreter σ) : RunStatus := if i.isRunning then .running i.world.board else .notRunning

/-- Changes the world. -/
def onWorld (f : World σ → World σ) : Control σ Unit := modify fun i => { i with world := f i.world }

/-- Adds a record about the run to the log. -/
def note (level : Log.Level) (text : String) : Control σ Unit := onWorld (·.note level Run.target text)

/-- What is told when a script is to be loaded during a run. -/
def loadRefused : String := "Cannot load a script while one is running"

/-- What is told when a script is to be started during a run. -/
def startRefused : String := "Tried to start a script while one is already running"

/-- Lets go of a worker that has ended, and tells what it hands over. -/
def join : Control σ (List (Event σ) × Summary) := do
  let w := (← get).worker
  modify fun i => { i with worker := .absent }
  match w with
  | .ended events summary => return (events, summary)
  | _ =>
    note .error "Script thread panicked"
    throw .workerPanicked

/-- Collects a worker that ended by itself: its events stay loaded. -/
def collect : Control σ Unit := do
  if (← get).hasWorker then
    let (events, summary) ← join
    onWorld (·.setExiting false)
    modify fun i => { i with events := events, last := some summary }

/-- Loads a script for the next run. -/
def load (s : Script) : Control σ Report := do
  if (← get).isRunning then
    note .error loadRefused
    throw .alreadyRunning
  collect
  let l := ArmPilot.load (← get).registry s
  onWorld fun w => { w with records := l.records.reverse ++ w.records }
  modify fun i => { i with events := l.events }
  return l.report

/-- What is done before a run, step by step: the machines may work, servos and speed are set, the board is wiped and
an old request to stop is withdrawn. -/
def startSteps (c : Config) : List (World σ → World σ) :=
  [(·.setExiting false), fun w => { w with robot := w.robot.setServos true },
    fun w => { w with robot := w.robot.setSpeed c.defaultSpeed }, (·.clearBoard), (·.reset)]

/-- Makes everything ready for a run of the loaded events, which are handed over to it. -/
def prepare : Control σ (Run σ) := do
  if (← get).isRunning then
    note .error startRefused
    throw .alreadyRunning
  collect
  let c := (← get).config
  onWorld fun w => (startSteps c).foldl (fun w step => step w) w
  let i ← get
  set { i with last := none, events := [] }
  return Run.create c i.events i.world

/-- Runs the loaded script here, to its end, which may be a breakdown. -/
def runHere (o : Outside σ) (fuel : Nat) : Control σ (Except Breakdown Unit) := do
  let r ← prepare
  let (ending, w) := r.execute o fuel
  modify fun i => { i with world := w }
  match ending with
  | .finished events summary =>
    onWorld (·.setExiting false)
    modify fun i => { i with events := events, last := some summary }
    return .ok ()
  | .broken b => return .error b
  | .unfinished => return .error (.told "run not followed to its end")

/-- The least size of a stack for which there is no room. -/
def stackEnd : Nat := 140737488355328

/-- Whether there is room for the stack of a worker. -/
def hasRoom (c : Config) : Bool :=
  match c.workerStack with
  | some n => n < stackEnd
  | none => true

/-- Starts a worker on the loaded script; without room for it the script stays loaded. -/
def start : Control σ Unit := do
  let r ← prepare
  if hasRoom (← get).config then modify fun i => { i with worker := .running r }
  else
    modify fun i => { i with events := r.events }
    note .error ("Could not start script thread: " ++ spawnReason)
    throw .spawn

/-- Follows a worker to the end of its run. -/
def follow (o : Outside σ) (fuel : Nat) (i : Interpreter σ) : Interpreter σ :=
  match i.worker with
  | .running r =>
    let (ending, w) := { r with scene := { r.scene with world := i.world } }.execute o fuel
    { i with worker := .atEnd ending, world := w }
  | _ => i

/-- Ends a stop that was requested at a time, after the worker has ended: nothing stays loaded. -/
def finishStop (requested : Nat) : Control σ Summary := do
  let r ← (ExceptT.mk (do return .ok (← join.run)) : Control σ (Except LifecycleError (List (Event σ) × Summary)))
  onWorld fun w => (w.setExiting false).clearBoard
  modify fun i => { i with events := [] }
  match r with
  | .error e => throw e
  | .ok (_, summary) =>
    let elapsed := (← get).world.clock - requested
    note .info ("Script stopped after " ++ toString summary.ticks ++ " tick(s) in " ++ durationText elapsed)
    modify fun i => { i with last := some summary }
    return summary

/-- Stops the worker, if there is one, and waits for its end. -/
def stop (o : Outside σ) (fuel : Nat) : Control σ Summary := do
  if !(← get).hasWorker then throw .notRunning
  let requested := (← get).world.clock
  onWorld (·.requestStop)
  modify (follow o fuel)
  finishStop requested

end Interpreter
end ArmPilot
