import ArmPilot.Robot
import ArmPilot.Log
import ArmPilot.Json.Basic

/-!
# The world of a run

The machines that a script drives, the flag that asks it to stop, the clock, the board on which it publishes
what it has done, and the log.  Others act on the same world: an `Outside` takes its turn whenever time passes.
Times are whole nanoseconds since the world began.
-/

namespace ArmPilot

/-- Which commands of which event ran in a tick: the events by their number, each with its commands. -/
abbrev Status := List (Nat × List Nat)

/-- The number of nanoseconds in a second. -/
def nanosPerSecond : Nat := 1000000000

/-- The world of a run; `σ` is what those outside of it remember. -/
structure World (σ : Type) where
  /-- The time. -/
  clock : Nat
  /-- Whether the run is asked to stop. -/
  cancelled : Bool
  robot : Robot
  /-- Whether the camera is inert because a stop is under way. -/
  visionExiting : Bool
  /-- The names that the camera sees. -/
  tracked : List String
  /-- The names of the known objects. -/
  objects : List String
  /-- How many pictures of the video stream were taken. -/
  frames : Nat
  settings : Json
  /-- How long a move takes. -/
  moveTime : Nat
  /-- What ran in the latest tick. -/
  board : Status
  /-- The log so far, the latest record first. -/
  records : List Log.Record
  outside : σ

/-- Those outside of a run. -/
structure Outside (σ : Type) where
  /-- What they do when time has passed. -/
  turn : World σ → World σ
  /-- What they do when the camera is asked for a name; the error is a breakdown of the camera. -/
  asked : String → World σ → Except String (World σ)

/-- Nobody outside. -/
def Outside.nobody (σ : Type) : Outside σ := ⟨id, fun _ w => .ok w⟩

namespace World

variable {σ : Type}

/-- A world in which nothing has happened. -/
def initial (outside : σ) : World σ :=
  { clock := 0, cancelled := false, robot := Robot.initial, visionExiting := false, tracked := [],
    objects := [], frames := 0, settings := .obj [], moveTime := 0, board := [], records := [],
    outside := outside }

/-- Adds a record to the log. -/
def note (w : World σ) (level : Log.Level) (target text : String) : World σ :=
  { w with records := ⟨level, target, text⟩ :: w.records }

/-- Asks the run to stop. -/
def cancel (w : World σ) : World σ := { w with cancelled := true }

/-- Withdraws the request to stop. -/
def reset (w : World σ) : World σ := { w with cancelled := false }

/-- Makes the arm inert, or lets it take calls again. -/
def setRobotExiting (w : World σ) (exiting : Bool) : World σ :=
  let w := if exiting then w.note .debug "armscript::sim" "robot entering exiting mode" else w
  { w with robot := { w.robot with exiting := exiting } }

/-- Makes camera and arm inert, or lets them work again. -/
def setExiting (w : World σ) (exiting : Bool) : World σ :=
  { w with visionExiting := exiting }.setRobotExiting exiting

/-- Asks the run to stop and cuts short what the machines are doing. -/
def requestStop (w : World σ) : World σ := (w.setExiting true).cancel

/-- Wipes the board. -/
def clearBoard (w : World σ) : World σ := { w with board := [] }

/-- Lets time pass, and those outside act. -/
def advance (o : Outside σ) (d : Nat) (w : World σ) : World σ := o.turn { w with clock := w.clock + d }

/-- How a sleep ends. -/
inductive Slept where
  /-- All of the time passed. -/
  | full
  /-- The run was asked to stop. -/
  | cut
  /-- The end of the sleep is beyond the range of the clock. -/
  | overflow
deriving Repr, DecidableEq

/-- The first time beyond the range of the clock. -/
def clockEnd : Nat := Word.count / 2 * nanosPerSecond

/-- The rounds of a sleep: look for a request to stop, then for the end, then sleep until the next look. -/
def sleepUntil (o : Outside σ) (deadline poll : Nat) : Nat → World σ → Slept × World σ
  | 0, w => (.full, w)
  | fuel + 1, w =>
    if w.cancelled then (.cut, w)
    else if deadline ≤ w.clock then (.full, w)
    else sleepUntil o deadline poll fuel (w.advance o (min (deadline - w.clock) poll))

/-- The shortest time between two looks during a sleep. -/
def leastPoll : Nat := 1000000

/-- Sleeps for a time, looking every `poll` whether the run is asked to stop. -/
def sleep (o : Outside σ) (duration poll : Nat) (w : World σ) : Slept × World σ :=
  let deadline := w.clock + duration
  if clockEnd ≤ deadline then (.overflow, w)
  else sleepUntil o deadline (max poll leastPoll) (duration + 1) w

/-- The time between two looks during a move. -/
def movePoll : Nat := 10000000

/-- The rounds of a move that is waited for: whether it was not cut short. -/
def awaitMove (o : Outside σ) (deadline : Nat) : Nat → World σ → Bool × World σ
  | 0, w => (true, w)
  | fuel + 1, w =>
    if deadline ≤ w.clock then (true, w)
    else if w.robot.exiting then (false, w)
    else awaitMove o deadline fuel (w.advance o movePoll)

/-- Moves the arm, and waits for it if asked to: whether the move was carried out. -/
def move (o : Outside σ) (target : Point) (relative wait : Bool) (w : World σ) : Bool × World σ :=
  if w.robot.exiting then (false, w)
  else
    let w := { w with robot := w.robot.beginMove target relative }
    let (done, w) := if wait then awaitMove o (w.clock + w.moveTime) (w.moveTime + 1) w else (true, w)
    if done then (true, { w with robot := w.robot.arrive target relative })
    else
      (false, { w with robot := w.robot.halt }.note .debug "armscript::sim" "Move interrupted by fast-abort")

/-- Whether the camera sees a name. -/
def sees (w : World σ) (name : String) : Bool := !w.visionExiting && w.tracked.contains name

/-- Takes a picture: the number of pictures so far. -/
def takeFrame (w : World σ) : Nat × World σ := (w.frames + 1, { w with frames := w.frames + 1 })

end World
end ArmPilot
