import ArmPilot.Script
import ArmPilot.Sandbox.Basic

/-!
# Commands

A command stands in the list of an event.  Running it gives a signal that decides which command comes
next; its part tells whether it opens or closes a block of commands.  A command may keep a count between its
runs.
-/

namespace ArmPilot

/-- How a command ends. -/
inductive Signal where
  /-- The next command is run. -/
  | proceed
  /-- A condition does not hold: the block that follows is skipped. -/
  | skip
  /-- The event is done for this tick. -/
  | exit
  /-- The program ends. -/
  | kill
deriving Repr, DecidableEq

/-- The name of a signal. -/
def Signal.name : Signal → String
  | .proceed => "Continue"
  | .skip => "Skip"
  | .exit => "Exit"
  | .kill => "Kill"

/-- The signal of a condition. -/
def Signal.ofBool (b : Bool) : Signal := if b then .proceed else .skip

/-- The part of a command in the structure of its list. -/
inductive Part where
  | plain
  | startBlock
  | endBlock
  | elseMark
deriving Repr, DecidableEq

/-- The name of a part. -/
def Part.name : Part → String
  | .plain => "Plain"
  | .startBlock => "StartBlock"
  | .endBlock => "EndBlock"
  | .elseMark => "Else"

/-- The time of a run at which a command or a trigger is asked. -/
structure Moment where
  /-- The number of the tick, from one; zero when the run ends. -/
  tick : Nat
  /-- When the run began. -/
  started : Nat

/-- What something with a memory of its own does in a scene; after a breakdown memory and scene stay as
they are then. -/
abbrev Behaviour (σ : Type) := ExceptT Breakdown (StateT Nat (StateM (Scene σ)))

/-- A behaviour that leaves its memory alone. -/
def Behaviour.ofAct {σ α : Type} (a : Act σ α) : Behaviour σ α := ExceptT.mk (StateT.lift a.run)

/-- What a command does. -/
structure Action (σ : Type) where
  part : Part
  memory : Nat
  run : Moment → Behaviour σ Signal

namespace Action

variable {σ : Type}

/-- An action that only gives a signal. -/
def signal (part : Part) (s : Signal) : Action σ := ⟨part, 0, fun _ => return s⟩

/-- An action without a memory. -/
def plain (a : Act σ Signal) : Action σ := ⟨.plain, 0, fun _ => .ofAct a⟩

end Action

/-- A command of a list. -/
structure Command (σ : Type) where
  kind : String
  parameters : Parameters
  action : Action σ

namespace Command

variable {σ : Type}

/-- The part of a command. -/
def part (c : Command σ) : Part := c.action.part

/-- The place of a command that could not be built: a condition that never holds. -/
def rejected (kind : String) (parameters : Parameters) : Command σ :=
  ⟨kind, parameters, .signal .plain .skip⟩

/-- Runs a command: its signal or its breakdown, and the command with its memory from then on. -/
def run (c : Command σ) (m : Moment) (s : Scene σ) : Except Breakdown Signal × Command σ × Scene σ :=
  let ((r, memory), s) := ((c.action.run m).run.run c.action.memory).run s
  (r, { c with action := { c.action with memory := memory } }, s)

/-- A run leaves the part of a command alone. -/
theorem part_run (c : Command σ) (m : Moment) (s : Scene σ) : (c.run m s).2.1.part = c.part := rfl

end Command
end ArmPilot
