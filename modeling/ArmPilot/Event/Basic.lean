import ArmPilot.Command.Basic

/-!
# Events

An event has a trigger, which is asked in every tick whether the event is active, and a list of commands.  An
event of the role `destroy` is not asked: it is run once when the program ends.
-/

namespace ArmPilot

/-- When an event is run. -/
inductive Role where
  | regular
  /-- Once, when the program ends. -/
  | destroy
deriving Repr, DecidableEq

/-- The name of a role. -/
def Role.name : Role → String
  | .regular => "Regular"
  | .destroy => "Destroy"

/-- What makes an event active. -/
structure Trigger (σ : Type) where
  role : Role
  memory : Nat
  isActive : Moment → Behaviour σ Bool

/-- An event with its commands. -/
structure Event (σ : Type) where
  kind : String
  parameters : Parameters
  trigger : Trigger σ
  commands : List (Command σ)

namespace Event

variable {σ : Type}

/-- The role of an event. -/
def role (e : Event σ) : Role := e.trigger.role

/-- Asks whether an event is active: the answer or a breakdown, and the event with its memory from then on. -/
def poll (e : Event σ) (m : Moment) (s : Scene σ) : Except Breakdown Bool × Event σ × Scene σ :=
  let ((r, memory), s) := ((e.trigger.isActive m).run.run e.trigger.memory).run s
  (r, { e with trigger := { e.trigger with memory := memory } }, s)

end Event
end ArmPilot
