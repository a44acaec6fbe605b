import ArmPilot.Event.Basic
import ArmPilot.Command.Kinds

/-!
# The kinds of events

What each kind of event reads from its parameters and when it is active.
-/

namespace ArmPilot
namespace Event

variable {σ : Type}

/-- What a kind makes of parameters. -/
abbrev Factory (σ : Type) := Parameters → Except LoadError (Built (Trigger σ))

/-- A regular trigger without a memory. -/
def regular (a : Moment → Act σ Bool) : Trigger σ := ⟨.regular, 0, fun m => .ofAct (a m)⟩

/-- Active in the first tick. -/
def init : Factory σ := fun _ => .ok (.sound (regular fun m => return m.tick = 1))

/-- Active in every tick. -/
def step : Factory σ := fun _ => .ok (.sound (regular fun _ => return true))

/-- Run when the program ends. -/
def destroy : Factory σ := fun _ => .ok (.sound ⟨.destroy, 0, fun _ => return false⟩)

/-- Active when an expression counts as true. -/
def expression (o : Outside σ) : Factory σ := fun ps => do
  let e ← ps.expression "expression"
  return e.map fun e => regular fun _ => Command.holds o e

/-- When a timer is next due after it was due at `next`: the first such time beyond `elapsed`. -/
def nextDue (period next elapsed : Nat) : Nat := next + period * ((elapsed - next) / period + 1)

/-- A trigger that is active once in every period from the start of the run.  It remembers when it is due;
periods that were missed count as one. -/
def periodic (period : Nat) : Trigger σ where
  role := .regular
  memory := period
  isActive m := do
    let s ← getThe (Scene σ)
    let next ← getThe Nat
    let elapsed := s.world.clock - m.started
    if elapsed < next then return false
    else
      set (nextDue period next elapsed)
      return true

/-- A timer that was due is due again after now, and within a period. -/
theorem nextDue_bounds {period next elapsed : Nat} (hp : 0 < period) (h : next ≤ elapsed) :
    elapsed < nextDue period next elapsed ∧ nextDue period next elapsed ≤ elapsed + period := by
  have hd := Nat.div_add_mod (elapsed - next) period
  have hm := Nat.mod_lt (elapsed - next) hp
  unfold nextDue
  rw [Nat.mul_add, Nat.mul_one]
  omega

/-- Active once in every period. -/
def timer : Factory σ := fun ps => do
  let seconds ← ps.number "seconds"
  match Command.duration? seconds with
  | none | some 0 => throw (.invalidParameter "seconds" "expected a positive period")
  | some d => return .sound (periodic d)

/-- The kinds of events. -/
def kinds (o : Outside σ) : List (String × Factory σ) :=
  [("InitEvent", init), ("StepEvent", step), ("ExpressionEvent", expression o), ("TimerEvent", timer),
    ("DestroyEvent", destroy)]

end Event
end ArmPilot
