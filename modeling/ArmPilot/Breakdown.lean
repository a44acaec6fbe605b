/-!
# Breakdowns

A breakdown ends whatever it is part of, unless that is guarded.  It is no failure of a script, which cannot catch it.
-/

namespace ArmPilot

/-- What is told of a sleep whose end is beyond the range of the clock. -/
def Devices.clockBreakdown : String := "overflow when adding duration to instant"

/-- Something that breaks down and ends whatever it is part of. -/
inductive Breakdown where
  /-- A breakdown of which only the wording is known. -/
  | told (text : String)
  /-- A sleep, begun at a time, whose end is beyond the range of the clock. -/
  | overslept (now duration : Nat)
deriving Repr, DecidableEq

/-- The wording of a breakdown. -/
def Breakdown.text : Breakdown → String
  | .told text => text
  | .overslept _ _ => Devices.clockBreakdown

end ArmPilot
