import ArmPilot.Decimal.Layout

/-!
# The robot arm

The arm as the program knows it: where it is, how fast it moves, its gripper and its servos, and every call
that reached it.  While a stop is under way the arm is inert: it takes no calls.
-/

namespace ArmPilot

/-- A place in space. -/
structure Point where
  x : Float
  y : Float
  z : Float
deriving Repr, BEq, Inhabited

/-- The origin. -/
def Point.zero : Point := ⟨0.0, 0.0, 0.0⟩

/-- A place as seen from another. -/
def Point.add (p q : Point) : Point := ⟨p.x + q.x, p.y + q.y, p.z + q.z⟩

namespace Robot

/-- A call to the arm. -/
inductive Call where
  | servos (on : Bool)
  | speed (x : Float)
  | gripper (on : Bool)
  | move (target : Point) (relative : Bool)
deriving Repr, BEq

/-- The text of a call. -/
def Call.text : Call → String
  | .servos on => "set_active_servos(" ++ toString on ++ ")"
  | .speed x => "set_speed(" ++ Decimal.Layout.plain.text x ++ ")"
  | .gripper on => "set_gripper(" ++ toString on ++ ")"
  | .move p relative =>
    "move_to(" ++ Decimal.Layout.plain.text p.x ++ ", " ++ Decimal.Layout.plain.text p.y ++ ", " ++
      Decimal.Layout.plain.text p.z ++ ", relative=" ++ toString relative ++ ")"

end Robot

/-- The arm. -/
structure Robot where
  position : Point
  speed : Float
  gripper : Bool
  servos : Bool
  /-- Whether a stop is under way, which makes the arm ignore all calls. -/
  exiting : Bool
  moving : Bool
  /-- The calls that reached the arm, in order. -/
  calls : List Robot.Call
deriving Repr, BEq, Inhabited

namespace Robot

/-- An arm that has not been called. -/
def initial : Robot := ⟨Point.zero, 0.0, false, false, false, false, []⟩

/-- Notes a call. -/
def record (r : Robot) (c : Call) : Robot := { r with calls := r.calls ++ [c] }

/-- Switches the servos. -/
def setServos (r : Robot) (on : Bool) : Robot :=
  if r.exiting then r else { r.record (.servos on) with servos := on }

/-- Sets the speed. -/
def setSpeed (r : Robot) (x : Float) : Robot :=
  if r.exiting then r else { r.record (.speed x) with speed := x }

/-- Opens or closes the gripper. -/
def setGripper (r : Robot) (on : Bool) : Robot :=
  if r.exiting then r else { r.record (.gripper on) with gripper := on }

/-- Begins a move, which is then under way. -/
def beginMove (r : Robot) (target : Point) (relative : Bool) : Robot :=
  { r.record (.move target relative) with moving := true }

/-- Ends a move that was carried out. -/
def arrive (r : Robot) (target : Point) (relative : Bool) : Robot :=
  { r with moving := false, position := if relative then r.position.add target else target }

/-- Ends a move that was cut short. -/
def halt (r : Robot) : Robot := { r with moving := false }

end Robot
end ArmPilot
