import ArmPilot.World
import ArmPilot.Lang.Eval.Machine

/-!
# The machines as scripts see them

Scripts reach the arm, the camera, the known objects and the video stream through functions on handles, and
can sleep.  Every step of a script looks whether the run is asked to stop.
-/

namespace ArmPilot
namespace Devices

open Lang (Value Outcome)

variable {σ : Type}

/-- The target of what scripts print. -/
def scriptTarget : String := "armscript::script"

/-- What a function of the machines does to the world; the outer error is a breakdown. -/
abbrev Deed (σ : Type) := World σ → Except Breakdown Outcome × World σ

/-- A deed that answers with a value. -/
def answer (f : World σ → Value × World σ) : Deed σ := fun w =>
  let (v, w) := f w
  (.ok (.ok v), w)

/-- A deed on the arm that answers with nothing. -/
def onRobot (f : Robot → Robot) : Deed σ := answer fun w => (.unit, { w with robot := f w.robot })

/-- A deed whose arguments may not fit. -/
def checked {α : Type} (args : Except Lang.Cause α) (f : α → Deed σ) : Deed σ := fun w =>
  match args with
  | .ok a => f a w
  | .error c => (.ok (.error c), w)

/-- A place given by three numbers. -/
def point (x y z : Value) : Except Lang.Cause Point :=
  return ⟨← Lang.Library.number x, ← Lang.Library.number y, ← Lang.Library.number z⟩

/-- A move of the arm that is waited for. -/
def moveTo (o : Outside σ) (x y z : Value) (relative : Bool) : Deed σ :=
  checked (point x y z) fun p => answer fun w =>
    let (done, w) := w.move o p relative true
    (.bool done, w)

/-- Whole nanoseconds of a number of seconds, the nearest; `none` for 2⁶⁴ seconds and more. -/
def nanosOf? (seconds : Float) : Option Nat :=
  if seconds.isNaN || seconds.isInf || seconds ≥ 18446744073709551616.0 then none
  else
    let b := Decimal.Binary.ofFloat seconds
    some (Decimal.Binary.roundEven (b.numerator * nanosPerSecond) b.denominator)

/-- A number of seconds to sleep for; less than zero, or no number at all, is zero. -/
def sleepTime (seconds : Float) : Float := if seconds > 0.0 then seconds else 0.0

/-- The complaint about a sleep that is too long to be measured. -/
def sleepComplaint : String :=
  "invalid sleep duration: cannot convert float seconds to Duration: value is either too big or NaN"

/-- A sleep, which answers whether it was not cut short. -/
def sleep (o : Outside σ) (poll : Nat) (seconds : Float) : Deed σ := fun w =>
  match nanosOf? (sleepTime seconds) with
  | none => (.ok (.error (.thrown (.string sleepComplaint))), w)
  | some n =>
    match w.sleep o n poll with
    | (.full, w) => (.ok (.ok (.bool true)), w)
    | (.cut, w) => (.ok (.ok (.bool false)), w)
    | (.overflow, w) => (.error (.overslept w.clock n), w)

/-- The question whether the camera sees a name. -/
def isTracking (o : Outside σ) (name : String) : Deed σ := fun w =>
  match o.asked name w with
  | .error text => (.error (.told text), w)
  | .ok w => (.ok (.ok (.bool (w.sees name))), w)

/-- The functions of the machines on arguments. -/
def call (o : Outside σ) (poll : Nat) (name : String) (args : List Value) : Option (Deed σ) :=
  match name, args with
  | "set_speed", [.device .robot, v] => some (checked (Lang.Library.number v) fun x => onRobot (·.setSpeed x))
  | "move_to", [.device .robot, x, y, z] => some (moveTo o x y z false)
  | "move_to", [.device .robot, x, y, z, .bool relative] => some (moveTo o x y z relative)
  | "set_gripper", [.device .robot, .bool on] => some (onRobot (·.setGripper on))
  | "set_active_servos", [.device .robot, .bool on] => some (onRobot (·.setServos on))
  | "is_moving", [.device .robot] => some (answer fun w => (.bool w.robot.moving, w))
  | "is_tracking", [.device .vision, .string s] => some (isTracking o s)
  | "object_names", [.device .resources] => some (answer fun w => (.array (w.objects.map .string), w))
  | "frame_count", [.device .videoStream] => some (answer fun w => let (n, w) := w.takeFrame; (.int n, w))
  | "sleep", [.int n] => some (sleep o poll (Decimal.ofInt n))
  | "sleep", [.float x] => some (sleep o poll x)
  | "is_stopping", [] => some (answer fun w => (.bool w.cancelled, w))
  | _, _ => none

/-- How long a step of a script takes. -/
def stepTime : Nat := 1000

/-- The name of a place in front of a line that a script debugs. -/
def placeText : Lang.Place → String
  | none => "none"
  | some p => p.text

/-- The machines as the host of scripts, with the time between two looks during a sleep. -/
def host (o : Outside σ) (poll : Nat) : Lang.Host (World σ) where
  progress w := if w.cancelled then (false, w) else (true, w.advance o stepTime)
  print text w := w.note .info scriptTarget text
  debug p text w := w.note .debug scriptTarget (placeText p ++ ": " ++ text)
  call name args := call o poll name args

/-- A run that is asked to stop takes no further step of a script, and the world stays as it is. -/
theorem progress_of_cancelled (o : Outside σ) (poll : Nat) (w : World σ) (h : w.cancelled = true) :
    (host o poll).progress w = (false, w) := by
  simp [host, h]

end Devices
end ArmPilot
