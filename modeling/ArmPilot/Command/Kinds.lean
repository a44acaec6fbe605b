import ArmPilot.Command.Basic
import ArmPilot.Load.Parameters

/-!
# The kinds of commands

What each kind of command reads from its parameters and what it does.  A condition that fails to be
evaluated does not hold.
-/

namespace ArmPilot
namespace Command

open Lang (Value)

variable {σ : Type}

/-- What a kind makes of parameters. -/
abbrev Factory (σ : Type) := Parameters → Except LoadError (Built (Action σ))

/-- The target of complaints of commands. -/
def target : String := "armscript::engine"

/-- A kind without parameters. -/
def fixed (part : Part) (s : Signal) : Factory σ := fun _ => .ok (.sound (.signal part s))

/-- Gives a variable the value of an expression. -/
def setVariable (o : Outside σ) : Factory σ := fun ps => do
  let name ← ps.variableName "variable"
  let e ← ps.expression "expression"
  return e.map fun e => .plain do
    match ← Act.evaluate o e with
    | none => return .skip
    | some v =>
      match ← Act.setVariable name v with
      | .ok _ => return .proceed
      | .error err =>
        Act.note .warn target ("Cannot set " ++ name ++ ": " ++ err.message)
        return .skip

/-- Comparisons of a variable. -/
inductive Comparison where
  | equal
  | notEqual
  | greater
  | less
  | greaterOrEqual
  | lessOrEqual
deriving Repr, DecidableEq

/-- The comparison of a sign or a name. -/
def Comparison.parse? (text : String) : Option Comparison :=
  match Text.trim text with
  | "==" | "=" | "equal" => some .equal
  | "!=" | "not_equal" => some .notEqual
  | ">" | "greater" => some .greater
  | "<" | "less" => some .less
  | ">=" | "greater_or_equal" => some .greaterOrEqual
  | "<=" | "less_or_equal" => some .lessOrEqual
  | _ => none

/-- The operator of a comparison. -/
def Comparison.operator : Comparison → String
  | .equal => "=="
  | .notEqual => "!="
  | .greater => ">"
  | .less => "<"
  | .greaterOrEqual => ">="
  | .lessOrEqual => "<="

/-- Whether an expression counts as true. -/
def holds (o : Outside σ) (e : String) : Act σ Bool := do
  match ← Act.evaluate o e with
  | some v => return v.truthy
  | none => return false

/-- The expression that compares a variable with an expression. -/
def testText (name : String) (c : Comparison) (e : String) : String :=
  name ++ " " ++ c.operator ++ " (" ++ e ++ ")"

/-- Compares a variable with an expression. -/
def testVariable (o : Outside σ) : Factory σ := fun ps => do
  let name ← ps.variableName "variable"
  let sign ← ps.text "test"
  match Comparison.parse? sign with
  | none => throw (.invalidParameter "test" ("unknown comparison '" ++ sign ++ "'"))
  | some c =>
    let e ← ps.expression "expression"
    return e.map fun e => .plain do return .ofBool (← holds o (testText name c e))

/-- Asks whether an expression counts as true. -/
def expressionTest (o : Outside σ) : Factory σ := fun ps => do
  let e ← ps.expression "expression"
  return e.map fun e => .plain do return .ofBool (← holds o e)

/-- Runs a script. -/
def runScript (o : Outside σ) : Factory σ := fun ps => do
  let s ← ps.script "script"
  return s.map fun s => .plain do return .ofBool (← Act.execute o s)

/-- Sleeps, whether or not it is cut short. -/
def pause (o : Outside σ) (duration : Nat) : Act σ Signal := do
  let s ← get
  let (slept, w) := s.world.sleep o duration s.sandbox.sleepPoll
  set { s with world := w }
  match slept with
  | .overflow => throw (.overslept s.world.clock duration)
  | .full | .cut => return .proceed

/-- A duration in seconds, if it is one. -/
def duration? (seconds : Float) : Option Nat :=
  if seconds.isNaN || seconds < 0.0 then none else Devices.nanosOf? seconds

/-- Sleeps for a time. -/
def sleep (o : Outside σ) : Factory σ := fun ps => do
  let seconds ← ps.number "seconds"
  match duration? seconds with
  | none => throw (.invalidParameter "seconds" "expected a non-negative duration")
  | some d => return .sound (.plain (pause o d))

/-- Prints the value of an expression. -/
def print (o : Outside σ) : Factory σ := fun ps => do
  let e ← ps.expression "expression"
  return e.map fun e => .plain do
    if let some v ← Act.evaluate o e then
      Act.note .info Devices.scriptTarget v.text
    return .proceed

/-- The action that holds a number of times, and counts them. -/
def repeated (times : Nat) : Action σ where
  part := .plain
  memory := 0
  run _ := do
    let count ← getThe Nat
    if count < times then
      set (count + 1)
      return .proceed
    else return .skip

/-- Holds the first times it is asked. -/
def repeatTimes : Factory σ := fun ps => do
  let times ← ps.number "times"
  if times < 0.0 || !Decimal.isWhole times then
    throw (.invalidParameter "times" "expected a whole, non-negative count")
  else
    let n := (Decimal.Binary.ofFloat times).truncate.toNat
    return .sound (repeated (min n (Word.count - 1)))

/-- A coordinate, if an expression has one as its value. -/
def coordinate (o : Outside σ) (e : String) : Act σ (Option Float) := do
  match ← Act.evaluate o e with
  | none => return none
  | some v =>
    match Lang.Library.number v with
    | .ok x => return some x
    | .error _ =>
      Act.note .warn target ("\x60" ++ e ++ "\x60 is not a coordinate")
      return none

/-- Moves the arm. -/
def move (o : Outside σ) (p : Point) (relative : Bool) : Act σ Bool := do
  let s ← get
  let (moved, w) := s.world.move o p relative true
  set { s with world := w }
  return moved

/-- Moves the arm to a place given by expressions. -/
def moveXyz (o : Outside σ) : Factory σ := fun ps => do
  let x ← ps.expression "x"
  let y ← ps.expression "y"
  let z ← ps.expression "z"
  let relative ← ps.flag "relative" false
  let act : Act σ Signal := do
    let cx ← coordinate o x.value
    let cy ← coordinate o y.value
    let cz ← coordinate o z.value
    match cx, cy, cz with
    | some x, some y, some z => return .ofBool (← move o ⟨x, y, z⟩ relative)
    | _, _, _ => return .skip
  return ⟨.plain act, x.problems ++ y.problems ++ z.problems⟩

/-- Sets the speed of the arm. -/
def speed (o : Outside σ) : Factory σ := fun ps => do
  let e ← ps.expression "speed"
  return e.map fun e => .plain do
    match (← Act.evaluate o e).map Lang.Library.number with
    | some (.ok x) =>
      Act.onWorld fun w => { w with robot := w.robot.setSpeed x }
      return .proceed
    | _ => return .skip

/-- Opens or closes the gripper. -/
def gripper : Factory σ := fun ps => do
  let on ← ps.flag "on" true
  return .sound (.plain do
    Act.onWorld fun w => { w with robot := w.robot.setGripper on }
    return .proceed)

/-- The kinds of commands. -/
def kinds (o : Outside σ) : List (String × Factory σ) :=
  [("StartBlockCommand", fixed .startBlock .proceed),
    ("EndBlockCommand", fixed .endBlock .proceed),
    ("ElseCommand", fixed .elseMark .proceed),
    ("SetVariableCommand", setVariable o),
    ("TestVariableCommand", testVariable o),
    ("ExpressionCommand", expressionTest o),
    ("ScriptCommand", runScript o),
    ("SleepCommand", sleep o),
    ("PrintCommand", print o),
    ("RepeatCommand", repeatTimes),
    ("MoveXYZCommand", moveXyz o),
    ("SpeedCommand", speed o),
    ("GripperCommand", gripper),
    ("ExitEventCommand", fixed .plain .exit),
    ("EndProgramCommand", fixed .plain .kill)]

end Command
end ArmPilot
