import ArmPilot.Identifier
import ArmPilot.Config
import ArmPilot.Sandbox.Devices
import ArmPilot.Lang.Eval.Statement
import ArmPilot.Lang.Folding
import ArmPilot.Lang.Parser.Statement

/-!
# The sandbox

A sandbox keeps the variables of a run.  Expressions and scripts are evaluated in it with the machines of the
world at hand; what an evaluation changes stays, also when it fails in the end.
-/

namespace ArmPilot

open Lang (Value)

/-- The variables of a run and the rules by which its scripts are evaluated. -/
structure Sandbox where
  scope : Lang.Scope
  /-- The variables that closures share. -/
  cells : Array Lang.Cell
  /-- How many functions and closures all scripts so far have had. -/
  routines : Nat
  limits : Limits
  /-- The time between two looks during a sleep. -/
  sleepPoll : Nat

/-- Why the sandbox cannot do what it is asked to. -/
inductive SandboxError where
  /-- The text cannot be read. -/
  | refused (e : Lang.SyntaxError)
  /-- The evaluation failed. -/
  | failed (f : Lang.Failure)
  /-- The evaluator used up its fuel. -/
  | exhausted
  | noValue
  | readOnly (name : String)
  | invalidName (name : String)

/-- The wording of an error. -/
def SandboxError.message : SandboxError → String
  | .refused e => "evaluation failed: Syntax error: " ++ e.message
  | .failed f => "evaluation failed: " ++ f.message
  | .exhausted => "evaluation failed: Out of fuel"
  | .noValue => "expression produced no value"
  | .readOnly name => "'" ++ name ++ "' is read-only"
  | .invalidName name => "'" ++ name ++ "' is not a valid variable name"

/-- A sandbox in its world. -/
structure Scene (σ : Type) where
  sandbox : Sandbox
  world : World σ

/-- What is done in a scene; a breakdown leaves the scene as it is then. -/
abbrev Act (σ : Type) := ExceptT Breakdown (StateM (Scene σ))

namespace Sandbox

/-- The constants of every sandbox, the first one the oldest. -/
def constants (settings : Json) : List (String × Value) :=
  [("pi", .float Lang.Library.pi), ("e", .float Lang.Library.euler), ("robot", .device .robot),
    ("vision", .device .vision), ("resources", .device .resources), ("vstream", .device .videoStream),
    ("settings", .ofJson settings)]

/-- A sandbox that holds only the constants. -/
def create (c : Config) (settings : Json) : Sandbox :=
  { scope := (constants settings).foldl (fun s c => s.push c.1 c.2 true) []
    cells := #[]
    routines := 0
    limits := c.limits
    sleepPoll := c.sleepPoll }

/-- A value out of its shared cell. -/
def flat (s : Sandbox) (v : Value) : Value := v.flat s.cells

/-- The value of a name. -/
def get? (s : Sandbox) (name : String) : Option Value := (s.scope.lookup name).map fun b => s.flat b.value

/-- The variables in the order of their names, without the constants. -/
def values (s : Sandbox) : List (String × Value) := s.scope.values.map fun (k, v) => (k, s.flat v)

/-- Gives a name a value: its newest variable if it has one, else a new one. -/
def set (s : Sandbox) (name : String) (v : Value) : Except SandboxError Sandbox :=
  if !isIdentifier name then .error (.invalidName name)
  else if s.scope.isReadOnly? name = some true then .error (.readOnly name)
  else .ok { s with scope := s.scope.assign name (s.flat v) }

/-- What is known of the names of a sandbox before a script runs. -/
def known (s : Sandbox) : Lang.Known := s.scope.known.map fun (name, v) => (name, v.map s.flat)

/-- The bounds within which a text is read. -/
def bounds (s : Sandbox) : Lang.Bounds :=
  ⟨s.limits.maxDepth, s.limits.maxDepth, s.limits.maxString, s.limits.maxArray, s.limits.maxMap⟩

end Sandbox

namespace Scene

variable {σ : Type}

/-- The state of the evaluator at the start of an evaluation. -/
def store (s : Scene σ) : Lang.Store (World σ) :=
  { scope := s.sandbox.scope, this := none, cells := s.sandbox.cells, globals := [],
    operations := 0, outer := s.world }

/-- The scene that the evaluation of a script leaves behind. -/
def leave (s : Scene σ) (p : Lang.Program) (t : Lang.Store (World σ)) : Scene σ :=
  { sandbox := { s.sandbox with scope := t.scope, cells := t.cells, routines := p.first + p.routines.length }
    world := t.outer }

/-- Changes the world. -/
def onWorld (f : World σ → World σ) (s : Scene σ) : Scene σ := { s with world := f s.world }

end Scene

namespace Act

variable {σ : Type}

/-- Changes the world. -/
def onWorld (f : World σ → World σ) : Act σ Unit := modify (·.onWorld f)

/-- Adds a record to the log. -/
def note (level : Log.Level) (target text : String) : Act σ Unit := onWorld (·.note level target text)

/-- Breaks down. -/
def breakDown {α : Type} (text : String) : Act σ α := throw (.told text)

/-- Evaluates a script that has been read. -/
def evalProgram (o : Outside σ) (p : Lang.Program) : Act σ (Except SandboxError Value) :=
  ExceptT.mk fun s =>
    let (r, t) := (p.eval (Devices.host o s.sandbox.sleepPoll) s.sandbox.limits Lang.Eval.endless).run.run s.store
    let s := s.leave p t
    match r with
    | .ok v => (.ok (.ok v), s)
    | .error (.failure f) => (.ok (.error (.failed f)), s)
    | .error (.panic b) => (.error b, s)
    | .error _ => (.ok (.error .exhausted), s)

/-- Evaluates an expression, which must have a value. -/
def tryEvaluate (o : Outside σ) (text : String) : Act σ (Except SandboxError Value) := do
  let b := (← get).sandbox
  match b.bounds.parseExpression b.routines text with
  | .error e => return .error (.refused e)
  | .ok p =>
    match ← evalProgram o p with
    | .ok .unit => return .error .noValue
    | r => return r

/-- The target of complaints about evaluations. -/
def sandboxTarget : String := "armscript::sandbox"

/-- Evaluates an expression; a failure is logged. -/
def evaluate (o : Outside σ) (text : String) : Act σ (Option Value) := do
  match ← tryEvaluate o text with
  | .ok v => return some v
  | .error e =>
    note .warn sandboxTarget ("EVAL ERROR in \x60" ++ text ++ "\x60: " ++ e.message)
    return none

/-- Runs a script, which is simplified first. -/
def tryExecute (o : Outside σ) (text : String) : Act σ (Except SandboxError Unit) := do
  let b := (← get).sandbox
  match b.bounds.parseScript b.routines text with
  | .error e => return .error (.refused e)
  | .ok p => return (← evalProgram o (p.fold b.known)).map fun _ => ()

/-- Runs a script; a failure is logged. -/
def execute (o : Outside σ) (text : String) : Act σ Bool := do
  match ← tryExecute o text with
  | .ok _ => return true
  | .error e =>
    note .warn sandboxTarget ("EXEC ERROR: " ++ e.message)
    return false

/-- Gives a variable a value. -/
def setVariable (name : String) (v : Value) : Act σ (Except SandboxError Unit) := do
  let s ← get
  match s.sandbox.set name v with
  | .ok b =>
    set { s with sandbox := b }
    return .ok ()
  | .error e => return .error e

end Act
end ArmPilot
