import ArmPilot.Lang.Scope
import ArmPilot.Lang.Syntax
import ArmPilot.Lang.Library.Walks

/-!
# The machine under a script

A `Host` is what lies outside of the script: it may stop the script before every step, shows what the
script prints, and carries out functions on devices.  A `Store` holds the variables of the script and the
state of the host.
-/

namespace ArmPilot
namespace Lang

/-- What lies outside of a script whose state is `σ`. -/
structure Host (σ : Type) where
  /-- Before every step: whether the script may go on. -/
  progress : σ → Bool × σ
  /-- Shows a line that the script prints. -/
  print : String → σ → σ
  /-- Shows a line that the script debugs at a place. -/
  debug : Place → String → σ → σ
  /-- A function of the host on arguments; the error is a breakdown of the host. -/
  call : String → List Value → Option (σ → Except Breakdown Outcome × σ)

/-- What a function is called on: a value, which may be that of a constant. -/
structure Subject where
  value : Value
  readOnly : Bool

/-- The state of a script. -/
structure Store (σ : Type) where
  scope : Scope
  /-- What the function in hand is called on. -/
  this : Option Subject
  /-- The variables that closures share, by number. -/
  cells : Array Cell
  /-- The constants of the script itself, which its functions can reach. -/
  globals : List (String × Value)
  /-- The steps taken in this evaluation. -/
  operations : Nat
  outer : σ

/-- A step of an evaluation, which may be interrupted; the state survives an interruption. -/
abbrev Eval (σ : Type) := ExceptT Interrupt (StateM (Store σ))

/-- What an evaluation can rely on. -/
structure Env (σ : Type) where
  host : Host σ
  limits : Limits
  /-- The number of the first function of the script. -/
  first : Nat
  /-- The functions and closures of the script. -/
  routines : Array Routine
  /-- How many calls of functions are open. -/
  level : Nat
  /-- How many variables there were when the block in hand began. -/
  blockStart : Nat

/-- Whether a function goes by a name, takes so many arguments, and is kept for values of a type, if for any. -/
def Routine.answersTo (r : Routine) (name : String) (arguments : Nat) (receiver : Option String) : Bool :=
  r.name = name && r.parameters.length = arguments && r.receiver = receiver

namespace Env

variable {σ : Type}

/-- The closure of a number; scripts before this one have taken theirs with them. -/
def closure? (env : Env σ) (id : Nat) : Option Routine :=
  if env.first ≤ id then env.routines[id - env.first]?.filter (·.name = "") else none

/-- The function of the script that a call goes to: on a value, first one that is kept for its type. -/
def function? (env : Env σ) (on : Option Value) (name : String) (arguments : Nat) : Option Routine :=
  match on.bind fun v => env.routines.find? (·.answersTo name arguments (some v.typeName)) with
  | some r => some r
  | none => env.routines.find? (·.answersTo name arguments none)

/-- A function of the script as a value. -/
def functionValue? (env : Env σ) (name : String) : Option Value :=
  (env.routines.findIdx? fun r => r.name = name && r.receiver.isNone).map fun i => .function name (env.first + i) []

/-- The function of the script that a name stands for, unless the script declares the name around this place. -/
def named? (env : Env σ) (name : String) (bound : Bool) : Option Value :=
  if bound then none else env.functionValue? name

end Env

/-- What a call does: how it ends, and what becomes of the value that it was made on. -/
abbrev Called := Except Interrupt Value × Option Value

/-- A built-in function on its arguments, with what becomes of the first of them. -/
structure Native (σ : Type) where
  /-- Whether it changes its first argument, which is then no constant. -/
  changes : Bool
  run : Eval σ Called

/-- The evaluator of nested code, by which the rules for each construct refer to the others. -/
structure Machine (σ : Type) where
  eval : Env σ → Expr → Eval σ Value
  exec : Env σ → Stmt → Eval σ Value
  /-- Calls a function on arguments and a subject, among the variables of its caller or with variables of its own. -/
  invoke : Env σ → Routine → List Value → Option Subject → Bool → Place → Eval σ Called
  /-- The built-in function of a name on arguments. -/
  native : Env σ → String → List Value → Place → Option (Native σ)

namespace Eval

variable {σ : Type}

/-- Fails at a place. -/
def fail {α : Type} (c : Cause) (p : Place) : Eval σ α := throw (.failure (.mk c p))

/-- The value of an outcome, whose failure happens at a place. -/
def ofOutcome (o : Outcome) (p : Place) : Eval σ Value :=
  match o with
  | .ok v => return v
  | .error c => fail c p

/-- How a step ends, without being interrupted by it. -/
def attempt {α : Type} (m : Eval σ α) : Eval σ (Except Interrupt α) :=
  ExceptT.mk (do return .ok (← m.run))

/-- Goes on with a result that was set aside. -/
def resume {α : Type} (r : Except Interrupt α) : Eval σ α :=
  match r with
  | .ok a => return a
  | .error e => throw e

/-- Counts a step, which the limits or the host may refuse. -/
def tick (env : Env σ) (p : Place) : Eval σ Unit := do
  let s ← get
  let n := s.operations + 1
  if env.limits.maxOperations > 0 ∧ n > env.limits.maxOperations then
    set { s with operations := n }
    fail .tooManyOperations p
  else
    let (goes, outer) := env.host.progress s.outer
    set { s with operations := n, outer := outer }
    if goes then return () else fail .terminated p

/-- A value in place of a shared variable. -/
def flat (v : Value) : Eval σ Value := return v.flat (← get).cells

/-- The binding of a variable, its value not yet taken out of a shared cell. -/
def binding (env : Env σ) (name : String) (bound : Bool) (p : Place) : Eval σ Binding := do
  match env.named? name bound with
  | some f => return ⟨name, f, true⟩
  | none =>
    match (← get).scope.lookup name with
    | some b => return b
    | none => fail (.variableNotFound name) p

/-- The value of a variable. -/
def readVariable (env : Env σ) (name : String) (bound : Bool) (p : Place) : Eval σ Value := do
  flat (← binding env name bound p).value

/-- The path to the constants of a script. -/
def globalPath : List String := ["global"]

/-- The value of a name in a module.  There are no modules, but the constants of the script go by one. -/
def readQualified (path : List String) (name : String) (p : Place) : Eval σ Value := do
  if path = globalPath then
    match Json.find? name (← get).globals with
    | some v => return v
    | none => fail (.variableNotFound (joinWith "::" (path ++ [name]))) p
  else fail (.moduleNotFound (joinWith "::" path)) p

/-- Gives the newest variable of a name another value, in its shared cell if it has one. -/
def writeVariable (name : String) (v : Value) : Eval σ Unit :=
  modify fun s =>
    let v := v.flat s.cells
    match s.scope.lookup name with
    | some ⟨_, .shared c, _⟩ => { s with cells := s.cells.modify c fun cell => { cell with value := v } }
    | _ => { s with scope := s.scope.update name v }

/-- Runs code with variables of its own, which are forgotten at its end, however it ends. -/
def withScope {α : Type} (m : Eval σ α) : Eval σ α := do
  let n := (← get).scope.length
  let r ← attempt m
  modify fun s => { s with scope := s.scope.drop (s.scope.length - n) }
  resume r

/-- Fails if sizes exceed the limits. -/
def checkSizes (env : Env σ) (s : Sizes) (p : Place) : Eval σ Unit :=
  match s.exceeded? env.limits with
  | some b => fail (.tooLarge b) p
  | none => return ()

/-- Fails if a value exceeds the limits. -/
def checkSize (env : Env σ) (v : Value) (p : Place) : Eval σ Unit :=
  match v.tooLarge? env.limits with
  | some b => fail (.tooLarge b) p
  | none => return ()

end Eval

end Lang
end ArmPilot
