import ArmPilot.Script
import ArmPilot.Identifier
import ArmPilot.Load.Error
import ArmPilot.Decimal.Reader
import ArmPilot.Lang.Parser.Statement

/-!
# Reading parameters

The parameters of a description as texts, numbers, truth values, names of variables, expressions and
scripts.  A parameter that is null counts as absent.  An expression that cannot be read is reported, yet its
command is built all the same.
-/

namespace ArmPilot
namespace Parameters

/-- The value of a parameter, unless it is absent. -/
def find? (ps : Parameters) (name : String) : Option Json :=
  match Json.find? name ps with
  | none | some .null => none
  | v => v

/-- A text, which may be written as a number or a truth value. -/
def text (ps : Parameters) (name : String) : Except LoadError String :=
  match find? ps name with
  | none => .error (.missingParameter name)
  | some (.str s) => .ok s
  | some (.num n) => .ok n.text
  | some (.bool b) => .ok (toString b)
  | some _ => .error (.invalidParameter name "expected a string")

/-- A number, which may be written as a text. -/
def number (ps : Parameters) (name : String) : Except LoadError Float :=
  match find? ps name with
  | none => .error (.missingParameter name)
  | some (.num n) => .ok n.toFloat
  | some (.str s) =>
    match Decimal.parse? (Text.trim s) with
    | some x => .ok x
    | none => .error (.invalidParameter name ("'" ++ s ++ "' is not a number"))
  | some _ => .error (.invalidParameter name "expected a number")

/-- A truth value, which may be written as a text, with a value for its absence. -/
def flag (ps : Parameters) (name : String) (absent : Bool) : Except LoadError Bool :=
  match find? ps name with
  | none => .ok absent
  | some (.bool b) => .ok b
  | some (.str s) =>
    match (Text.trim s).map Char.toLower with
    | "true" => .ok true
    | "false" => .ok false
    | _ => .error (.invalidParameter name ("'" ++ s ++ "' is not a boolean"))
  | some _ => .error (.invalidParameter name "expected a boolean")

/-- The name of a variable. -/
def variableName (ps : Parameters) (name : String) : Except LoadError String := do
  let s ← text ps name
  if isIdentifier s then return s
  else throw (.invalidParameter name ("'" ++ s ++ "' is not a valid variable name"))

/-- A text with the problem that a check finds in it. -/
def checked {α : Type} (check : String → Except Lang.SyntaxError α) (ps : Parameters) (name : String) :
    Except LoadError (Built String) := do
  let s ← text ps name
  match check s with
  | .ok _ => return .sound s
  | .error e => return ⟨s, [.invalidExpression name e.message]⟩

/-- An expression. -/
def expression (ps : Parameters) (name : String) : Except LoadError (Built String) :=
  checked (Lang.Bounds.checked.parseExpression 0) ps name

/-- A script of statements. -/
def script (ps : Parameters) (name : String) : Except LoadError (Built String) :=
  checked (Lang.Bounds.checked.parseScript 0) ps name

end Parameters
end ArmPilot
