import ArmPilot.Breakdown
import ArmPilot.Lang.SyntaxError
import ArmPilot.Lang.Text

/-!
# Failed evaluations

Why the evaluation of a script fails.  A failure has a cause and, once it is known, a position; a failure
inside of a function is wrapped in the call.  Some causes stop the script for good, the others can be caught.
-/

namespace ArmPilot
namespace Lang

/-- Kinds of data whose size is bounded. -/
inductive Bulk where
  | text
  | array
  | map
deriving Repr, DecidableEq

/-- The bounded size, by name. -/
def Bulk.name : Bulk → String
  | .text => "Length of string"
  | .array => "Size of array/BLOB"
  | .map => "Size of object map"

mutual

/-- Why an evaluation fails. -/
inductive Cause where
  | refused (e : SyntaxError)
  | variableNotFound (name : String)
  | functionNotFound (signature : String)
  | moduleNotFound (name : String)
  | propertyUnknown (name type : String)
  | propertyReadOnly (name type valueType : String)
  | indexerMissing (type index : String)
  | indexerReadOnly (type index valueType : String)
  | arrayBounds (size : Nat) (index : Int)
  | textBounds (size : Nat) (index : Int)
  | bitBounds (index : Int)
  | typeMismatch (wanted found : String)
  | constantAssigned (name : String)
  | constantChanged (method : String)
  | thisMissing
  | notIterable
  | arithmetic (text : String)
  | thrown (v : Value)
  | tooLarge (what : Bulk)
  | tooManyOperations
  | stackOverflow
  | terminated
  /-- A failure inside of a function; a closure has no name. -/
  | inCall (function : String) (inner : Failure)

/-- A cause and its position. -/
inductive Failure where
  | mk (cause : Cause) (place : Place)

end

instance : Inhabited Failure := ⟨.mk .terminated none⟩

namespace Failure

/-- The cause of a failure. -/
def cause : Failure → Cause
  | .mk c _ => c

/-- The position of a failure. -/
def place : Failure → Place
  | .mk _ p => p

/-- A failure at a position. -/
def moveTo (f : Failure) (p : Place) : Failure := .mk f.cause p

end Failure

/-- Whether a cause stops the script and cannot be caught. -/
def Cause.isFatal : Cause → Bool
  | .refused _ | .tooLarge _ | .tooManyOperations | .stackOverflow | .terminated => true
  | _ => false

/-- Bounds of an index, as a message names them. -/
def boundsText (what unit units place : String) (size : Nat) (index : Int) : String :=
  what ++ " index " ++ toString index ++ " out of bounds: " ++
    (if size = 0 then place ++ " is empty"
     else if size = 1 then "only 1 " ++ unit ++ " in " ++ place
     else "only " ++ toString size ++ " " ++ units ++ " in " ++ place)

/-- The complaint about a property that cannot be read. -/
def unknownProperty (name type : String) : String :=
  "Unknown property '" ++ name ++ "' - a getter is not registered for type '" ++ type ++ "'"

/-- The complaint about a property that cannot be written. -/
def readOnlyProperty (name type value : String) : String :=
  "No writable property '" ++ name ++ "' - a setter is not registered for type '" ++ type ++
    "' to handle '" ++ value ++ "'"

mutual

/-- The wording of a cause. -/
def Cause.message : Cause → String
  | .refused e => "Syntax error: " ++ e.refusal.message
  | .variableNotFound s => "Variable not found: " ++ s
  | .functionNotFound s => "Function not found: " ++ s
  | .moduleNotFound s => "Module not found: " ++ s
  | .propertyUnknown name type => unknownProperty name type
  | .propertyReadOnly name type value => readOnlyProperty name type value
  | .indexerMissing type index => "Indexer unavailable: " ++ type ++ " [" ++ index ++ "]"
  | .indexerReadOnly type index value => "Indexer unavailable: " ++ type ++ " [" ++ index ++ "] = " ++ value
  | .arrayBounds n i => boundsText "Array" "element" "elements" "array" n i
  | .textBounds n i => boundsText "String" "character" "characters" "string" n i
  | .bitBounds i => "Bit-field index " ++ toString i ++ " out of bounds: only 64 bits in bit-field"
  | .typeMismatch wanted found => "Data type incorrect: " ++ found ++ " (expecting " ++ wanted ++ ")"
  | .constantAssigned name => "Cannot modify constant " ++ name
  | .constantChanged method => "Non-pure method '" ++ method ++ "' cannot be called on constant"
  | .thisMissing => "'this' not bound"
  | .notIterable => "For loop expects iterable type"
  | .arithmetic s => s
  | .thrown v => if v.text = "" then "Runtime error" else "Runtime error: " ++ v.text
  | .tooLarge what => what.name ++ " too large"
  | .tooManyOperations => "Too many operations"
  | .stackOverflow => "Stack overflow"
  | .terminated => "Script terminated"
  | .inCall "" f => f.message ++ "\nin closure call"
  | .inCall name f => f.message ++ "\nin call to function '" ++ name ++ "'"

/-- The message of a failure, which ends in its position. -/
def Failure.message : Failure → String
  | .mk c p => c.message ++ p.suffix

end

/-- The fields by which a script that catches a failure can tell its cause. -/
def Cause.fields : Cause → List (String × Value)
  | .refused _ => [("error", .string "ErrorParsing")]
  | .variableNotFound s => [("error", .string "ErrorVariableNotFound"), ("variable", .string s)]
  | .functionNotFound s => [("error", .string "ErrorFunctionNotFound"), ("function", .string s)]
  | .moduleNotFound s => [("error", .string "ErrorModuleNotFound"), ("module", .string s)]
  | .propertyUnknown name type =>
    [("error", .string "ErrorDotExpr"), ("property", .string (unknownProperty name type))]
  | .propertyReadOnly name type value =>
    [("error", .string "ErrorDotExpr"), ("property", .string (readOnlyProperty name type value))]
  | .indexerMissing t i => [("error", .string "ErrorIndexingType"), ("type", .string (t ++ " [" ++ i ++ "]"))]
  | .indexerReadOnly t i v =>
    [("error", .string "ErrorIndexingType"), ("type", .string (t ++ " [" ++ i ++ "] = " ++ v))]
  | .arrayBounds n i => [("error", .string "ErrorArrayBounds"), ("length", .int n), ("index", .int i)]
  | .textBounds n i => [("error", .string "ErrorStringBounds"), ("length", .int n), ("index", .int i)]
  | .bitBounds i => [("error", .string "ErrorBitFieldBounds"), ("length", .int 64), ("index", .int i)]
  | .typeMismatch w f =>
    [("error", .string "ErrorMismatchDataType"), ("requested", .string w), ("actual", .string f)]
  | .constantAssigned s => [("error", .string "ErrorAssignmentToConstant"), ("variable", .string s)]
  | .constantChanged s => [("error", .string "ErrorNonPureMethodCallOnConstant"), ("function", .string s)]
  | .thisMissing => [("error", .string "ErrorUnboundThis")]
  | .notIterable => [("error", .string "ErrorFor")]
  | .arithmetic _ => [("error", .string "ErrorArithmetic")]
  | .thrown v => [("error", .string "ErrorRuntime"), ("value", v)]
  | .tooLarge _ => [("error", .string "ErrorDataTooLarge")]
  | .tooManyOperations => [("error", .string "ErrorTooManyOperations")]
  | .stackOverflow => [("error", .string "ErrorStackOverflow")]
  | .terminated => [("error", .string "ErrorTerminated")]
  | .inCall f _ => [("error", .string "ErrorInFunctionCall"), ("function", .string f), ("source", .string "")]

mutual

/-- The value that was thrown, also inside of a function. -/
def Cause.thrown? : Cause → Option Value
  | .thrown v => some v
  | .inCall _ f => f.thrown?
  | _ => none

/-- The value that was thrown, also inside of a function. -/
def Failure.thrown? : Failure → Option Value
  | .mk c _ => c.thrown?

end

/-- The value that a script catches: what was thrown, or a map that describes the failure. -/
def Failure.caught (f : Failure) : Value :=
  match f.thrown?, f.cause with
  | some v, _ => v
  | none, c =>
    let position : List (String × Value) := match f.place with
      | some p => [("line", .int p.line), ("position", .int p.column)]
      | none => []
    .map ((("message", .string c.message) :: position ++ c.fields).foldl
      (fun acc m => Json.insert m.1 m.2 acc) [])

/-- Why evaluation stops before its end. -/
inductive Interrupt where
  | failure (f : Failure)
  /-- The machine under the script broke down. -/
  | panic (b : Breakdown)
  /-- A loop is left or goes on to its next round. -/
  | leave (isBreak : Bool) (v : Value)
  /-- A function gives back a value. -/
  | giveBack (v : Value)
  /-- The evaluator was given too little fuel. -/
  | exhausted

end Lang
end ArmPilot
