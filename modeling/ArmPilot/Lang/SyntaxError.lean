import ArmPilot.Lang.Token

/-!
# Refused scripts

Why a script is not taken at all.  Each reason is a cause with its own data; `Refusal.message` words it.
-/

namespace ArmPilot
namespace Lang

/-- Why a script is refused. -/
inductive Refusal where
  | lexical (f : LexFault)
  | unexpectedEnd
  | unknownOperator (text : String)
  /-- Something must stand here for a stated purpose. -/
  | missing (what purpose : String)
  | malformedIndex (advice : String)
  | malformedCapture (advice : String)
  | mismatched (wanted found : String)
  | propertyExpected
  | variableExpected
  | expressionExpected (kind : String)
  | reservedWord (text : String)
  | duplicatedProperty (name : String)
  | duplicatedVariable (name : String)
  | misplacedDefaultCase
  | conditionOnDefaultCase
  | integerAfterRange
  | misplacedFunction
  | missingFunctionName
  | missingParameters (function : String)
  | missingBody (function : String)
  | duplicatedParameter (function parameter : String)
  | duplicatedFunction (function : String) (parameters : Nat)
  | assignmentToConstant (name : String)
  | assignmentToExpression
  | breakOutsideLoop
  | tooDeep
  | literalTooLarge (what : String) (limit : Nat)
deriving Repr, DecidableEq

/-- The wording of a refusal. -/
def Refusal.message : Refusal → String
  | .lexical f => f.message
  | .unexpectedEnd => "Script is incomplete"
  | .unknownOperator s => "Unknown operator: '" ++ s ++ "'"
  | .missing what purpose => "Expecting '" ++ what ++ "' " ++ purpose
  | .malformedIndex advice => advice
  | .malformedCapture advice => advice
  | .mismatched wanted found => "Expecting " ++ wanted ++ ", not " ++ found
  | .propertyExpected => "Expecting name of a property"
  | .variableExpected => "Expecting name of a variable"
  | .expressionExpected kind => "Expecting " ++ kind ++ " expression"
  | .reservedWord s =>
    "'" ++ s ++ "' is a reserved " ++ (if isProperName s.toList then "keyword" else "symbol")
  | .duplicatedProperty name => "Duplicated property for object map literal: " ++ name
  | .duplicatedVariable name => "Duplicated variable name: " ++ name
  | .misplacedDefaultCase => "Default switch case must be the last"
  | .conditionOnDefaultCase => "This switch case cannot have a condition"
  | .integerAfterRange => "Numeric switch case cannot follow a range case"
  | .misplacedFunction =>
    "Function definitions must be at global level and cannot be inside a block or another function"
  | .missingFunctionName => "Expecting function name in function declaration"
  | .missingParameters f => "Expecting parameters for function " ++ f
  | .missingBody "" => "Expecting body statement block for anonymous function"
  | .missingBody f => "Expecting body statement block for function " ++ f
  | .duplicatedParameter f p => "Duplicated parameter " ++ p ++ " for function " ++ f
  | .duplicatedFunction f 0 => "Function " ++ f ++ " with no parameters already exists"
  | .duplicatedFunction f 1 => "Function " ++ f ++ " with 1 parameter already exists"
  | .duplicatedFunction f n => "Function " ++ f ++ " with " ++ toString n ++ " parameters already exists"
  | .assignmentToConstant "" => "Cannot assign to a constant value"
  | .assignmentToConstant name => "Cannot assign to constant " ++ name
  | .assignmentToExpression => "Expression cannot be assigned to"
  | .breakOutsideLoop => "Break statement should only be used inside a loop"
  | .tooDeep => "Expression exceeds maximum complexity"
  | .literalTooLarge what limit => what ++ " exceeds the maximum limit (" ++ toString limit ++ ")"

/-- A refusal and its position. -/
structure SyntaxError where
  refusal : Refusal
  place : Place
deriving Repr, DecidableEq

/-- The message of a syntax error, which ends in its position. -/
def SyntaxError.message (e : SyntaxError) : String := e.refusal.message ++ e.place.suffix

end Lang
end ArmPilot
