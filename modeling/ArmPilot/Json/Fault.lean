import ArmPilot.Text.Quoted

/-!
# Faults of a document

A document that cannot be read has a `Fault`: a `Problem` and the `Spot` where it was met.  The wording
of every problem is in `Problem.message`; `Fault.message` adds the spot.
-/

namespace ArmPilot
namespace Json

/-- A place in a text: the line, counted from one, and the bytes before it on that line. -/
structure Spot where
  line : Nat
  column : Nat
deriving Repr, DecidableEq, Inhabited

/-- The spot behind a character. -/
def Spot.after (s : Spot) (c : Char) : Spot :=
  if c = '\n' then ⟨s.line + 1, 0⟩ else ⟨s.line, s.column + c.utf8Size⟩

/-- The spot one byte on, which is where a character that was only looked at is reported. -/
def Spot.ahead (s : Spot) : List Char → Spot
  | [] => s
  | c :: _ => if c = '\n' then ⟨s.line + 1, 0⟩ else ⟨s.line, s.column + 1⟩

/-- What was found where something else belongs. -/
inductive Found where
  | null
  | boolean (b : Bool)
  | integer (n : Int)
  | real (text : String)
  | string (s : String)
  | sequence
  | object
deriving Repr, DecidableEq

/-- How a found value is named in messages. -/
def Found.describe : Found → String
  | .null => "null"
  | .boolean b => "boolean \x60" ++ toString b ++ "\x60"
  | .integer n => "integer \x60" ++ toString n ++ "\x60"
  | .real t => "floating point \x60" ++ t ++ "\x60"
  | .string s => "string " ++ Text.quoted s
  | .sequence => "sequence"
  | .object => "map"

/-- Why a document cannot be read. -/
inductive Problem where
  | endOfList
  | endOfObject
  | endOfString
  | endOfValue
  | expectedColon
  | expectedListCommaOrEnd
  | expectedObjectCommaOrEnd
  | expectedIdent
  | expectedValue
  | invalidEscape
  | invalidNumber
  | numberOutOfRange
  | controlCharacter
  | keyMustBeString
  | loneSurrogate
  | trailingComma
  | trailingCharacters
  | unexpectedEndOfHexEscape
  | tooDeep
  | invalidType (found : Found) (expected : String)
  | invalidValue (found : Found) (expected : String)
  | invalidLength (length : Nat) (expected : String)
  | missingField (name : String)
  | duplicateField (name : String)
deriving Repr, DecidableEq

/-- The wording of a problem. -/
def Problem.message : Problem → String
  | endOfList => "EOF while parsing a list"
  | endOfObject => "EOF while parsing an object"
  | endOfString => "EOF while parsing a string"
  | endOfValue => "EOF while parsing a value"
  | expectedColon => "expected \x60:\x60"
  | expectedListCommaOrEnd => "expected \x60,\x60 or \x60]\x60"
  | expectedObjectCommaOrEnd => "expected \x60,\x60 or \x60\x7d\x60"
  | expectedIdent => "expected ident"
  | expectedValue => "expected value"
  | invalidEscape => "invalid escape"
  | invalidNumber => "invalid number"
  | numberOutOfRange => "number out of range"
  | controlCharacter => "control character (\\u0000-\\u001F) found while parsing a string"
  | keyMustBeString => "key must be a string"
  | loneSurrogate => "lone leading surrogate in hex escape"
  | trailingComma => "trailing comma"
  | trailingCharacters => "trailing characters"
  | unexpectedEndOfHexEscape => "unexpected end of hex escape"
  | tooDeep => "recursion limit exceeded"
  | invalidType found expected => "invalid type: " ++ found.describe ++ ", expected " ++ expected
  | invalidValue found expected => "invalid value: " ++ found.describe ++ ", expected " ++ expected
  | invalidLength n expected => "invalid length " ++ toString n ++ ", expected " ++ expected
  | missingField name => "missing field \x60" ++ name ++ "\x60"
  | duplicateField name => "duplicate field \x60" ++ name ++ "\x60"

/-- A problem and where it was met. -/
structure Fault where
  problem : Problem
  spot : Spot
deriving Repr, DecidableEq

/-- The message of a fault, which ends in its line and column. -/
def Fault.message (f : Fault) : String :=
  f.problem.message ++ " at line " ++ toString f.spot.line ++ " column " ++ toString f.spot.column

end Json
end ArmPilot
