import ArmPilot.Word
import ArmPilot.Json.Basic

/-!
# Script values

The values that scripts compute with.  Integers are signed 64-bit words, kept as integers in range by
the operations; maps are lists of members in the order of their keys.  A variable that a closure uses
is `shared`: the value is then the number of a cell of the store.
-/

namespace ArmPilot
namespace Lang

/-- The machines that a script can reach through a handle. -/
inductive Device where
  | robot
  | vision
  | resources
  | videoStream
deriving Repr, DecidableEq

/-- Sequences that are walked through once. -/
inductive Stream where
  | steps (first last step : Int)
  | realSteps (first last step : Float)
  | chars (rest : List Char)
  /-- The bits of a word: the word, the next bit, and how many are left. -/
  | bits (word : Int) (next count : Nat)
deriving Repr, BEq

/-- A value of a script. -/
inductive Value where
  | unit
  | bool (b : Bool)
  | int (n : Int)
  | float (x : Float)
  | char (c : Char)
  | string (s : String)
  | array (items : List Value)
  | map (members : List (String × Value))
  /-- Plain bytes, as those of a text. -/
  | bytes (bs : List UInt8)
  | range (first last : Int) (inclusive : Bool)
  /-- A function with the values that it was given when it was made. -/
  | function (name : String) (id : Nat) (captured : List Value)
  | device (d : Device)
  | stream (s : Stream)
  | shared (cell : Nat)
deriving Repr, BEq, Inhabited

/-- The name that closures go by. -/
def closureName : String := "anonymous"

/-- The name of a device in messages. -/
def Device.name : Device → String
  | .robot => "Robot"
  | .vision => "Vision"
  | .resources => "Resources"
  | .videoStream => "VideoStream"

/-- The full name of a device. -/
def Device.fullName : Device → String
  | .robot => "armscript::sandbox::handles::RobotHandle"
  | .vision => "armscript::sandbox::handles::VisionHandle"
  | .resources => "armscript::sandbox::handles::ResourcesHandle"
  | .videoStream => "armscript::sandbox::handles::VideoStreamHandle"

/-- The full name of a stream. -/
def Stream.fullName : Stream → String
  | .steps _ _ _ => "rhai::packages::iter_basic::StepRange<i64>"
  | .realSteps _ _ _ => "rhai::packages::iter_basic::StepRange<f64>"
  | .chars _ => "rhai::packages::iter_basic::CharsStream"
  | .bits _ _ _ => "rhai::packages::iter_basic::BitRange"

/-- The next value of a stream and what is left of it. -/
def Stream.next? : Stream → Option (Value × Stream)
  | .steps first last step =>
    -- a number from which a step leads out of the range of words is not in the stream
    if Word.holds (first + step) ∧ ((step > 0 ∧ first < last) ∨ (step < 0 ∧ last < first)) then
      some (.int first, .steps (first + step) last step)
    else none
  | .realSteps first last step =>
    if (step > 0.0 ∧ first < last) ∨ (step < 0.0 ∧ last < first) then
      some (.float first, .realSteps (first + step) last step)
    else none
  | .chars [] => none
  | .chars (c :: rest) => some (.char c, .chars rest)
  | .bits _ _ 0 => none
  | .bits word next (count + 1) =>
    some (.bool ((Word.bits word).testBit next), .bits word (next + 1) count)

namespace Value

/-- Whether a value is unit. -/
def isUnit : Value → Bool
  | .unit => true
  | _ => false

/-- Whether a value stands in a cell of the store. -/
def isShared : Value → Bool
  | .shared _ => true
  | _ => false

/-- The range between two values; where unit stands in place of an end, all words on that side from zero on belong to
it. -/
def rangeBetween? (first last : Value) (inclusive : Bool) : Option Value :=
  match first, last with
  | .int a, .int b => some (.range a b inclusive)
  | .int a, .unit => some (.range a Word.greatest inclusive)
  | .unit, .int b => some (.range 0 b inclusive)
  | .unit, .unit => some (.range 0 Word.greatest inclusive)
  | _, _ => none

/-- The name of the type of a value, as scripts know it. -/
def typeName : Value → String
  | .unit => "()"
  | .bool _ => "bool"
  | .int _ => "i64"
  | .float _ => "f64"
  | .char _ => "char"
  | .string _ => "string"
  | .array _ => "array"
  | .map _ => "map"
  | .bytes _ => "blob"
  | .range _ _ false => "range"
  | .range _ _ true => "range="
  | .function _ _ _ => "Fn"
  | .device d => d.name
  | .stream s => s.fullName
  | .shared _ => "shared"

/-- The full name of the type of a value. -/
def fullTypeName : Value → String
  | .range _ _ false => "core::ops::range::Range<i64>"
  | .range _ _ true => "core::ops::range::RangeInclusive<i64>"
  | .device d => d.fullName
  | v => v.typeName

/-- The name of a type in the signature of a call. -/
def signatureName : Value → String
  | .string _ => "&str | ImmutableString | String"
  | v => v.typeName

/-- A document value as a script value: integers beyond a signed word become doubles. -/
def ofNumber : Json.Number → Value
  | .int n => if Word.holds n then .int n else .float (Decimal.ofInt n)
  | .real x => .float x

mutual

/-- A document value as a script value. -/
def ofJson : Json → Value
  | .null => .unit
  | .bool b => .bool b
  | .num n => ofNumber n
  | .str s => .string s
  | .arr items => .array (ofJsonItems items)
  | .obj members => .map (ofJsonMembers members)

/-- The items of a document list. -/
def ofJsonItems : List Json → List Value
  | [] => []
  | v :: rest => ofJson v :: ofJsonItems rest

/-- The members of a document object. -/
def ofJsonMembers : List (String × Json) → List (String × Value)
  | [] => []
  | (k, v) :: rest => (k, ofJson v) :: ofJsonMembers rest

end

mutual

/-- A script value as a document value: what a document cannot hold goes by the name of its type. -/
def toJson : Value → Json
  | .unit => .null
  | .bool b => .bool b
  | .int n => .num (.int n)
  | .float x => .num (.real x)
  | .char c => .str (String.singleton c)
  | .string s => .str s
  | .array items => .arr (toJsonItems items)
  | .map members => .obj (toJsonMembers members)
  | .bytes bs => .arr (bs.map fun b => .num (.int b.toNat))
  | .function name _ _ => .str name
  | v => .str v.fullTypeName

/-- The items of a list as document values. -/
def toJsonItems : List Value → List Json
  | [] => []
  | v :: rest => toJson v :: toJsonItems rest

/-- The members of a map as document values. -/
def toJsonMembers : List (String × Value) → List (String × Json)
  | [] => []
  | (k, v) :: rest => (k, toJson v) :: toJsonMembers rest

end

end Value

end Lang
end ArmPilot
