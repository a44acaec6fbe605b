import ArmPilot.Lang.Failure
import ArmPilot.Text.Bytes

/-!
# Operators

What the infix and prefix operators do on values, as total functions.  `none` says that there is no such
operator for the operands.
-/

namespace ArmPilot
namespace Lang

/-- The result of an operation on values. -/
abbrev Outcome := Except Cause Value

/-- The name of a call in messages: the function and the types of its arguments. -/
def callSignature (name : String) (args : List Value) : String :=
  name ++ " (" ++ joinWith ", " (args.map Value.signatureName) ++ ")"

/-- An integer result that must be a word. -/
def checkedInt (n : Int) (message : String) : Outcome :=
  if Word.holds n then .ok (.int n) else .error (.arithmetic message)

/-- A word moved up by a distance; a distance out of range leaves nothing. -/
def shiftUp (a d : Int) : Int := if d > 63 then 0 else Word.wrap (a * (Nat.pow 2 d.toNat : Nat))

/-- A word moved down by a distance, keeping its sign. -/
def shiftDown (a d : Int) : Int :=
  if d > 63 then (if a < 0 then -1 else 0) else Int.fdiv a (Nat.pow 2 d.toNat : Nat)

/-- A shift to the left, or to the right by a negative distance. -/
def shiftLeft (a b : Int) : Int := if b < 0 then shiftDown a (-b) else shiftUp a b

/-- A shift to the right, or to the left by a negative distance. -/
def shiftRight (a b : Int) : Int := if b < 0 then shiftUp a (-b) else shiftDown a b

/-- The greatest exponent of a power of words. -/
def greatestExponent : Nat := 4294967295

/-- A power of words, if it is a word; large exponents of one, zero and minus one are taken apart. -/
def powWord? (a : Int) (b : Nat) : Option Int :=
  if b > greatestExponent then none
  else if a = 0 ∨ a = 1 then some (if b = 0 then 1 else a)
  else if a = -1 then some (if b % 2 = 0 then 1 else -1)
  else if b > 64 then none
  else
    let r := Int.pow a b
    if Word.holds r then some r else none

/-- Arithmetic on words. -/
def intOperator (op : Mark) (a b : Int) : Option Outcome :=
  let both := toString a ++ " " ++ op.text ++ " " ++ toString b
  match op with
  | .plus => some (checkedInt (a + b) ("Addition overflow: " ++ both))
  | .minus => some (checkedInt (a - b) ("Subtraction overflow: " ++ both))
  | .times => some (checkedInt (a * b) ("Multiplication overflow: " ++ both))
  | .divide =>
    some (if b = 0 then .error (.arithmetic ("Division by zero: " ++ both))
      else checkedInt (Int.tdiv a b) ("Division overflow: " ++ both))
  | .modulo =>
    some (if b = 0 ∨ (a = Word.least ∧ b = -1) then
        .error (.arithmetic ("Modulo division by zero or overflow: " ++ both))
      else .ok (.int (Int.tmod a b)))
  | .power =>
    some (if b < 0 then .error (.arithmetic ("Integer raised to a negative power: " ++ both))
      else match powWord? a b.toNat with
        | some r => .ok (.int r)
        | none => .error (.arithmetic ("Exponential overflow: " ++ both)))
  | .shiftLeft => some (.ok (.int (shiftLeft a b)))
  | .shiftRight => some (.ok (.int (shiftRight a b)))
  | .ampersand => some (.ok (.int (Word.wrap (Word.bits a &&& Word.bits b : Nat))))
  | .pipe => some (.ok (.int (Word.wrap (Word.bits a ||| Word.bits b : Nat))))
  | .caret => some (.ok (.int (Word.wrap (Word.bits a ^^^ Word.bits b : Nat))))
  | _ => none

/-- Arithmetic on doubles. -/
def floatOperator (op : Mark) (x y : Float) : Option Outcome :=
  match op with
  | .plus => some (.ok (.float (x + y)))
  | .minus => some (.ok (.float (x - y)))
  | .times => some (.ok (.float (x * y)))
  | .divide => some (.ok (.float (x / y)))
  | .modulo => some (.ok (.float (Decimal.remainder x y)))
  | .power => some (.ok (.float (Float.pow x y)))
  | _ => none

/-- How two values compare, by the answers to "less" and "equal". -/
def compared (op : Mark) (less greater equal : Bool) : Option Bool :=
  match op with
  | .equalsTo => some equal
  | .notEquals => some !equal
  | .less => some less
  | .lessEq => some (less || equal)
  | .greater => some greater
  | .greaterEq => some (greater || equal)
  | _ => none

/-- The distance between one and the next double: doubles that differ by no more of their size are equal. -/
def epsilon : Float := 2.220446049250313e-16

/-- How far a double lies above another, in parts of the greater of the two unless one is zero. -/
def excess (x y : Float) : Float :=
  let size := if x * y == 0.0 then 1.0 else (if x.abs < y.abs then y.abs else x.abs)
  (x - y) / size

/-- Comparison of doubles, which does not tell apart doubles that are equal but for rounding.  No comparison holds
if the difference is not a number. -/
def compareFloats (op : Mark) (x y : Float) : Option Bool :=
  let d := excess x y
  match op with
  | .equalsTo => some (d.abs ≤ epsilon)
  | .notEquals => some (d.abs > epsilon)
  | .less => some (d < -epsilon)
  | .lessEq => some (d < epsilon)
  | .greater => some (d > epsilon)
  | .greaterEq => some (d > -epsilon)
  | _ => none

/-- Whether doubles are equal but for rounding. -/
def sameFloat (x y : Float) : Bool := (excess x y).abs ≤ epsilon

/-- Comparison of texts. -/
def compareTexts (op : Mark) (s t : String) : Option Bool := compared op (s < t) (t < s) (s == t)

/-- Whether a value is of a type that scripts can only pass on. -/
def Value.isOpaque : Value → Bool
  | .range _ _ _ | .device _ | .stream _ => true
  | _ => false

/-- The answer to whether two values are equal, for values whose types do not know it: values of different types
differ, unless both are opaque. -/
def Value.unlike (v w : Value) : Except Cause Bool :=
  if v.typeName = w.typeName || (v.isOpaque && w.isOpaque) then
    .error (.functionNotFound (callSignature Mark.equalsTo.text [v, w]))
  else .ok false

/-- The answer to whether two items of arrays are equal: items of different types differ. -/
def Value.settled (v w : Value) (answer : Except Cause Bool) : Except Cause Bool :=
  match answer with
  | .ok b => .ok b
  | .error c => if v.typeName = w.typeName then .error c else .ok false

mutual

/-- Whether two values are equal; there is no answer for values of a type without equality. -/
def Value.equals : Value → Value → Except Cause Bool
  | .unit, .unit => .ok true
  | .bool a, .bool b => .ok (a == b)
  | .int a, .int b => .ok (a == b)
  | .int a, .float y => .ok (sameFloat (Decimal.ofInt a) y)
  | .float x, .int b => .ok (sameFloat x (Decimal.ofInt b))
  | .float x, .float y => .ok (sameFloat x y)
  | .char c, .char d => .ok (c == d)
  | .char c, .string s => .ok (String.singleton c == s)
  | .string s, .char c => .ok (s == String.singleton c)
  | .string s, .string t => .ok (s == t)
  | .array xs, .array ys => if xs.length = ys.length then Value.equalItems xs ys else .ok false
  | .map xs, .map ys => if xs.length = ys.length then Value.equalMembers xs ys else .ok false
  | .bytes xs, .bytes ys => .ok (xs == ys)
  | .range a b false, .range c d false => .ok (a == c && b == d)
  | .range a b true, .range c d true => .ok (a == c && b == d)
  | v, w => v.unlike w

/-- Whether two lists of values are equal. -/
def Value.equalItems : List Value → List Value → Except Cause Bool
  | [], [] => .ok true
  | x :: xs, y :: ys =>
    match x.settled y (Value.equals x y) with
    | .ok true => Value.equalItems xs ys
    | r => r
  | _, _ => .ok false

/-- Whether the members of a map are equal to those of another. -/
def Value.equalMembers : List (String × Value) → List (String × Value) → Except Cause Bool
  | [], _ => .ok true
  | (k, x) :: xs, ys =>
    match Json.find? k ys with
    | none => .ok false
    | some y =>
      match Value.equals x y with
      | .ok true => Value.equalMembers xs ys
      | r => r

end

/-- Whether an item of an array is equal to a value. -/
def Value.matches (v w : Value) : Except Cause Bool := v.settled w (v.equals w)

/-- Whether an operator compares. -/
def isComparison (op : Mark) : Bool := (compared op true true true).isSome

/-- A text that takes part in a concatenation or a comparison with texts. -/
def Value.textual? : Value → Option String
  | .char c => some (String.singleton c)
  | .string s => some s
  | _ => none

/-- Whether a value holds others. -/
def Value.hasParts : Value → Bool
  | .array _ | .map _ => true
  | _ => false

/-- A text without the occurrences of another text or of a character; an empty text without another is that other. -/
def without (s : String) : Value → Option String
  | .char c => some (String.ofList (s.toList.filter (· ≠ c)))
  | .string t => some (if t = "" then s else if s = "" then t else String.join (s.splitOn t))
  | _ => none

/-- An operator between texts, characters included. -/
def textOperator (op : Mark) (l r : Value) (s t : String) : Option Outcome :=
  match compareTexts op s t with
  | some b => some (.ok (.bool b))
  | none =>
    match op, l with
    | .plus, _ => some (.ok (.string (s ++ t)))
    | .minus, .string s => (without s r).map fun u => .ok (.string u)
    | _, _ => none

/-- An infix operator on two values that makes no range of them. -/
def plainOperator (op : Mark) (l r : Value) : Option Outcome :=
  match l, r with
  | .int a, .int b =>
    match compared op (a < b) (b < a) (a == b) with
    | some t => some (.ok (.bool t))
    | none => intOperator op a b
  | .float x, .float y => real x y
  | .int a, .float y => real (Decimal.ofInt a) y
  | .float x, .int b => real x (Decimal.ofInt b)
  | .bool a, .bool b =>
    match compared op (!a && b) (a && !b) (a == b) with
    | some t => some (.ok (.bool t))
    | none =>
      match op with
      | .ampersand => some (.ok (.bool (a && b)))
      | .pipe => some (.ok (.bool (a || b)))
      | .caret => some (.ok (.bool (a != b)))
      | _ => none
  | .unit, .unit => (compared op false false true).map fun t =>
      .ok (.bool (match op with | .equalsTo => t | _ => false))
  | l, r =>
    match l.textual?, r.textual? with
    | some s, some t => textOperator op l r s t
    | _, _ =>
      match op, l, r with
      | .plus, .bytes xs, .bytes ys => some (.ok (.bytes (xs ++ ys)))
      | .plus, .string s, .bytes ys => some (.ok (.string (s ++ Text.ofBytes ys)))
      | .plus, .bytes xs, .string t => some (.ok (.string (Text.ofBytes xs ++ t)))
      | .plus, .string s, v => some (.ok (.string (s ++ v.printed)))
      | .plus, v, .string t => some (.ok (.string (v.printed ++ t)))
      | .plus, .array xs, .array ys => some (.ok (.array (xs ++ ys)))
      | .plus, .map xs, .map ys =>
        some (.ok (.map (ys.foldl (fun acc m => Json.insert m.1 m.2 acc) xs)))
      | _, _, _ =>
        match op with
        | .equalsTo => answered (l.equals r)
        | .notEquals => answered ((l.equals r).map not)
        | _ =>
          -- values of different types are never in order
          if !isComparison op || l.typeName = r.typeName || (l.isOpaque && r.isOpaque) then none
          else some (.ok (.bool false))
where
  real (x y : Float) : Option Outcome :=
    match compareFloats op x y with
    | some t => some (.ok (.bool t))
    | none => floatOperator op x y
  answered (r : Except Cause Bool) : Option Outcome :=
    match r with
    | .ok b => some (.ok (.bool b))
    | .error c => if l.hasParts then some (.error c) else none

/-- Whether an infix operator on two values is carried out at once, and not by a call of a function. -/
def isDirect (op : Mark) (l r : Value) : Bool :=
  let isNumber (v : Value) : Bool := match v with | .int _ | .float _ => true | _ => false
  let sameScalars : Bool := match l, r with
    | .bool _, .bool _ | .unit, .unit | .range _ _ _, .range _ _ _ => true
    | .bytes _, .bytes _ => op = .plus || op = .equalsTo || op = .notEquals
    | l, r => (isNumber l && isNumber r) || (l.textual?.isSome && r.textual?.isSome)
  op = .range || op = .rangeInclusive || sameScalars
    || (isComparison op && l.typeName ≠ r.typeName && !(l.isOpaque && r.isOpaque))

/-- An infix operator on two values. -/
def binaryOperator (op : Mark) (l r : Value) : Option Outcome :=
  match op with
  | .range => (l.rangeBetween? r false).map .ok
  | .rangeInclusive => (l.rangeBetween? r true).map .ok
  | op => plainOperator op l r

/-- A prefix operator on a value. -/
def unaryOperator (op : Mark) (v : Value) : Option Outcome :=
  match op, v with
  | .bang, .bool b => some (.ok (.bool !b))
  | .minus, .int n => some (checkedInt (-n) "integer overflow")
  | .minus, .float x => some (.ok (.float (-x)))
  | .plus, .int n => some (.ok (.int n))
  | .plus, .float x => some (.ok (.float x))
  | _, _ => none

/-- The lowest byte of a word. -/
def lowByte (n : Int) : UInt8 := (n % 256).toNat.toUInt8

/-- An assignment with an operator: what becomes of the value on the left. -/
def assignOperator (op : Mark) (l r : Value) : Option Outcome :=
  match op, l, r with
  | .plus, .array xs, .array ys => some (.ok (.array (xs ++ ys)))
  | .plus, .array xs, v => some (.ok (.array (xs ++ [v])))
  | .plus, .bytes xs, .int n => some (.ok (.bytes (xs ++ [lowByte n])))
  | .plus, .bytes xs, .char c => some (.ok (.bytes (xs ++ Text.bytesOf (String.singleton c))))
  | .plus, .bytes xs, .string s => some (.ok (.bytes (xs ++ Text.bytesOf s)))
  | _, _, _ => binaryOperator op l r

/-- Whether an assignment with an operator is carried out at once, and not by a call of a function. -/
def assignsDirectly (op : Mark) (l r : Value) : Bool :=
  match l, r with
  | .array _, .array _ => op = .plus
  | .bytes _, .int _ | .bytes _, .char _ | .bytes _, .string _ => op = .plus || isDirect op l r
  | l, r => isDirect op l r

end Lang
end ArmPilot
