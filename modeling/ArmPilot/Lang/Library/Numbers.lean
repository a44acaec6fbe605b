import ArmPilot.Lang.Library.Basic

/-!
# Built-in functions on numbers

The mathematical functions take integers and doubles alike and compute with doubles.
-/

namespace ArmPilot
namespace Lang
namespace Library

/-- The ratio of a circle's circumference to its diameter, as a double. -/
def pi : Float := 3.141592653589793

/-- The base of natural logarithms, as a double. -/
def euler : Float := 2.718281828459045

/-- A number as a double, or a complaint that it is none. -/
def number (v : Value) : Except Cause Float :=
  match v with
  | .float x => .ok x
  | .int n => .ok (Decimal.ofInt n)
  | v => .error (.thrown (.string ("expected a number, got " ++ v.fullTypeName)))

/-- The mathematical functions of one number. -/
def realFunction? : String → Option (Float → Float)
  | "acos" => some Float.acos
  | "asin" => some Float.asin
  | "atan" => some Float.atan
  | "ceil" => some Float.ceil
  | "cos" => some Float.cos
  | "cosh" => some Float.cosh
  | "degrees" => some fun x => x * (180.0 / pi)
  | "exp" => some Float.exp
  | "fabs" => some Float.abs
  | "floor" => some Float.floor
  | "ln" => some Float.log
  | "log" => some Float.log
  | "log10" => some Float.log10
  | "radians" => some fun x => x * (pi / 180.0)
  | "round" => some Float.round
  | "sin" => some Float.sin
  | "sinh" => some Float.sinh
  | "sqrt" => some Float.sqrt
  | "tan" => some Float.tan
  | "tanh" => some Float.tanh
  | "float" => some id
  | _ => none

/-- The mathematical functions of two numbers. -/
def realFunctionOfTwo? : String → Option (Float → Float → Float)
  | "atan2" => some Float.atan2
  | "fmod" => some Decimal.remainder
  | "hypot" => some Decimal.hypotenuse
  | "pow" => some Float.pow
  | _ => none

/-- A word in a base that is a power of two, as its bits. -/
def inBase (base : Nat) (n : Int) : String := String.ofList (Nat.toDigits base (Word.bits n))

/-- Functions of an integer. -/
def ofInt (name : String) (n : Int) : Option Answer :=
  match name with
  | "abs" => some ⟨checkedInt n.natAbs ("Negation overflow: -" ++ toString n), none⟩
  | "sign" => Answer.int n.sign
  | "is_zero" => Answer.bool (n = 0)
  | "is_odd" => Answer.bool (n % 2 ≠ 0)
  | "is_even" => Answer.bool (n % 2 = 0)
  | "to_hex" => Answer.string (inBase 16 n)
  | "to_octal" => Answer.string (inBase 8 n)
  | "to_binary" => Answer.string (inBase 2 n)
  | "bits" => Answer.value (.stream (.bits n 0 64))
  | _ => none

/-- Functions of a double. -/
def ofFloat (name : String) (x : Float) : Option Answer :=
  match name with
  | "abs" => Answer.float x.abs
  | "sign" =>
    if x.isNaN then Answer.failed (.arithmetic "Sign of NaN is undefined")
    else if x == 0.0 then Answer.int 0
    else Answer.int (if x < 0.0 then -1 else 1)
  | "is_zero" => Answer.bool (x == 0.0)
  | _ => none

/-- The smaller or the greater of two numbers, texts or characters. -/
def choose (greater : Bool) : List Value → Option Answer
  | [.string s, .string t] => Answer.string (if (s < t) = greater then t else s)
  | [.char c, .char d] => Answer.value (.char (if (c < d) = greater then d else c))
  | [.int a, .int b] => Answer.int (if greater then max a b else min a b)
  | [.float x, .float y] => reals x y
  | [.int a, .float y] => reals (Decimal.ofInt a) y
  | [.float x, .int b] => reals x (Decimal.ofInt b)
  | _ => none
where
  reals (x y : Float) : Option Answer :=
    Answer.float (if greater then (if x ≥ y then x else y) else (if x ≤ y then x else y))

/-- Functions on numbers. -/
def numbers (name : String) (args : List Value) : Option Answer :=
  match args with
  | [v] =>
    match realFunction? name with
    | some f => some ⟨(number v).map fun x => .float (f x), none⟩
    | none =>
      match name, v with
      | "int", v => some ⟨(number v).map fun x => .int (Decimal.saturate x), none⟩
      | "str", v => Answer.string v.text
      | _, .int n => ofInt name n
      | _, .float x => ofFloat name x
      | _, _ => none
  | [v, w] =>
    match realFunctionOfTwo? name with
    | some f => some ⟨(do return .float (f (← number v) (← number w))), none⟩
    | none =>
      match name with
      | "max" => choose true args
      | "min" => choose false args
      | _ => none
  | _ => none

end Library
end Lang
end ArmPilot
