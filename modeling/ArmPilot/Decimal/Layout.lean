import ArmPilot.Decimal.Shortest

/-!
# Layouts of numbers

The digits of a number are chosen in `Digits`; a `Layout` says how they are set out: which magnitudes
are written positionally, whether a whole number keeps `.0`, and how an exponent is marked.  The four
layouts of the program are values of that record.
-/

namespace ArmPilot
namespace Decimal

/-- How the digits of a double are set out. -/
structure Layout where
  /-- The least decimal exponent written positionally, if there is a bound. -/
  least : Option Int
  /-- The greatest decimal exponent written positionally, if there is a bound. -/
  greatest : Option Int
  /-- Whether a whole number written positionally ends in `.0`. -/
  keepsPoint : Bool
  /-- Whether a positive exponent carries a plus sign. -/
  plusSign : Bool
deriving Repr, DecidableEq

/-- Values shown exactly: positional from `1e-4` up to below `1e16`, with a point. -/
def Layout.precise : Layout := ⟨some (-4), some 15, true, false⟩

/-- Numbers in the texts of robot calls: always positional, whole numbers bare. -/
def Layout.plain : Layout := ⟨none, none, false, false⟩

/-- Numbers in stored text: positional from `1e-5` up to below `1e16`, with a sign on every exponent. -/
def Layout.stored : Layout := ⟨some (-5), some 15, true, true⟩

/-- A number with one digit before the point and an exponent, whatever its size. -/
def Layout.scientific : Layout := ⟨some 1, some 0, false, false⟩

namespace Layout

/-- Whether a decimal exponent is written positionally. -/
def isPositional (l : Layout) (e : Int) : Bool :=
  (match l.least with | some low => decide (low ≤ e) | none => true) &&
  (match l.greatest with | some high => decide (e ≤ high) | none => true)

/-- Digits around a decimal point. -/
def positional (l : Layout) (d : Digits) : List Char :=
  let text := d.chars
  if d.point ≤ 0 then
    ['0', '.'] ++ List.replicate (-d.point).toNat '0' ++ text
  else
    let whole := d.point.toNat
    if text.length ≤ whole then
      text ++ List.replicate (whole - text.length) '0' ++ (if l.keepsPoint then ['.', '0'] else [])
    else text.take whole ++ '.' :: text.drop whole

/-- One digit, the others after a point, and the exponent. -/
def withExponent (l : Layout) (d : Digits) : List Char :=
  let e := d.point - 1
  let sign := if e < 0 then ['-'] else if l.plusSign then ['+'] else []
  let mantissa :=
    match d.chars with
    | [] => ['0']
    | [c] => [c]
    | c :: rest => c :: '.' :: rest
  mantissa ++ 'e' :: sign ++ Nat.toDigits 10 e.natAbs

/-- The characters of a double. -/
def chars (l : Layout) (x : Float) : List Char :=
  if x.isNaN then ['N', 'a', 'N']
  else
    let b := Binary.ofFloat x
    let sign := if b.negative then ['-'] else []
    if x.isInf then sign ++ ['i', 'n', 'f']
    else if b.mantissa = 0 then sign ++ '0' :: (if l.keepsPoint then ['.', '0'] else [])
    else
      let d := Digits.ofBinary b
      sign ++ (if l.isPositional (d.point - 1) then l.positional d else l.withExponent d)

/-- The text of a double. -/
def text (l : Layout) (x : Float) : String := String.ofList (l.chars x)

end Layout

/-- The greatest magnitude that scripts print positionally: the number of single precision nearest to `1e13`. -/
def greatestPositional : Float := 9999999827968.0

/-- The least magnitude that scripts print positionally: the number of single precision nearest to `1e-13`. -/
def leastPositional : Float := 9.9999998245167e-14

/-- A number as scripts print it: zero as `0.0`, an exponent for very great and very small numbers, else
positional with a point. -/
def scriptText (x : Float) : String :=
  let size := x.abs
  if size == 0.0 then "0.0"
  else if size > greatestPositional || size < leastPositional then Layout.scientific.text x
  else Layout.text { Layout.plain with keepsPoint := true } x

end Decimal
end ArmPilot
