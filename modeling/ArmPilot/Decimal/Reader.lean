import ArmPilot.Decimal.Binary
import ArmPilot.Text.Digits

/-!
# Reading decimals

A decimal is a sign, digits with at most one point among them, and an exponent; infinity and NaN go by
name.  Its value is the nearest double.
-/

namespace ArmPilot
namespace Decimal

/-- A sign in front of characters: whether it is a minus, and the characters behind it. -/
def splitSign : List Char → Bool × List Char
  | '-' :: rest => (true, rest)
  | '+' :: rest => (false, rest)
  | cs => (false, cs)

/-- The exponent behind the digits of a number; nothing stands for zero. -/
def exponent? : List Char → Option Int
  | [] => some 0
  | c :: rest =>
    if c = 'e' ∨ c = 'E' then
      let (negative, ds) := splitSign rest
      if ds.isEmpty || !ds.all Text.isDigit then none
      else some (if negative then -(Text.numberIn 10 ds : Int) else Text.numberIn 10 ds)
    else none

/-- A number written with digits. -/
def digits? (negative : Bool) (cs : List Char) : Option Float :=
  let whole := cs.takeWhile Text.isDigit
  let rest := cs.dropWhile Text.isDigit
  let (fraction, rest) := match rest with
    | '.' :: rest => (rest.takeWhile Text.isDigit, rest.dropWhile Text.isDigit)
    | rest => ([], rest)
  if whole.isEmpty && fraction.isEmpty then none
  else (exponent? rest).map fun e => ofScientific negative (Text.numberIn 10 (whole ++ fraction)) (e - fraction.length)

/-- The double that a text stands for. -/
def parse? (text : String) : Option Float :=
  let (negative, cs) := splitSign text.toList
  let name := String.ofList (cs.map Char.toLower)
  if name = "inf" ∨ name = "infinity" then some (if negative then -1.0 / 0.0 else 1.0 / 0.0)
  else if name = "nan" then some (0.0 / 0.0)
  else digits? negative cs

end Decimal
end ArmPilot
