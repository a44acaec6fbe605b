import ArmPilot.Word
import ArmPilot.Json.Basic

/-!
# Numerals

A `Numeral` is the spelling of a number in a document.  Its value is an integer when it is written
without fraction and exponent and fits 64 bits.  Otherwise it is a double that is found in two steps:
as many digits as fit an unsigned 64-bit word are rounded to a double, which is then multiplied or
divided by a power of ten.  Each step rounds, so a long fraction may come out one step away from the
nearest double.
-/

namespace ArmPilot
namespace Json

/-- The spelling of a number. -/
structure Numeral where
  negative : Bool
  whole : List Char
  fraction : Option (List Char)
  /-- Whether the exponent is negative, and its digits. -/
  exponent : Option (Bool × List Char)
deriving Repr, DecidableEq

/-- The value of a digit. -/
def digitValue (c : Char) : Nat := c.toNat - 48

/-- The greatest unsigned 64-bit word. -/
def wordMax : Nat := Word.count - 1

/-- Takes digits into a word as long as they fit, and returns the digits left over. -/
def takeDigits : Nat → List Char → Nat × List Char
  | acc, [] => (acc, [])
  | acc, c :: rest =>
    if acc * 10 + digitValue c > wordMax then (acc, c :: rest)
    else takeDigits (acc * 10 + digitValue c) rest

/-- The power `10^n` as a double. -/
def tenTo (n : Nat) : Float := Decimal.ofScientific false 1 n

/-- Scales a word by a power of ten; `none` if the result is out of range. -/
def scale : Nat → Float → Int → Option Float
  | 0, f, _ => some f
  | fuel + 1, f, e =>
    if e.natAbs ≤ 308 then
      if e ≥ 0 then
        let r := f * tenTo e.natAbs
        if r.isInf then none else some r
      else some (f / tenTo e.natAbs)
    else if f == 0.0 then some f
    else if e ≥ 0 then none
    else scale fuel (f / tenTo 308) (e + 308)

/-- The exponent digits as a number, or how many digits are left after the first that leaves 31 bits. -/
def exponentValue : Nat → List Char → Except Nat Nat
  | acc, [] => .ok acc
  | acc, c :: rest =>
    if acc * 10 + digitValue c > 2147483647 then .error rest.length
    else exponentValue (acc * 10 + digitValue c) rest

namespace Numeral

/-- The double with this sign. -/
def signed (negative : Bool) (x : Float) : Float := if negative then -x else x

/-- The value of a numeral; `.error n` if it is out of range, which shows with `n` characters left. -/
def value (s : Numeral) : Except Nat Number :=
  let (word, left) := takeDigits 0 s.whole
  match s.fraction, s.exponent, left with
  | none, none, [] =>
    if !s.negative then .ok (.int word)
    else if word = 0 ∨ word > Word.count / 2 then .ok (.real (-(Decimal.ofInt word)))
    else .ok (.int (-(word : Int)))
  | fraction, exponent, left =>
    let (word, dropped) := match fraction with
      | none => (word, [])
      | some ds => takeDigits word ds
    let kept := (fraction.getD []).length - dropped.length
    let start : Int := (left.length : Int) - kept
    match exponent with
    | none => finish word start
    | some (down, digits) =>
      match exponentValue 0 digits with
      | .ok e => finish word (if down then start - e else start + e)
      | .error left =>
        if word ≠ 0 ∧ !down then .error left
        else .ok (.real (signed s.negative 0.0))
where
  finish (word : Nat) (e : Int) : Except Nat Number :=
    match scale 8 (Decimal.ofInt word) e with
    | some f => .ok (.real (signed s.negative f))
    | none => .error 0

end Numeral
end Json
end ArmPilot
