/-!
# Digits

Which characters are digits, and what they are worth.
-/

namespace ArmPilot
namespace Text

/-- Whether a character is a decimal digit. -/
def isDigit (c : Char) : Bool := 48 ≤ c.toNat && c.toNat ≤ 57

/-- The value of a digit in any base up to sixteen. -/
def hexValue? (c : Char) : Option Nat :=
  let n := c.toNat
  if 48 ≤ n ∧ n ≤ 57 then some (n - 48)
  else if 97 ≤ n ∧ n ≤ 102 then some (n - 87)
  else if 65 ≤ n ∧ n ≤ 70 then some (n - 55)
  else none

/-- Whether a character is a digit in a base. -/
def isDigitIn (base : Nat) (c : Char) : Bool :=
  match hexValue? c with
  | some d => decide (d < base)
  | none => false

/-- The number that digits stand for in a base. -/
def numberIn (base : Nat) (cs : List Char) : Nat := cs.foldl (fun n c => n * base + (hexValue? c).getD 0) 0

/-- The digits of a number in base sixteen. -/
def hexDigits (n : Nat) : String := String.ofList (Nat.toDigits 16 n)

/-- A digit is worth less than sixteen. -/
theorem hexValue?_lt {c : Char} {d : Nat} (h : hexValue? c = some d) : d < 16 := by
  grind [hexValue?]

/-- The decimal digits are the digits in base ten. -/
theorem isDigitIn_ten (c : Char) : isDigitIn 10 c = isDigit c := by
  grind [isDigitIn, isDigit, hexValue?]

end Text
end ArmPilot
