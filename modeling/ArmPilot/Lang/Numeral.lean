import ArmPilot.Word
import ArmPilot.Text.Digits
import ArmPilot.Lang.Token
import ArmPilot.Decimal.Reader

/-!
# Numbers in a script

A number is spelt out first, up to the character that cannot belong to it, and then read as a whole.  Its first
point belongs to it unless a name, another point or nothing follows: in brackets `1.` is a double, `1.len` is not.
A number that names its base has neither a point nor an exponent, and no point follows an exponent.
-/

namespace ArmPilot
namespace Lang

/-- A number as it is spelt: its characters in reverse, without separators, its base if it names one, and what
follows it. -/
structure Numeral where
  spelt : List Char
  base : Option Nat
  rest : List Char

namespace Numeral

/-- The base of a number by the letter behind its zero. -/
def base? (c : Char) : Option Nat :=
  if c = 'x' ∨ c = 'X' then some 16
  else if c = 'o' ∨ c = 'O' then some 8
  else if c = 'b' ∨ c = 'B' then some 2
  else none

/-- Whether a point in front of what follows belongs to a number, and then a zero behind it if no digit does. -/
def point? : Option Char → Option (List Char)
  | none => none
  | some d =>
    if Text.isDigit d then some ['.']
    else if d = '_' ∨ d = '.' ∨ isNameStart d then none
    else some ['0', '.']

/-- Whether the letter of an exponent in front of what follows belongs to a number. -/
def startsExponent : Option Char → Bool
  | none => false
  | some d => Text.isDigit d || d = '+' || d = '-'

/-- Goes on behind the characters of a number; behind the letter of an exponent a sign belongs to it too. -/
def spell (spelt : List Char) (base : Option Nat) (signed : Bool) : List Char → Numeral
  | [] => ⟨spelt, base, []⟩
  | c :: rest =>
    if signed ∧ (c = '+' ∨ c = '-') then spell (c :: spelt) base false rest
    else if c = '_' then spell spelt base false rest
    else if Text.isDigitIn (base.getD 10) c then spell (c :: spelt) base false rest
    else if c = '.' ∧ base.isNone ∧ !spelt.contains '.' ∧ !spelt.contains 'e' then
      match point? rest.head? with
      | some written => spell (written ++ spelt) base false rest
      | none => ⟨spelt, base, c :: rest⟩
    else if c = 'e' ∧ base.isNone ∧ !spelt.contains 'e' then
      if startsExponent rest.head? then spell (c :: spelt) base true rest else ⟨spelt, base, c :: rest⟩
    else
      match (if spelt = ['0'] then base? c else none) with
      | some b => spell (c :: spelt) (some b) false rest
      | none => ⟨spelt, base, c :: rest⟩

/-- The bits of a word in the base that it names; the digits stand behind two other characters. -/
def ofBits (base : Nat) (text : List Char) : Token :=
  let ds := text.drop 2
  let n := Text.numberIn base ds
  if ds.isEmpty || !ds.all (Text.isDigitIn base) || n ≥ Word.count then .fault (.malformedNumber (String.ofList ds))
  else .int (Word.wrap n)

/-- An integer if it is a word, else a double. -/
def ofDecimal (negative : Bool) (text : List Char) : Token :=
  let spelt := String.ofList (if negative then '-' :: text else text)
  let double : Token := match Decimal.digits? negative text with
    | some x => .float x spelt
    | none => .fault (.malformedNumber spelt)
  if text.all Text.isDigit then
    let n : Int := Text.numberIn 10 text
    let n := if negative then -n else n
    if Word.holds n then .int n else double
  else double

/-- The token that a number stands for.  A number with a base takes no sign. -/
def token (negative : Bool) (n : Numeral) : Token :=
  let text := n.spelt.reverse
  match n.base with
  | some b => ofBits b (if negative then '-' :: text else text)
  | none => ofDecimal negative text

end Numeral

end Lang
end ArmPilot
