import ArmPilot.Decimal.Binary

/-!
# Shortest decimal digits of a double

Every finite nonzero double owns an interval of reals that round to it.  `Digits.ofBinary` returns the
fewest decimal digits that name a point of that interval and, among those, the nearest to the value:
for one, two, … digits it looks at the two neighbours of the value on that decimal grid, and stops at
the first grid on which one of them lies in the interval.
-/

namespace ArmPilot
namespace Decimal

/-- A positive decimal number `0.d₁d₂… · 10^point`, where `digits` spells `d₁d₂…`. -/
structure Digits where
  digits : Nat
  count : Nat
  point : Int
deriving Repr, DecidableEq

namespace Digits

/-- Fractions are compared by cross multiplication: `a / b ≤ c / d`. -/
def fractionLe (a b c d : Nat) : Bool := a * d ≤ c * b

/-- The interval of a double, as three fractions over one denominator: lower end, value, upper end. -/
structure Interval where
  lower : Nat
  value : Nat
  upper : Nat
  den : Nat
  closed : Bool

/-- The reals that round to a double: half a step on either side, with a shorter step under a power of two. -/
def intervalOf (b : Binary) : Interval :=
  let m := b.mantissa
  let scale := if b.exponent < 0 then 1 else Nat.pow 2 b.exponent.toNat
  let den := 4 * b.denominator
  let low := if m = Binary.hidden ∧ b.exponent > -1074 then 4 * m - 1 else 4 * m - 2
  ⟨low * scale, 4 * m * scale, (4 * m + 2) * scale, den, m % 2 = 0⟩

/-- Whether the fraction `a / b` lies in an interval. -/
def Interval.contains (i : Interval) (a b : Nat) : Bool :=
  if i.closed then fractionLe i.lower i.den a b && fractionLe a b i.upper i.den
  else !(fractionLe a b i.lower i.den) && !(fractionLe i.upper i.den a b)

/-- The point `point` with `10^(point-1) ≤ value < 10^point`, found from a starting guess. -/
def magnitude (num den : Nat) : Nat → Int → Int
  | 0, p => p
  | fuel + 1, p =>
    let reaches (q : Int) : Bool :=
      -- 10^q ≤ num / den
      if q < 0 then den ≤ num * Nat.pow 10 (-q).toNat else den * Nat.pow 10 q.toNat ≤ num
    if reaches p then magnitude num den fuel (p + 1)
    else if reaches (p - 1) then p
    else magnitude num den fuel (p - 1)

/-- The neighbours of the value on the grid of `count` digits, if one of them reads back. -/
def onGrid (i : Interval) (point : Int) (count : Nat) : Option Nat :=
  let step := point - count
  let num := if step < 0 then i.value * Nat.pow 10 (-step).toNat else i.value
  let den := if step < 0 then i.den else i.den * Nat.pow 10 step.toNat
  let below := num / den
  let back (d : Nat) : Bool :=
    if step < 0 then i.contains d (Nat.pow 10 (-step).toNat) else i.contains (d * Nat.pow 10 step.toNat) 1
  let down := back below
  let up := back (below + 1)
  let nearUp : Bool := den < 2 * (num % den) || (den = 2 * (num % den) && below % 2 = 1)
  match down, up with
  | true, true => some (if nearUp then below + 1 else below)
  | true, false => some below
  | false, true => some (below + 1)
  | false, false => none

/-- The first grid with a hit, searched from `count` digits on. -/
def search (i : Interval) (point : Int) : Nat → Nat → Digits
  | 0, count => ⟨i.value / i.den, count, point⟩
  | fuel + 1, count =>
    match onGrid i point count with
    | some d => ⟨d, count, point⟩
    | none => search i point fuel (count + 1)

/-- Drops zeros at the end, and moves the point if the digits carried over into one more place. -/
def normalize : Nat → Digits → Digits
  | 0, d => d
  | fuel + 1, d =>
    if d.digits ≥ Nat.pow 10 d.count then normalize fuel ⟨d.digits, d.count + 1, d.point + 1⟩
    else if d.count > 1 ∧ d.digits % 10 = 0 then normalize fuel ⟨d.digits / 10, d.count - 1, d.point⟩
    else d

/-- The shortest digits of a nonzero finite double. -/
def ofBinary (b : Binary) : Digits :=
  let i := intervalOf b
  let guess : Int := ((Nat.log2 b.mantissa : Int) + b.exponent) * 1233 / 4096
  let point := magnitude i.value i.den 400 guess
  normalize 40 (search i point 17 1)

/-- The digits as characters, padded in front to their count. -/
def chars (d : Digits) : List Char :=
  let text := Nat.toDigits 10 d.digits
  List.replicate (d.count - text.length) '0' ++ text

end Digits

end Decimal
end ArmPilot
