import ArmPilot.Word

/-!
# Binary doubles as exact numbers

A finite double is a sign, a mantissa and a power of two: `±mantissa · 2^exponent`.  `Binary.ofFloat`
takes a double apart and `Binary.toFloat` rounds an exact quotient back to the nearest double, so
that printing, reading and the exact operations below are done on natural numbers alone.
-/

namespace ArmPilot
namespace Decimal

/-- A finite double taken apart: the value is `mantissa · 2^exponent`, negated if `negative`. -/
structure Binary where
  negative : Bool
  mantissa : Nat
  exponent : Int
deriving Repr, DecidableEq

namespace Binary

/-- The bit of a mantissa that a double does not store. -/
def hidden : Nat := 4503599627370496

/-- The parts of a double, whose infinities and NaN are not told apart from finite values here. -/
def ofFloat (x : Float) : Binary :=
  let bits : Nat := x.toBits.toNat
  let fraction : Nat := bits % hidden
  let biased : Nat := bits / hidden % 2048
  if biased = 0 then ⟨bits / 9223372036854775808 = 1, fraction, -1074⟩
  else ⟨bits / 9223372036854775808 = 1, hidden + fraction, (biased : Int) - 1075⟩

/-- The numerator of the absolute value as a fraction. -/
def numerator (b : Binary) : Nat :=
  if b.exponent < 0 then b.mantissa else b.mantissa * Nat.pow 2 b.exponent.toNat

/-- The denominator of the absolute value as a fraction. -/
def denominator (b : Binary) : Nat :=
  if b.exponent < 0 then Nat.pow 2 (-b.exponent).toNat else 1

theorem denominator_pos (b : Binary) : 0 < b.denominator := by
  unfold denominator
  split
  · exact Nat.pow_pos (by decide)
  · decide

/-- The integer part, rounded toward zero. -/
def truncate (b : Binary) : Int :=
  let whole := b.numerator / b.denominator
  if b.negative then -(whole : Int) else whole

/-- Rounds a quotient to the nearest integer, a tie going to the even neighbour. -/
def roundEven (num den : Nat) : Nat :=
  let q := num / den
  let r := num % den
  if 2 * r < den then q
  else if den < 2 * r then q + 1
  else if q % 2 = 0 then q else q + 1

/-- The power of two by which `num / den` is scaled to leave 53 bits, never below the subnormal grid. -/
def scaleOf (num den : Nat) : Int :=
  let guess : Int := (Nat.log2 num : Int) - (Nat.log2 den : Int) - 52
  let below : Bool :=
    -- the quotient lies under 2^(guess + 52)
    if guess + 52 < 0 then num * Nat.pow 2 (-(guess + 52)).toNat < den
    else num < den * Nat.pow 2 (guess + 52).toNat
  max (if below then guess - 1 else guess) (-1074)

/-- The double nearest to the quotient `num / den` of naturals, infinite if it is out of range. -/
def quotient (negative : Bool) (num den : Nat) : Float :=
  let magnitude : Float :=
    if num = 0 then 0.0
    else
      let e := scaleOf num den
      let m := if e < 0 then roundEven (num * Nat.pow 2 (-e).toNat) den else roundEven num (den * Nat.pow 2 e.toNat)
      -- a mantissa that rounds up to 2^53 carries into the exponent field by itself
      let bits := if m < hidden then m else (e + 1075).toNat * hidden + (m - hidden)
      if bits ≥ 0x7FF0000000000000 then Float.ofBits 0x7FF0000000000000
      else Float.ofBits bits.toUInt64
  if negative then -magnitude else magnitude

end Binary

/-- The double nearest to an integer. -/
def ofInt (n : Int) : Float :=
  Binary.quotient (n < 0) n.natAbs 1

/-- The double nearest to `digits · 10^exponent`. -/
def ofScientific (negative : Bool) (digits : Nat) (exponent : Int) : Float :=
  if digits = 0 then (if negative then -0.0 else 0.0)
  else if exponent > 400 then (if negative then -1.0 / 0.0 else 1.0 / 0.0)
  else if exponent + (Nat.log2 digits : Int) < -1200 then (if negative then -0.0 else 0.0)
  else if exponent < 0 then Binary.quotient negative digits (Nat.pow 10 (-exponent).toNat)
  else Binary.quotient negative (digits * Nat.pow 10 exponent.toNat) 1

/-- The remainder of `x` by `y` with the sign of `x`, which is exact. -/
def remainder (x y : Float) : Float :=
  if x.isNaN || y.isNaN || x.isInf || y == 0.0 then 0.0 / 0.0
  else if y.isInf || x == 0.0 then x
  else
    let a := Binary.ofFloat x
    let b := Binary.ofFloat y
    let rest := (a.numerator * b.denominator) % (b.numerator * a.denominator)
    Binary.quotient a.negative rest (a.denominator * b.denominator)

/-- The length of the hypotenuse over `x` and `y`, correctly rounded. -/
def hypotenuse (x y : Float) : Float :=
  if x.isInf || y.isInf then 1.0 / 0.0
  else if x.isNaN || y.isNaN then 0.0 / 0.0
  else
    let a := Binary.ofFloat x
    let b := Binary.ofFloat y
    -- (x² + y²) as a fraction over a square, whose root is taken with 128 spare bits
    let den := a.denominator * b.denominator
    let p := a.numerator * b.denominator
    let q := b.numerator * a.denominator
    let num := p * p + q * q
    let root := natSqrt (num * Nat.pow 2 256)
    let sticky := if root * root = num * Nat.pow 2 256 then 2 * root else 2 * root + 1
    Binary.quotient false sticky (den * Nat.pow 2 129)
where
  /-- The integer square root, by Newton's method from above. -/
  natSqrt (n : Nat) : Nat :=
    if n = 0 then 0 else newton (Nat.log2 n + 2) n (Nat.pow 2 (Nat.log2 n / 2 + 1))
  newton : Nat → Nat → Nat → Nat
    | 0, _, r => r
    | fuel + 1, n, r =>
      let next := (r + n / r) / 2
      if next < r then newton fuel n next else r

/-- The integer nearest to zero below the magnitude of `x`, clamped to the signed 64-bit range. -/
def saturate (x : Float) : Int :=
  if x.isNaN then 0
  else if x.isInf then (if x < 0.0 then Word.least else Word.greatest)
  else max Word.least (min Word.greatest (Binary.ofFloat x).truncate)

/-- Whether a double has no fractional part. -/
def isWhole (x : Float) : Bool :=
  if x.isNaN || x.isInf then false
  else
    let b := Binary.ofFloat x
    b.numerator % b.denominator = 0

end Decimal
end ArmPilot
