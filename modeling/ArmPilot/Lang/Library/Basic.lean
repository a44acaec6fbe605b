import ArmPilot.Lang.Operators
import ArmPilot.Limits

/-!
# Built-in functions

A built-in function answers with its result and, if it changes its first argument, with what becomes of
it.  Positions in texts and arrays may count from the end when they are negative.
-/

namespace ArmPilot
namespace Lang

/-- What a built-in function does. -/
structure Answer where
  result : Outcome
  /-- What becomes of the first argument, if the function changes it. -/
  receiver : Option Value

namespace Answer

/-- A result that leaves the arguments alone. -/
def value (v : Value) : Option Answer := some ⟨.ok v, none⟩

/-- A truth value. -/
def bool (b : Bool) : Option Answer := value (.bool b)

/-- An integer. -/
def int (n : Int) : Option Answer := value (.int n)

/-- A double. -/
def float (x : Float) : Option Answer := value (.float x)

/-- A text. -/
def string (s : String) : Option Answer := value (.string s)

/-- A text of characters. -/
def chars (cs : List Char) : Option Answer := value (.string (String.ofList cs))

/-- An array. -/
def array (vs : List Value) : Option Answer := value (.array vs)

/-- A changed first argument, with a result. -/
def changed (receiver result : Value) : Option Answer := some ⟨.ok result, some receiver⟩

/-- A changed first argument. -/
def change (receiver : Value) : Option Answer := changed receiver .unit

/-- A failure. -/
def failed (c : Cause) : Option Answer := some ⟨.error c, none⟩

/-- A failure told by a text. -/
def complaint (s : String) : Option Answer := failed (.thrown (.string s))

end Answer

/-- A place among `size` items, if there is such an item. -/
def indexIn? (size : Nat) (i : Int) : Option Nat :=
  if i < 0 then (if i.natAbs ≤ size then some (size - i.natAbs) else none)
  else if i.toNat < size then some i.toNat else none

/-- A stretch of at most `count` items that begins at a place, as a start and a length. -/
def stretch (size : Nat) (first count : Int) : Nat × Nat :=
  if 0 ≤ first ∧ size ≤ first.toNat then (size, 0)
  else
    let start := if first < 0 then size - min size first.natAbs else first.toNat
    (start, min count.toNat (size - start))

/-- The first place and the length of a range. -/
def rangeStretch (first last : Int) (inclusive : Bool) : Int × Int :=
  let a := max first 0
  let b := max last a
  (a, if inclusive then b - a + 1 else b - a)

/-- The arguments behind the first that name a stretch: a start, a start and a length, or a range. -/
def stretchOf? (size : Nat) : List Value → Option (Nat × Nat)
  | [.int a] => some (stretch size a size)
  | [.int a, .int n] => some (stretch size a n)
  | [.range a b inclusive] =>
    let (a, n) := rangeStretch a b inclusive
    some (stretch size a n)
  | _ => none

/-- The arguments that name a stretch by both its ends: a start and a length, or a range. -/
def closedStretchOf? (size : Nat) : List Value → Option (Nat × Nat)
  | [.int _] => none
  | args => stretchOf? size args

/-- A list without a stretch of it, and the stretch. -/
def cutOut {α : Type} (xs : List α) (start count : Nat) : List α × List α :=
  (xs.take start ++ xs.drop (start + count), (xs.drop start).take count)

/-- A place among `size` items, which counts from the end if it is negative; what lies in front of the first is the first. -/
def startingPlace (size : Nat) (i : Int) : Nat :=
  if i < 0 then size - min size i.natAbs else i.toNat

end Lang
end ArmPilot
