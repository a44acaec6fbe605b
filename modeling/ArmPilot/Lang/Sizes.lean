import ArmPilot.Lang.Failure
import ArmPilot.Limits

/-!
# Sizes of values

The items of arrays, plain bytes among them, the members of maps and the bytes of texts in a value are counted through all of its parts, and
each count has a limit.  A limit of zero is none.
-/

namespace ArmPilot
namespace Lang

/-- The sizes of the data in a value: items of arrays, members of maps, and bytes of texts. -/
structure Sizes where
  array : Nat
  map : Nat
  text : Nat

/-- Sizes taken together. -/
def Sizes.add (a b : Sizes) : Sizes := ⟨a.array + b.array, a.map + b.map, a.text + b.text⟩

/-- The sizes of a number of like values. -/
def Sizes.times (s : Sizes) (n : Nat) : Sizes := ⟨s.array * n, s.map * n, s.text * n⟩

namespace Value

mutual

/-- The sizes of a value with all that it holds. -/
def sizes : Value → Sizes
  | .string s => ⟨0, 0, s.utf8ByteSize⟩
  | .array items => itemSizes items
  | .map members => memberSizes members
  | .bytes bs => ⟨bs.length, 0, 0⟩
  | _ => ⟨0, 0, 0⟩

/-- The sizes of the items of an array. -/
def itemSizes : List Value → Sizes
  | [] => ⟨0, 0, 0⟩
  | v :: rest => Sizes.add ⟨1, 0, 0⟩ (Sizes.add (sizes v) (itemSizes rest))

/-- The sizes of the members of a map. -/
def memberSizes : List (String × Value) → Sizes
  | [] => ⟨0, 0, 0⟩
  | (_, v) :: rest => Sizes.add ⟨0, 1, 0⟩ (Sizes.add (sizes v) (memberSizes rest))

end

end Value

/-- The bounded size that sizes exceed, if there is one. -/
def Sizes.exceeded? (s : Sizes) (l : Limits) : Option Bulk :=
  if l.maxString > 0 ∧ s.text > l.maxString then some .text
  else if l.maxArray > 0 ∧ s.array > l.maxArray then some .array
  else if l.maxMap > 0 ∧ s.map > l.maxMap then some .map
  else none

/-- The bounded size that a value exceeds, if there is one. -/
def Value.tooLarge? (l : Limits) (v : Value) : Option Bulk :=
  match v with
  | .string _ | .array _ | .map _ | .bytes _ => v.sizes.exceeded? l
  | _ => none

/-- A text for a value, or the name of its type if that text is too long. -/
def Value.textOrType (l : Limits) (text : Value → String) (v : Value) : String :=
  if ((Value.string (text v)).tooLarge? l).isSome then v.typeName else text v

/-- A value as it is joined with a text. -/
def Value.joined (l : Limits) (v : Value) : Value :=
  match v with
  | .string _ | .char _ | .bytes _ => v
  | v => .string (v.textOrType l printed)

/-- The operands of an infix operator, where the one that is joined with a text has become a text. -/
def joinedOperands (l : Limits) (op : Mark) (v w : Value) : Value × Value :=
  match op, v, w with
  | .plus, .string _, w => (v, w.joined l)
  | .plus, v, .string _ => (v.joined l, w)
  | _, v, w => (v, w)

end Lang
end ArmPilot
