/-!
# Sets of characters

A set of characters is kept as the numbers at which membership changes, in rising order: those that are odd in
number up to a character say that it belongs to the set.
-/

namespace ArmPilot
namespace Text

/-- A set of characters, by the numbers of the characters at which it begins or ends. -/
structure Spans where
  bounds : Array Nat

namespace Spans

/-- How many bounds are at most a number, given that those in front of `low` are and those from `high` on are not. -/
def countFrom (s : Spans) (n : Nat) : Nat → Nat → Nat → Nat
  | 0, low, _ => low
  | fuel + 1, low, high =>
    if low < high then
      let middle := (low + high) / 2
      if (s.bounds[middle]?).getD 0 ≤ n then countFrom s n fuel (middle + 1) high else countFrom s n fuel low middle
    else low

/-- How many bounds are at most a number. -/
def count (s : Spans) (n : Nat) : Nat := s.countFrom n s.bounds.size 0 s.bounds.size

/-- Whether a character belongs to the set. -/
def contains (s : Spans) (c : Char) : Bool := s.count c.toNat % 2 = 1

/-- The search stays between its ends. -/
theorem countFrom_le (s : Spans) (n fuel low high : Nat) (h : low ≤ high) :
    low ≤ s.countFrom n fuel low high ∧ s.countFrom n fuel low high ≤ high := by
  induction fuel generalizing low high with
  | zero => exact ⟨Nat.le_refl _, h⟩
  | succ fuel ih =>
    unfold countFrom
    split
    · dsimp only
      split
      · have := ih ((low + high) / 2 + 1) high (by omega)
        omega
      · have := ih low ((low + high) / 2) (by omega)
        omega
    · omega

end Spans

end Text
end ArmPilot
