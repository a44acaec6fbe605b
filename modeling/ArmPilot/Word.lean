/-!
# Machine words

Scripts count in signed 64-bit words, and documents in unsigned ones as well.
-/

namespace ArmPilot
namespace Word

/-- The least signed word. -/
def least : Int := -9223372036854775808

/-- The greatest signed word. -/
def greatest : Int := 9223372036854775807

/-- How many words there are. -/
def count : Nat := 18446744073709551616

/-- Whether an integer is a signed word. -/
def holds (n : Int) : Bool := decide (least ≤ n ∧ n ≤ greatest)

/-- The bits of a word as a number. -/
def bits (n : Int) : Nat := (n % count).toNat

/-- The word with the bits of an integer, which wraps around. -/
def wrap (n : Int) : Int := (n - least) % count + least

theorem holds_iff {n : Int} : holds n = true ↔ least ≤ n ∧ n ≤ greatest := decide_eq_true_iff

/-- A word wraps to itself. -/
theorem wrap_of_holds {n : Int} (h : holds n = true) : wrap n = n := by
  have h := holds_iff.1 h
  unfold least greatest at h
  unfold wrap least count
  omega

/-- Wrapping makes a word. -/
theorem holds_wrap (n : Int) : holds (wrap n) = true := by
  refine holds_iff.2 ?_
  unfold wrap least greatest count
  omega

end Word
end ArmPilot
