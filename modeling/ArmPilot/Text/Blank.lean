/-!
# Blanks

The characters that separate words, and how a text is freed of those at its ends.
-/

namespace ArmPilot
namespace Text

/-- Characters that take room and show nothing, those that break lines included. -/
def isBlank (c : Char) : Bool :=
  let n := c.toNat
  (9 ≤ n && n ≤ 13) || n = 32 || n = 0x85 || n = 0xA0 || n = 0x1680 || (0x2000 ≤ n && n ≤ 0x200A)
    || n = 0x2028 || n = 0x2029 || n = 0x202F || n = 0x205F || n = 0x3000

/-- The space, the tab and the breaks of lines are blank. -/
theorem isBlank_of_isWhitespace {c : Char} (h : c.isWhitespace = true) : isBlank c = true := by
  simp only [Char.isWhitespace, Bool.or_eq_true, decide_eq_true_eq] at h
  rcases h with ((h | h) | h) | h <;> subst h <;> decide

/-- Characters without the blanks at their ends. -/
def trimmed (cs : List Char) : List Char := ((cs.dropWhile isBlank).reverse.dropWhile isBlank).reverse

/-- A text without the blanks at its ends. -/
def trim (s : String) : String := String.ofList (trimmed s.toList)

end Text
end ArmPilot
