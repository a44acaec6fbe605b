import ArmPilot.Lang.Position

/-!
# Reading a script from left to right

A scan is the rest of a script and the place reached in it.  Comments are passed over here.
-/

namespace ArmPilot
namespace Lang

/-- What is left of a script, and the position of the last character taken. -/
structure Scan where
  rest : List Char
  at_ : Position
deriving Repr

namespace Scan

/-- The next character, if there is one. -/
def peek? (s : Scan) : Option Char := s.rest.head?

/-- Takes one character. -/
def step (s : Scan) : Scan :=
  match s.rest with
  | [] => s
  | _ :: rest => ⟨rest, s.at_.advance⟩

/-- Goes on to a later rest on the same line. -/
def goTo (s : Scan) (rest : List Char) : Scan :=
  ⟨rest, ⟨s.at_.line, s.at_.column + (s.rest.length - rest.length)⟩⟩

/-- Takes the characters that satisfy a test. -/
def takeWhile (s : Scan) (p : Char → Bool) : List Char × Scan :=
  (s.rest.takeWhile p, s.goTo (s.rest.dropWhile p))

end Scan

/-- Characters that separate tokens, the line feed aside. -/
def isSeparator (c : Char) : Bool := c = ' ' || c = '\t' || c = '\r' || c.toNat = 12

/-- Skips a comment between slash and star, which may hold others; the end of the text closes it. -/
def skipBlockComment : List Char → Position → Nat → Scan
  | [], p, _ => ⟨[], p⟩
  | '/' :: '*' :: rest, p, level => skipBlockComment rest p.advance.advance (level + 1)
  | '*' :: '/' :: rest, p, level =>
    if level ≤ 1 then ⟨rest, p.advance.advance⟩ else skipBlockComment rest p.advance.advance (level - 1)
  | '\n' :: rest, p, level => skipBlockComment rest p.newLine level
  | _ :: rest, p, level => skipBlockComment rest p.advance level

/-- Skips to the end of a line. -/
def skipLineComment : List Char → Position → Scan
  | [], p => ⟨[], p⟩
  | '\n' :: rest, p => ⟨rest, p.newLine⟩
  | '\r' :: '\n' :: rest, p => ⟨rest, p.newLine⟩
  | '\r' :: rest, p => ⟨rest, p.newLine⟩
  | _ :: rest, p => skipLineComment rest p.advance

end Lang
end ArmPilot
