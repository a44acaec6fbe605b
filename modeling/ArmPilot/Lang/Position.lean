/-!
# Positions in a script

A position is a line and a place on that line, both counted from one; a message about code that has no
place in the text has none.
-/

namespace ArmPilot
namespace Lang

/-- A place in a script. -/
structure Position where
  line : Nat
  column : Nat
deriving Repr, DecidableEq, Inhabited

/-- A place that may be unknown. -/
abbrev Place := Option Position

namespace Position

/-- In front of the first character. -/
def start : Position := ⟨1, 0⟩

/-- One character on. -/
def advance (p : Position) : Position := ⟨p.line, p.column + 1⟩

/-- In front of the next line. -/
def newLine (p : Position) : Position := ⟨p.line + 1, 0⟩

/-- How a position is named in messages. -/
def text (p : Position) : String :=
  "line " ++ toString p.line ++ ", position " ++ toString p.column

end Position

/-- The end of a message that names its position, if it has one. -/
def Place.suffix : Place → String
  | none => ""
  | some p => " (" ++ p.text ++ ")"

/-- A position for a message that has none yet. -/
def Place.orElse (p q : Place) : Place :=
  match p with
  | some _ => p
  | none => q

end Lang
end ArmPilot
