import ArmPilot.Command.Basic

/-!
# A pass over the commands of an event

The commands of an event are run one after the other.  A condition that does not hold skips the block right
behind it; one that holds skips the other block, behind the else mark.  A block that is never closed reaches to
the end of the list.
-/

namespace ArmPilot
namespace Run

variable {σ : Type}

/-- How many of the parts belong to the open block, of which `depth` lie inside another. -/
def insideBlock : Nat → List Part → Nat
  | _, [] => 0
  | depth, .startBlock :: rest => insideBlock (depth + 1) rest + 1
  | 0, .endBlock :: _ => 1
  | depth + 1, .endBlock :: rest => insideBlock depth rest + 1
  | depth, _ :: rest => insideBlock depth rest + 1

/-- How many of the parts form the block that begins with the first, if one begins there. -/
def blockLength : List Part → Nat
  | .startBlock :: rest => insideBlock 0 rest + 1
  | _ => 0

/-- The last place of the block that follows a place, or the place itself if none does. -/
def skipBlock (parts : List Part) (i : Nat) : Nat := i + blockLength (parts.drop (i + 1))

theorem insideBlock_le (depth : Nat) (parts : List Part) : insideBlock depth parts ≤ parts.length := by
  fun_induction insideBlock depth parts <;> simp_all

theorem blockLength_le (parts : List Part) : blockLength parts ≤ parts.length := by
  unfold blockLength
  split
  · simp [insideBlock_le]
  · exact Nat.zero_le _

/-- A block is skipped forward. -/
theorem le_skipBlock (parts : List Part) (i : Nat) : i ≤ skipBlock parts i := Nat.le_add_right _ _

/-- How many of the commands are skipped if their first block is not to be run. -/
def guarded (cs : List (Command σ)) : Nat := blockLength (cs.map Command.part)

/-- What a pass over commands did. -/
structure Pass (σ : Type) where
  /-- The places of the commands that were run. -/
  executed : List Nat
  /-- Whether a command ended the program. -/
  killed : Bool
  /-- The commands with their memories after the pass. -/
  commands : List (Command σ)

/-- A pass after a command was run at a place and others were passed over. -/
def Pass.behind (p : Pass σ) (i : Nat) (c : Command σ) (passed : List (Command σ)) : Pass σ :=
  { p with executed := i :: p.executed, commands := c :: passed ++ p.commands }

/-- The target of what a run tells. -/
def target : String := "armscript::engine"

/-- Runs a command; a breakdown is told and counts as a condition that does not hold. -/
def runGuarded (m : Moment) (c : Command σ) (s : Scene σ) : Signal × Command σ × Scene σ :=
  match c.run m s with
  | (.ok signal, c, s) =>
    (signal, c, s.onWorld (·.note .trace target (c.kind ++ " -> " ++ signal.name)))
  | (.error b, c, s) =>
    (.skip, c, s.onWorld (·.note .error target (c.kind ++ " panicked: " ++ b.text)))

/-- What a command that ends the program does to its world. -/
def endProgram (kind : String) (w : World σ) : World σ :=
  (w.note .info target (kind ++ " ended the program")).cancel

/-- How many of the commands behind one that holds are passed over: the else mark with its block, if one is next. -/
def elseLength : List (Command σ) → Nat
  | [] => 0
  | c :: rest => if c.part = .elseMark then guarded rest + 1 else 0

/-- The pass over the commands from a place on.  If it is `responsive`, it ends when the run is asked to stop. -/
def interpretFrom (responsive : Bool) (m : Moment) (i : Nat) (cs : List (Command σ)) (s : Scene σ) :
    Pass σ × Scene σ :=
  match cs with
  | [] => (⟨[], false, []⟩, s)
  | c :: rest =>
    if responsive && s.world.cancelled then (⟨[], false, c :: rest⟩, s)
    else
      let (signal, c, s) := runGuarded m c s
      match signal with
      | .kill => (⟨[i], true, c :: rest⟩, s.onWorld (endProgram c.kind))
      | .exit => (⟨[i], false, c :: rest⟩, s)
      | .skip =>
        let n := guarded rest
        let (p, s) := interpretFrom responsive m (i + 1 + n) (rest.drop n) s
        (p.behind i c (rest.take n), s)
      | .proceed =>
        let n := elseLength rest
        let (p, s) := interpretFrom responsive m (i + 1 + n) (rest.drop n) s
        (p.behind i c (rest.take n), s)
termination_by cs.length
decreasing_by all_goals (simp only [List.length_drop, List.length_cons]; omega)

/-- The pass over all commands of an event. -/
def interpret (responsive : Bool) (m : Moment) (cs : List (Command σ)) (s : Scene σ) : Pass σ × Scene σ :=
  interpretFrom responsive m 0 cs s

end Run
end ArmPilot
