import ArmPilot.Proofs.Pass.Steps

/-!
# Structured programs

A list of commands as its author means it: statements with a condition, a block that is run if the condition holds,
and another that is run if it does not, nested to any depth.  A structured program is run by recursion on its tree,
without any skipping: what is not to be run is passed by.
-/

namespace ArmPilot
namespace Run

variable {σ : Type}

/-! ## The commands of a structured program -/

/-- A command that is no mark. -/
abbrev Plain (σ : Type) := { c : Command σ // c.part = .plain }

/-- A mark: a command that goes on whenever it is run, whatever it remembers. -/
structure Marker (σ : Type) (part : Part) where
  command : Command σ
  part_eq : command.part = part
  proceeds : ∀ memory m s, ((command.remember memory).run m s).1 = .ok .proceed

mutual

/-- Statements one behind the other. -/
inductive Body (σ : Type) where
  | nil
  | cons (s : Statement σ) (rest : Body σ)

/-- A command or a block, which may stand behind a command as its condition, and another block for the case that the
condition does not hold. -/
inductive Statement (σ : Type) where
  | bare (c : Plain σ) (other : Otherwise σ)
  | guarded (condition : Option (Plain σ)) (b : Block σ) (other : Otherwise σ)

/-- The block of a statement that is run if its condition does not hold, behind the else mark. -/
inductive Otherwise (σ : Type) where
  | absent
  | present (mark : Marker σ .elseMark) (b : Block σ)

/-- A body between a start and an end. -/
inductive Block (σ : Type) where
  | mk (start : Marker σ .startBlock) (body : Body σ) (stop : Marker σ .endBlock)

end

/-- Whether a statement is a command alone. -/
def Statement.isLone : Statement σ → Bool
  | .bare _ .absent => true
  | _ => false

/-- Whether a statement starts with a block. -/
def Statement.startsBlock : Statement σ → Bool
  | .guarded none _ _ => true
  | _ => false

/-- Whether a body starts with a block. -/
def Body.startsBlock : Body σ → Bool
  | .nil => false
  | .cons s _ => s.startsBlock

mutual

/-- Whether no command that stands alone is right in front of a statement that starts with a block, which would be
taken for the block of the command. -/
def Body.Separated : Body σ → Prop
  | .nil => True
  | .cons s rest => s.Separated ∧ (s.isLone = true → rest.startsBlock = false) ∧ rest.Separated

/-- The same inside a statement. -/
def Statement.Separated : Statement σ → Prop
  | .bare _ other => other.Separated
  | .guarded _ b other => b.Separated ∧ other.Separated

/-- The same inside the block for the other case. -/
def Otherwise.Separated : Otherwise σ → Prop
  | .absent => True
  | .present _ b => b.Separated

/-- The same inside a block. -/
def Block.Separated : Block σ → Prop
  | .mk _ body _ => body.Separated

end

/-- A structured program. -/
structure Program (σ : Type) where
  body : Body σ
  separated : body.Separated

mutual

/-- The commands of a body in their order. -/
def Body.flatten : Body σ → List (Command σ)
  | .nil => []
  | .cons s rest => s.flatten ++ rest.flatten

/-- The commands of a statement in their order. -/
def Statement.flatten : Statement σ → List (Command σ)
  | .bare c other => c.val :: other.flatten
  | .guarded none b other => b.flatten ++ other.flatten
  | .guarded (some c) b other => c.val :: (b.flatten ++ other.flatten)

/-- The else mark and the commands of its block. -/
def Otherwise.flatten : Otherwise σ → List (Command σ)
  | .absent => []
  | .present mark b => mark.command :: b.flatten

/-- The commands of a block with its marks. -/
def Block.flatten : Block σ → List (Command σ)
  | .mk start body stop => start.command :: (body.flatten ++ [stop.command])

end

/-! ## Running a structured program -/

/-- How the run of a command decides what comes next. -/
inductive Verdict where
  | holds
  | fails
  /-- The pass ends. -/
  | exits
  /-- The pass ends, and so does the program. -/
  | kills

/-- The verdict of a run; a condition at which a command breaks down does not hold. -/
def Verdict.of : Except Breakdown Signal → Verdict
  | .ok .proceed => .holds
  | .ok .skip | .error _ => .fails
  | .ok .exit => .exits
  | .ok .kill => .kills

/-- The scene behind the run of a command of a kind. -/
def Verdict.leave (v : Verdict) (kind : String) (s : Scene σ) : Scene σ :=
  match v with
  | .kills => s.onWorld (endProgram kind)
  | .holds | .fails | .exits => s

/-- Runs a command: the verdict, the command with its memory from then on, and the scene. -/
def Plain.run (m : Moment) (c : Plain σ) (s : Scene σ) : Verdict × Plain σ × Scene σ :=
  (.of (c.val.run m s).1, ⟨(c.val.run m s).2.1, c.property⟩,
    (Verdict.of (c.val.run m s).1).leave c.val.kind (runGuarded m c.val s).2.2)

/-- What came of a piece of a program in a pass. -/
structure Passage (σ α : Type) where
  /-- The places of the commands that were run. -/
  executed : List Nat
  /-- Whether the pass ended here, and if so, whether a command ended the program. -/
  ended : Option Bool
  /-- The piece with its memories from then on. -/
  left : α
  scene : Scene σ

namespace Passage

variable {α β : Type}

/-- A passage through a piece that is part of another. -/
def map (f : α → β) (p : Passage σ α) : Passage σ β := ⟨p.executed, p.ended, f p.left, p.scene⟩

/-- A passage behind the run of a command. -/
def behind (i : Nat) (p : Passage σ α) : Passage σ α := { p with executed := i :: p.executed }

/-- A passage through two pieces; if the pass ends in the first, the second stays as it is. -/
def andThen (p : Passage σ α) (next : Scene σ → Passage σ β) (idle : β) : Passage σ (α × β) :=
  match p.ended with
  | some killed => ⟨p.executed, some killed, (p.left, idle), p.scene⟩
  | none =>
    let q := next p.scene
    ⟨p.executed ++ q.executed, q.ended, (p.left, q.left), q.scene⟩

end Passage

/-- Runs a mark, unless the pass is responsive and the run is asked to stop. -/
def Marker.visit {part : Part} (responsive : Bool) (m : Moment) (mark : Marker σ part) (i : Nat) (s : Scene σ) :
    Passage σ (Marker σ part) :=
  if responsive && s.world.cancelled then ⟨[], some false, mark, s⟩
  else
    let (_, _, s') := runGuarded m mark.command s
    ⟨[i], none, { mark with command := (mark.command.run m s).2.1 }, s'⟩

/-- Runs a command, unless the pass is responsive and the run is asked to stop, and goes on as it decides; `whole` is
the statement of the command. -/
def Plain.decide {α : Type} (responsive : Bool) (m : Moment) (c : Plain σ) (i : Nat) (s : Scene σ)
    (whole : Plain σ → α) (holds fails : Plain σ → Scene σ → Passage σ α) : Passage σ α :=
  if responsive && s.world.cancelled then ⟨[], some false, whole c, s⟩
  else
    match c.run m s with
    | (.holds, c, s) => (holds c s).behind i
    | (.fails, c, s) => (fails c s).behind i
    | (.exits, c, s) => ⟨[i], some false, whole c, s⟩
    | (.kills, c, s) => ⟨[i], some true, whole c, s⟩

mutual

/-- Runs the statements of a body, the first of which has its first command at a place. -/
def Body.run (responsive : Bool) (m : Moment) : Body σ → Nat → Scene σ → Passage σ (Body σ)
  | .nil, _, s => ⟨[], none, .nil, s⟩
  | .cons st rest, i, s =>
    ((st.run responsive m i s).andThen (fun s => rest.run responsive m (i + st.flatten.length) s) rest).map
      fun ps => .cons ps.1 ps.2

/-- Runs a statement: the block if there is no condition or it holds, else the block for the other case. -/
def Statement.run (responsive : Bool) (m : Moment) : Statement σ → Nat → Scene σ → Passage σ (Statement σ)
  | .bare c other, i, s =>
    c.decide responsive m i s (.bare · other) (fun c s => ⟨[], none, .bare c other, s⟩)
      fun c s => (other.run responsive m (i + 1) s).map (.bare c ·)
  | .guarded none b other, i, s => (b.run responsive m i s).map (.guarded none · other)
  | .guarded (some c) b other, i, s =>
    c.decide responsive m i s (fun c => .guarded (some c) b other)
      (fun c s => (b.run responsive m (i + 1) s).map (.guarded (some c) · other))
      fun c s => (other.run responsive m (i + 1 + b.flatten.length) s).map (.guarded (some c) b ·)

/-- Runs the block for the other case, if there is one. -/
def Otherwise.run (responsive : Bool) (m : Moment) : Otherwise σ → Nat → Scene σ → Passage σ (Otherwise σ)
  | .absent, _, s => ⟨[], none, .absent, s⟩
  | .present mark b, i, s =>
    ((mark.visit responsive m i s).andThen (fun s => b.run responsive m (i + 1) s) b).map
      fun ps => .present ps.1 ps.2

/-- Runs a block with its marks. -/
def Block.run (responsive : Bool) (m : Moment) : Block σ → Nat → Scene σ → Passage σ (Block σ)
  | .mk start body stop, i, s =>
    ((start.visit responsive m i s).andThen (fun s =>
        (body.run responsive m (i + 1) s).andThen (fun s =>
          stop.visit responsive m (i + 1 + body.flatten.length) s) stop) (body, stop)).map
      fun ps => .mk ps.1 ps.2.1 ps.2.2

end

/-! ## A program keeps its shape -/

variable {responsive : Bool} {m : Moment}

theorem Plain.left_decide {α : Type} {Q : α → Prop} {c : Plain σ} {i : Nat} {s : Scene σ} {whole : Plain σ → α}
    {holds fails : Plain σ → Scene σ → Passage σ α} (hwhole : ∀ c, Q (whole c))
    (hholds : ∀ c s, Q (holds c s).left) (hfails : ∀ c s, Q (fails c s).left) :
    Q (c.decide responsive m i s whole holds fails).left := by
  unfold Plain.decide
  split
  · exact hwhole c
  · match c.run m s with
    | (.holds, c, s) => exact hholds c s
    | (.fails, c, s) => exact hfails c s
    | (.exits, c, _) | (.kills, c, _) => exact hwhole c

namespace Passage

variable {α β : Type}

theorem left_andThen_fst (p : Passage σ α) (second : Scene σ → Passage σ β) (idle : β) :
    (p.andThen second idle).left.1 = p.left := by
  unfold andThen
  split <;> rfl

theorem left_andThen_snd {Q : β → Prop} {p : Passage σ α} {second : Scene σ → Passage σ β} {idle : β} (hidle : Q idle)
    (h : ∀ s, Q (second s).left) : Q (p.andThen second idle).left.2 := by
  unfold andThen
  split
  · exact hidle
  · exact h _

end Passage

theorem Statement.isLone_run (st : Statement σ) (i : Nat) (s : Scene σ) :
    (st.run responsive m i s).left.isLone = st.isLone := by
  match st with
  | .bare _ .absent | .bare _ (.present _ _) | .guarded (some _) _ _ =>
    exact Plain.left_decide (Q := fun left : Statement σ => left.isLone = _) (fun _ => rfl) (fun _ _ => rfl)
      fun _ _ => rfl
  | .guarded none _ _ => rfl

theorem Statement.startsBlock_run (st : Statement σ) (i : Nat) (s : Scene σ) :
    (st.run responsive m i s).left.startsBlock = st.startsBlock := by
  match st with
  | .bare _ _ | .guarded (some _) _ _ =>
    exact Plain.left_decide (Q := fun left : Statement σ => left.startsBlock = _) (fun _ => rfl) (fun _ _ => rfl)
      fun _ _ => rfl
  | .guarded none _ _ => rfl

theorem Body.startsBlock_run (b : Body σ) (i : Nat) (s : Scene σ) :
    (b.run responsive m i s).left.startsBlock = b.startsBlock := by
  match b with
  | .nil => rfl
  | .cons st rest =>
    show ((st.run responsive m i s).andThen _ rest).left.1.startsBlock = st.startsBlock
    rw [Passage.left_andThen_fst, st.startsBlock_run]

mutual

/-- A body that was run is separated as before. -/
theorem Body.separated_run : ∀ b : Body σ, b.Separated → ∀ (i : Nat) (s : Scene σ),
    (b.run responsive m i s).left.Separated
  | .nil, _, _, _ => trivial
  | .cons st rest, hb, i, s => by
    refine ⟨?_, ?_, ?_⟩
    · rw [Passage.left_andThen_fst]
      exact st.separated_run hb.1 i s
    · rw [Passage.left_andThen_fst, st.isLone_run]
      intro h
      exact Passage.left_andThen_snd (Q := fun left : Body σ => left.startsBlock = false) (hb.2.1 h) fun s => by
        rw [rest.startsBlock_run, hb.2.1 h]
    · exact Passage.left_andThen_snd hb.2.2 fun s => rest.separated_run hb.2.2 _ s

theorem Statement.separated_run : ∀ st : Statement σ, st.Separated → ∀ (i : Nat) (s : Scene σ),
    (st.run responsive m i s).left.Separated
  | .bare _ other, hst, _, _ =>
    Plain.left_decide (Q := Statement.Separated) (fun _ => hst) (fun _ _ => hst)
      fun _ s => other.separated_run hst _ s
  | .guarded none b _, hst, i, s => ⟨b.separated_run hst.1 i s, hst.2⟩
  | .guarded (some _) b other, hst, _, _ =>
    Plain.left_decide (Q := Statement.Separated) (fun _ => hst) (fun _ s => ⟨b.separated_run hst.1 _ s, hst.2⟩)
      fun _ s => ⟨hst.1, other.separated_run hst.2 _ s⟩

theorem Otherwise.separated_run : ∀ other : Otherwise σ, other.Separated → ∀ (i : Nat) (s : Scene σ),
    (other.run responsive m i s).left.Separated
  | .absent, _, _, _ => trivial
  | .present _ b, hb, _, _ => Passage.left_andThen_snd (Q := Block.Separated) hb fun s => b.separated_run hb _ s

theorem Block.separated_run : ∀ b : Block σ, b.Separated → ∀ (i : Nat) (s : Scene σ),
    (b.run responsive m i s).left.Separated
  | .mk _ body stop, hb, i, s =>
    Passage.left_andThen_snd (Q := fun left : Body σ × Marker σ .endBlock => left.1.Separated) hb fun s => by
      rw [Passage.left_andThen_fst]
      exact body.separated_run hb _ s

end

/-! ## Programs -/

namespace Program

/-- The commands of a program in their order. -/
def flatten (p : Program σ) : List (Command σ) := p.body.flatten

/-- Runs a program. -/
def run (responsive : Bool) (m : Moment) (p : Program σ) (s : Scene σ) : Passage σ (Program σ) :=
  let q := p.body.run responsive m 0 s
  ⟨q.executed, q.ended, ⟨q.left, p.body.separated_run p.separated 0 s⟩, q.scene⟩

end Program

end Run
end ArmPilot
