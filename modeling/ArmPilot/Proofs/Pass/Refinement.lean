import ArmPilot.Proofs.Pass.Blocks
import ArmPilot.Proofs.Pass.Structured

/-!
# A pass over a structured program

The pass over the commands of a structured program does what the program says (`interpret_flatten`): it runs the
commands at the same places, in the same scenes, and leaves the commands of a structured program behind.  Its blocks
are balanced, so that what is skipped from a condition is the block of its statement, at any depth.
-/

namespace ArmPilot
namespace Run

variable {σ : Type}

/-! ## The parts of a structured program -/

/-- The part of the first command. -/
def headPart (cs : List (Command σ)) : Option Part := cs.head?.map Command.part

theorem elseLength_of_headPart {cs : List (Command σ)} (h : headPart cs ≠ some .elseMark) : elseLength cs = 0 := by
  match cs with
  | [] => rfl
  | c :: rest => exact if_neg fun hc => h (congrArg some hc)

theorem guarded_of_headPart {cs : List (Command σ)} (h : headPart cs ≠ some .startBlock) : guarded cs = 0 := by
  refine blockLength_of_head? fun hc => h ?_
  rw [List.head?_map] at hc
  exact hc

/-- A statement begins with its condition or with the start of its block. -/
theorem Statement.headPart_flatten (st : Statement σ) (tail : List (Command σ)) :
    headPart (st.flatten ++ tail) = some (if st.startsBlock then .startBlock else .plain) := by
  match st with
  | .bare c _ => exact congrArg some c.property
  | .guarded (some c) _ _ => exact congrArg some c.property
  | .guarded none (.mk start _ _) _ => exact congrArg some start.part_eq

theorem Block.headPart_flatten (b : Block σ) (tail : List (Command σ)) :
    headPart (b.flatten ++ tail) = some .startBlock := by
  match b with
  | .mk start _ _ => exact congrArg some start.part_eq

/-- A body does not begin with an else mark unless what is behind it does. -/
theorem Body.headPart_flatten_ne_elseMark (b : Body σ) {tail : List (Command σ)}
    (h : headPart tail ≠ some .elseMark) : headPart (b.flatten ++ tail) ≠ some .elseMark := by
  match b with
  | .nil => exact h
  | .cons st rest =>
    rw [Body.flatten, List.append_assoc, st.headPart_flatten]
    split <;> exact fun h => nomatch h

/-- A body does not begin with a block unless its first statement does, or what is behind it. -/
theorem Body.headPart_flatten_ne_startBlock {b : Body σ} (hb : b.startsBlock = false) {tail : List (Command σ)}
    (h : headPart tail ≠ some .startBlock) : headPart (b.flatten ++ tail) ≠ some .startBlock := by
  match b with
  | .nil => exact h
  | .cons st rest =>
    have hst : st.startsBlock = false := hb
    rw [Body.flatten, List.append_assoc, st.headPart_flatten, hst]
    exact fun h => nomatch h

mutual

/-- The parts of a body are balanced. -/
theorem Body.balanced : ∀ b : Body σ, Balanced (b.flatten.map Command.part)
  | .nil => Balanced.nil
  | .cons st rest => by
    rw [Body.flatten, List.map_append]
    exact st.balanced.append rest.balanced

theorem Statement.balanced : ∀ st : Statement σ, Balanced (st.flatten.map Command.part)
  | .bare c other => by
    rw [Statement.flatten, List.map_cons, c.property]
    exact other.balanced.cons (by decide) (by decide)
  | .guarded none b other => by
    rw [Statement.flatten, List.map_append]
    exact b.balanced.append other.balanced
  | .guarded (some c) b other => by
    rw [Statement.flatten, List.map_cons, c.property, List.map_append]
    exact (b.balanced.append other.balanced).cons (by decide) (by decide)

theorem Otherwise.balanced : ∀ other : Otherwise σ, Balanced (other.flatten.map Command.part)
  | .absent => Balanced.nil
  | .present mark b => by
    rw [Otherwise.flatten, List.map_cons, mark.part_eq]
    exact b.balanced.cons (by decide) (by decide)

theorem Block.balanced : ∀ b : Block σ, Balanced (b.flatten.map Command.part)
  | .mk start body stop => by
    rw [Block.flatten, List.map_cons, List.map_append, start.part_eq, List.map_singleton, stop.part_eq]
    exact body.balanced.block

end

/-- All of a block is skipped, and nothing behind it. -/
theorem Block.guarded_flatten (b : Block σ) (tail : List (Command σ)) :
    guarded (b.flatten ++ tail) = b.flatten.length := by
  match b with
  | .mk start body stop =>
    have h := blockLength_block body.balanced (tail.map Command.part)
    rw [List.length_map] at h
    unfold guarded
    simp only [Block.flatten, List.cons_append, List.append_assoc, List.map_cons, List.map_append,
      List.nil_append, start.part_eq, stop.part_eq, h, List.length_cons, List.length_append, List.length_nil]

/-- Behind a command without a block no block begins, unless the command stands alone. -/
theorem Otherwise.headPart_flatten_of_lone {c : Plain σ} (other : Otherwise σ) {tail : List (Command σ)}
    (h : (Statement.bare c other).isLone = true → headPart tail ≠ some .startBlock) :
    headPart (other.flatten ++ tail) ≠ some .startBlock := by
  match other with
  | .absent => exact h rfl
  | .present mark b =>
    rw [Otherwise.flatten, List.cons_append, headPart, List.head?_cons, Option.map_some, mark.part_eq]
    decide

/-- Behind a condition that holds all of the block for the other case is passed over. -/
theorem Otherwise.elseLength_flatten (other : Otherwise σ) {tail : List (Command σ)}
    (h : headPart tail ≠ some .elseMark) : elseLength (other.flatten ++ tail) = other.flatten.length := by
  match other with
  | .absent => exact elseLength_of_headPart h
  | .present mark b =>
    rw [Otherwise.flatten, List.cons_append, elseLength, if_pos mark.part_eq, b.guarded_flatten, List.length_cons]

/-! ## One command of a pass -/

/-- Goes on with a pass behind a piece of a program; `rest` are the commands that the piece is followed by. -/
def Passage.finish {α : Type} (flat : α → List (Command σ)) (rest : List (Command σ))
    (next : Scene σ → Pass σ × Scene σ) (p : Passage σ α) : Pass σ × Scene σ :=
  match p.ended with
  | some killed => (⟨p.executed, killed, flat p.left ++ rest⟩, p.scene)
  | none =>
    let (q, s) := next p.scene
    (⟨p.executed ++ q.executed, q.killed, flat p.left ++ q.commands⟩, s)

namespace Passage

variable {α β : Type} {rest : List (Command σ)} {next : Scene σ → Pass σ × Scene σ}

theorem finish_map (f : α → β) (flat : β → List (Command σ)) (p : Passage σ α) :
    (p.map f).finish flat rest next = p.finish (fun a => flat (f a)) rest next := rfl

/-- A pass through two pieces goes on with the second behind the first. -/
theorem finish_andThen (rest : List (Command σ)) (next : Scene σ → Pass σ × Scene σ) (flat₁ : α → List (Command σ))
    (flat₂ : β → List (Command σ)) (p : Passage σ α) (second : Scene σ → Passage σ β) (idle : β) :
    (p.andThen second idle).finish (fun ab => flat₁ ab.1 ++ flat₂ ab.2) rest next =
      p.finish flat₁ (flat₂ idle ++ rest) fun s => (second s).finish flat₂ rest next := by
  unfold andThen
  match hp : p.ended with
  | some killed => simp only [finish, hp, List.append_assoc]
  | none =>
    match hq : (second p.scene).ended with
    | some killed => simp only [finish, hp, hq, List.append_assoc]
    | none => simp only [finish, hp, hq, List.append_assoc]

end Passage

variable {responsive : Bool} {m : Moment}

/-- A mark goes on also where breakdowns are looked for. -/
theorem Marker.runGuarded_eq {part : Part} (mark : Marker σ part) (s : Scene σ) :
    runGuarded m mark.command s =
      (.proceed, (mark.command.run m s).2.1, (runGuarded m mark.command s).2.2) := by
  have h : (mark.command.run m s).1 = .ok .proceed := mark.proceeds mark.command.action.memory m s
  rw [Run.runGuarded_eq, h]
  rfl

/-- A mark in a list is run as a mark, and an else mark right behind it is passed over with its block. -/
theorem Marker.interpretFrom_cons {part : Part} (mark : Marker σ part) (rest : List (Command σ)) (i : Nat)
    (s : Scene σ) :
    interpretFrom responsive m i (mark.command :: rest) s =
      (mark.visit responsive m i s).finish (fun mark => mark.command :: rest.take (elseLength rest))
        (rest.drop (elseLength rest))
        (interpretFrom responsive m (i + 1 + elseLength rest) (rest.drop (elseLength rest))) := by
  rw [interpretFrom]
  unfold Marker.visit
  split
  · simp only [Passage.finish, List.cons_append, List.take_append_drop]
  · rw [mark.runGuarded_eq]
    rfl

/-- What the run of a command decides is what its signal says. -/
theorem Plain.run_cases (m : Moment) (c : Plain σ) (s : Scene σ) :
    ∃ (c' : Plain σ) (s' : Scene σ),
      (c.run m s = (.holds, c', s') ∧ runGuarded m c.val s = (.proceed, c'.val, s')) ∨
      (c.run m s = (.fails, c', s') ∧ runGuarded m c.val s = (.skip, c'.val, s')) ∨
      (c.run m s = (.exits, c', s') ∧ runGuarded m c.val s = (.exit, c'.val, s')) ∨
      (c.run m s = (.kills, c', s'.onWorld (endProgram c'.val.kind)) ∧
        runGuarded m c.val s = (.kill, c'.val, s')) := by
  refine ⟨⟨(c.val.run m s).2.1, c.property⟩, (runGuarded m c.val s).2.2, ?_⟩
  rw [Run.runGuarded_eq]
  unfold Plain.run
  match (c.val.run m s).1 with
  | .ok .proceed => exact .inl ⟨rfl, rfl⟩
  | .ok .skip | .error _ => exact .inr (.inl ⟨rfl, rfl⟩)
  | .ok .exit => exact .inr (.inr (.inl ⟨rfl, rfl⟩))
  | .ok .kill => exact .inr (.inr (.inr ⟨rfl, rfl⟩))

/-- A command in a list is run as the condition of the statement that begins with it, if the pass goes on behind it
as the statement does. -/
theorem Plain.interpretFrom_cons {α : Type} (c : Plain σ) {rest tail : List (Command σ)} {i : Nat} (s : Scene σ)
    {whole : Plain σ → α} {holds fails : Plain σ → Scene σ → Passage σ α} {flat : α → List (Command σ)}
    {next : Scene σ → Pass σ × Scene σ} (hwhole : ∀ c, flat (whole c) ++ tail = c.val :: rest)
    (hholds : ∀ c s, ((holds c s).behind i).finish flat tail next =
      let (p, s) := interpretFrom responsive m (i + 1 + elseLength rest) (rest.drop (elseLength rest)) s
      (p.behind i c.val (rest.take (elseLength rest)), s))
    (hfails : ∀ c s, ((fails c s).behind i).finish flat tail next =
      let (p, s) := interpretFrom responsive m (i + 1 + guarded rest) (rest.drop (guarded rest)) s
      (p.behind i c.val (rest.take (guarded rest)), s)) :
    interpretFrom responsive m i (c.val :: rest) s =
      (c.decide responsive m i s whole holds fails).finish flat tail next := by
  rw [interpretFrom]
  unfold Plain.decide
  split
  · simp only [Passage.finish, hwhole]
  · obtain ⟨c', s', ⟨hr, hg⟩ | ⟨hr, hg⟩ | ⟨hr, hg⟩ | ⟨hr, hg⟩⟩ := c.run_cases m s <;> rw [hr, hg]
    · exact (hholds c' s').symm
    · exact (hfails c' s').symm
    · simp only [Passage.finish, hwhole]
    · simp only [Passage.finish, hwhole]

/-- A passage behind the run of a command at which other commands are passed over. -/
theorem Passage.finish_behind {α β : Type} {i : Nat} {c : Command σ} {passed tail : List (Command σ)}
    {flat' : β → List (Command σ)} {next : Scene σ → Pass σ × Scene σ} (flat : α → List (Command σ))
    (p : Passage σ α) (f : α → β) (hf : ∀ a, flat' (f a) = c :: passed ++ flat a) :
    ((p.map f).behind i).finish flat' tail next =
      let (q, s) := p.finish flat tail next
      (q.behind i c passed, s) := by
  unfold Passage.finish Passage.behind Passage.map
  match p.ended with
  | some killed => simp only [Pass.behind, hf, List.append_assoc, List.cons_append]
  | none => simp only [Pass.behind, hf, List.append_assoc, List.cons_append]

/-! ## A pass over a structured program -/

mutual

/-- The pass over a list that begins with a body runs the body, and goes on behind it. -/
theorem Body.interpretFrom_flatten : ∀ (b : Body σ), b.Separated → ∀ {tail : List (Command σ)},
    headPart tail ≠ some .elseMark → headPart tail ≠ some .startBlock → ∀ (i : Nat) (s : Scene σ),
    interpretFrom responsive m i (b.flatten ++ tail) s =
      (b.run responsive m i s).finish Body.flatten tail (interpretFrom responsive m (i + b.flatten.length) tail)
  | .nil, _, tail, _, _, i, s => by
    simp only [Body.flatten, Body.run, Passage.finish, List.nil_append, List.length_nil, Nat.add_zero]
  | .cons st rest, hb, tail, helse, hstart, i, s => by
    have hlone (h : st.isLone = true) : headPart (rest.flatten ++ tail) ≠ some .startBlock :=
      Body.headPart_flatten_ne_startBlock (hb.2.1 h) hstart
    rw [Body.flatten, List.append_assoc,
      st.interpretFrom_flatten hb.1 (rest.headPart_flatten_ne_elseMark helse) hlone i s]
    have hrest (s : Scene σ) := rest.interpretFrom_flatten hb.2.2 helse hstart (i + st.flatten.length) s
    rw [Nat.add_assoc, ← List.length_append] at hrest
    rw [funext hrest]
    exact (Passage.finish_andThen ..).symm

theorem Statement.interpretFrom_flatten : ∀ (st : Statement σ), st.Separated → ∀ {tail : List (Command σ)},
    headPart tail ≠ some .elseMark → (st.isLone = true → headPart tail ≠ some .startBlock) →
    ∀ (i : Nat) (s : Scene σ),
    interpretFrom responsive m i (st.flatten ++ tail) s =
      (st.run responsive m i s).finish Statement.flatten tail
        (interpretFrom responsive m (i + st.flatten.length) tail)
  | .bare c other, hst, tail, helse, hlone, i, s => by
    have hpassed := other.elseLength_flatten helse
    have hopen : guarded (other.flatten ++ tail) = 0 := guarded_of_headPart (other.headPart_flatten_of_lone hlone)
    have hplace : i + (c.val :: other.flatten).length = i + 1 + other.flatten.length := by
      rw [List.length_cons]
      omega
    rw [Statement.flatten, List.cons_append, hplace]
    refine c.interpretFrom_cons s (fun _ => by rw [Statement.flatten, List.cons_append]) (fun c s => ?_)
      fun c s => ?_
    · rw [hpassed, List.drop_left, List.take_left]
      rfl
    · rw [hopen, List.drop_zero, List.take_zero, Nat.add_zero, other.interpretFrom_flatten hst helse (i + 1) s]
      exact Passage.finish_behind Otherwise.flatten _ _ fun _ => rfl
  | .guarded none b other, hst, tail, helse, _, i, s => by
    rw [Statement.flatten, List.append_assoc, b.interpretFrom_flatten hst.1, other.elseLength_flatten helse,
      List.drop_left, List.take_left, Nat.add_assoc, ← List.length_append]
    rfl
  | .guarded (some c) b other, hst, tail, helse, _, i, s => by
    have hpassed : elseLength (b.flatten ++ (other.flatten ++ tail)) = 0 :=
      elseLength_of_headPart (by rw [b.headPart_flatten]; decide)
    have hplace : i + (c.val :: (b.flatten ++ other.flatten)).length =
        i + 1 + b.flatten.length + other.flatten.length := by
      rw [List.length_cons, List.length_append]
      omega
    rw [Statement.flatten, List.cons_append, List.append_assoc, hplace]
    refine c.interpretFrom_cons s (fun _ => by rw [Statement.flatten, List.cons_append, List.append_assoc])
      (fun c s => ?_) fun c s => ?_
    · rw [hpassed, List.drop_zero, List.take_zero, Nat.add_zero, b.interpretFrom_flatten hst.1,
        other.elseLength_flatten helse, List.drop_left, List.take_left]
      exact Passage.finish_behind (fun b : Block σ => b.flatten ++ other.flatten) _ _ fun _ => rfl
    · rw [b.guarded_flatten, List.drop_left, List.take_left,
        other.interpretFrom_flatten hst.2 helse (i + 1 + b.flatten.length) s]
      exact Passage.finish_behind Otherwise.flatten _ _ fun _ => rfl

/-- The block for the other case, where it is reached. -/
theorem Otherwise.interpretFrom_flatten : ∀ (other : Otherwise σ), other.Separated → ∀ {tail : List (Command σ)},
    headPart tail ≠ some .elseMark → ∀ (i : Nat) (s : Scene σ),
    interpretFrom responsive m i (other.flatten ++ tail) s =
      (other.run responsive m i s).finish Otherwise.flatten tail
        (interpretFrom responsive m (i + other.flatten.length) tail)
  | .absent, _, tail, _, i, s => by
    simp only [Otherwise.flatten, Otherwise.run, Passage.finish, List.nil_append, List.length_nil, Nat.add_zero]
  | .present mark b, hb, tail, helse, i, s => by
    have hhead : elseLength (b.flatten ++ tail) = 0 := elseLength_of_headPart (by rw [b.headPart_flatten]; decide)
    have htail : elseLength tail = 0 := elseLength_of_headPart helse
    have hblock (s : Scene σ) := b.interpretFrom_flatten hb tail (i + 1) s
    rw [htail] at hblock
    simp only [List.take_zero, List.drop_zero, List.append_nil, Nat.add_zero] at hblock
    rw [Otherwise.flatten, List.cons_append, mark.interpretFrom_cons, hhead, List.drop_zero, List.take_zero,
      Nat.add_zero, funext hblock, List.length_cons, Nat.add_comm b.flatten.length, ← Nat.add_assoc]
    exact (Passage.finish_andThen _ _ (fun mark : Marker σ .elseMark => [mark.command]) Block.flatten ..).symm

/-- Behind the end of a block an else mark is passed over with its block. -/
theorem Block.interpretFrom_flatten : ∀ (b : Block σ), b.Separated → ∀ (tail : List (Command σ)) (i : Nat)
    (s : Scene σ),
    interpretFrom responsive m i (b.flatten ++ tail) s =
      (b.run responsive m i s).finish (fun b => b.flatten ++ tail.take (elseLength tail))
        (tail.drop (elseLength tail))
        (interpretFrom responsive m (i + b.flatten.length + elseLength tail) (tail.drop (elseLength tail)))
  | .mk start body stop, hb, tail, i, s => by
    have hstop (part : Part) (h : part ≠ .endBlock) : headPart (stop.command :: tail) ≠ some part := by
      rw [headPart, List.head?_cons, Option.map_some, stop.part_eq]
      exact fun he => h (Option.some.inj he).symm
    have hhead : elseLength (body.flatten ++ stop.command :: tail) = 0 :=
      elseLength_of_headPart (body.headPart_flatten_ne_elseMark (hstop _ (by decide)))
    have hbody (s : Scene σ) := body.interpretFrom_flatten hb (hstop _ (by decide)) (hstop _ (by decide)) (i + 1) s
    have hend : interpretFrom responsive m (i + 1 + body.flatten.length) (stop.command :: tail) = _ :=
      funext (stop.interpretFrom_cons tail _)
    rw [hend] at hbody
    have hplace : i + (start.command :: (body.flatten ++ [stop.command])).length =
        i + 1 + body.flatten.length + 1 := by
      rw [List.length_cons, List.length_append, List.length_singleton]
      omega
    rw [Block.flatten, List.cons_append, List.append_assoc, List.singleton_append, start.interpretFrom_cons, hhead,
      List.drop_zero, List.take_zero, Nat.add_zero, funext hbody, hplace]
    generalize hp : tail.take (elseLength tail) = passed
    generalize hr : tail.drop (elseLength tail) = rest
    have htail : tail = passed ++ rest := by rw [← hp, ← hr, List.take_append_drop]
    have hflat (ps : Marker σ .startBlock × Body σ × Marker σ .endBlock) :
        (Block.mk ps.1 ps.2.1 ps.2.2).flatten ++ passed =
          [ps.1.command] ++ (ps.2.1.flatten ++ ps.2.2.command :: passed) := by
      simp only [Block.flatten, List.cons_append, List.append_assoc, List.nil_append]
    have hinner (next : Scene σ → Pass σ × Scene σ) (s : Scene σ) :=
      Passage.finish_andThen rest next Body.flatten (fun mark : Marker σ .endBlock => mark.command :: passed)
        (body.run responsive m (i + 1) s) (stop.visit responsive m (i + 1 + body.flatten.length)) stop
    rw [Block.run, Passage.finish_map, funext hflat, htail]
    refine Eq.trans ?_ (Passage.finish_andThen _ _ (fun mark : Marker σ .startBlock => [mark.command])
      (fun bs : Body σ × Marker σ .endBlock => bs.1.flatten ++ bs.2.command :: passed) _ _ _).symm
    simp only [hinner, List.append_assoc, List.cons_append]

end

/-- **A pass over the commands of a structured program runs the program.**  It runs the commands at the same places,
ends the program if one of them does, leaves the same scene behind, and the commands of a structured program. -/
theorem interpret_flatten (responsive : Bool) (m : Moment) (p : Program σ) (s : Scene σ) :
    interpret responsive m p.flatten s =
      let q := p.run responsive m s
      (⟨q.executed, q.ended.getD false, q.left.flatten⟩, q.scene) := by
  have hnil (part : Part) : headPart ([] : List (Command σ)) ≠ some part := fun h => nomatch h
  have h : interpretFrom responsive m 0 (p.body.flatten ++ []) s =
      (p.body.run responsive m 0 s).finish Body.flatten [] (interpretFrom responsive m (0 + p.body.flatten.length) []) :=
    p.body.interpretFrom_flatten p.separated (hnil _) (hnil _) 0 s
  rw [List.append_nil] at h
  unfold interpret
  show interpretFrom responsive m 0 p.body.flatten s = _
  rw [h]
  unfold Passage.finish Program.run
  match hq : (p.body.run responsive m 0 s).ended with
  | some killed => simp only [hq, List.append_nil]; rfl
  | none => simp only [hq, interpretFrom, List.append_nil]; rfl

end Run
end ArmPilot
