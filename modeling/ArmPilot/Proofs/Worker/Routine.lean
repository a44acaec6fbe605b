import ArmPilot.Sandbox.Basic

/-!
# Routines

A worker follows a routine step by step, while others act on the same world.  What a step does is settled by the scene
in which it is taken, and others may act between any two steps: a play tells who acts when.  What holds of a routine
wherever it may come holds at the end of every play (`Routine.Always.play`), and a routine that is left alone comes to
the end that it has by itself (`Routine.exists_play`).
-/

namespace ArmPilot

/-- What a worker does in a step. -/
inductive Deed where
  /-- It makes something ready for a run. -/
  | prepare
  /-- It hands the run over. -/
  | handOver
  /-- It begins a run. -/
  | start
  /-- It looks whether the run is asked to stop. -/
  | look
  /-- It waits for the next tick. -/
  | wait
  /-- It enters a tick. -/
  | tick
  /-- It asks an event whether it is active. -/
  | poll
  /-- It runs a command, in a pass that is responsive or not. -/
  | command (responsive : Bool)
  /-- It asks the run to stop, since a command ended the program. -/
  | kill (responsive : Bool)
  /-- It shows on the board what the pass over an event has run. -/
  | publish (responsive : Bool)
  /-- It makes no more ticks. -/
  | stop
  /-- It withdraws the request to stop. -/
  | reset
  /-- It lets the machines work. -/
  | clear
  /-- It makes the machines inert. -/
  | raise
  /-- It asks the run to stop, since it is closed. -/
  | cancel
  /-- It sums up the run. -/
  | sum
deriving Repr, DecidableEq

/-- What is still to be done for a result. -/
inductive Routine (σ α : Type) where
  | done (a : α)
  /-- A step: what it does to the scene in which it is taken, and what is to be done then. -/
  | step (deed : Deed) (act : Scene σ → Scene σ) (next : Scene σ → Routine σ α)

variable {σ α β ι : Type}

namespace Routine

/-- A routine, then another for its result. -/
def bind : Routine σ α → (α → Routine σ β) → Routine σ β
  | .done a, f => f a
  | .step d act next, f => .step d act fun s => (next s).bind f

/-- A routine with another result. -/
def map (f : α → β) (p : Routine σ α) : Routine σ β := p.bind fun a => .done (f a)

/-- The deed that comes next. -/
def deed? : Routine σ α → Option Deed
  | .done _ => none
  | .step d _ _ => some d

/-- What comes of a routine if nobody else acts meanwhile. -/
def alone : Routine σ α → Scene σ → α × Scene σ
  | .done a, s => (a, s)
  | .step _ act next, s => (next s).alone (act s)

@[simp] theorem alone_done (a : α) (s : Scene σ) : (done a).alone s = (a, s) := rfl

@[simp] theorem alone_step (d : Deed) (act : Scene σ → Scene σ) (next : Scene σ → Routine σ α) (s : Scene σ) :
    (step d act next).alone s = (next s).alone (act s) := rfl

theorem alone_bind (p : Routine σ α) (f : α → Routine σ β) (s : Scene σ) :
    (p.bind f).alone s = (f (p.alone s).1).alone (p.alone s).2 := by
  induction p generalizing s with
  | done => rfl
  | step d act next ih => exact ih s (act s)

theorem alone_map (f : α → β) (p : Routine σ α) (s : Scene σ) :
    (p.map f).alone s = (f (p.alone s).1, (p.alone s).2) := alone_bind ..

/-- Whether something holds of a routine wherever it may come, whatever others do meanwhile. -/
def Always (P : Routine σ α → Prop) : Routine σ α → Prop
  | .done a => P (.done a)
  | .step d act next => P (.step d act next) ∧ ∀ s, (next s).Always P

namespace Always

variable {P Q : Routine σ α → Prop} {p : Routine σ α}

theorem here (h : p.Always P) : P p := by
  cases p with
  | done => exact h
  | step => exact h.1

theorem mono (hPQ : ∀ q, P q → Q q) (h : p.Always P) : p.Always Q := by
  induction p with
  | done => exact hPQ _ h
  | step d act next ih => exact ⟨hPQ _ h.1, fun s => ih s (h.2 s)⟩

theorem bind {R : Routine σ β → Prop} {f : α → Routine σ β} (hf : ∀ a, (f a).Always R)
    (h : p.Always fun q => R (q.bind f)) : (p.bind f).Always R := by
  induction p with
  | done a => exact hf a
  | step d act next ih => exact ⟨h.1, fun s => ih s (h.2 s)⟩

end Always
end Routine

/-! ## Plays -/

/-- A routine under way in a scene. -/
structure Activity (σ α : Type) where
  rest : Routine σ α
  scene : Scene σ

/-- A move of a play: a step of the worker, or what somebody else does. -/
inductive Move (ι : Type) where
  | work
  | other (i : ι)
deriving DecidableEq

/-- What somebody else does in a move. -/
def Move.other? : Move ι → Option ι
  | .work => none
  | .other i => some i

/-- How many of the moves are steps of the worker. -/
def works : List (Move ι) → Nat
  | [] => 0
  | .work :: ms => works ms + 1
  | .other _ :: ms => works ms

theorem works_append (ms ms' : List (Move ι)) : works (ms ++ ms') = works ms + works ms' := by
  fun_induction works ms with
  | case1 => exact (Nat.zero_add _).symm
  | case2 ms ih => exact (congrArg (· + 1) ih).trans (Nat.add_right_comm ..)
  | case3 _ ms ih => exact ih

namespace Activity

/-- The deed that comes next. -/
def deed? (t : Activity σ α) : Option Deed := t.rest.deed?

/-- The next step of the worker, if there is one. -/
def step (t : Activity σ α) : Activity σ α :=
  match t.rest with
  | .done a => ⟨.done a, t.scene⟩
  | .step _ act next => ⟨next t.scene, act t.scene⟩

/-- The move of somebody else. -/
def meddle (f : World σ → World σ) (t : Activity σ α) : Activity σ α := { t with scene := t.scene.onWorld f }

section

variable (act : ι → World σ → World σ)

/-- A move, where others act on the world in their ways. -/
def move (t : Activity σ α) : Move ι → Activity σ α
  | .work => t.step
  | .other i => t.meddle (act i)

/-- A play. -/
def play (t : Activity σ α) (ms : List (Move ι)) : Activity σ α := ms.foldl (move act) t

/-- What the worker does in a play. -/
def deeds : Activity σ α → List (Move ι) → List Deed
  | _, [] => []
  | t, .work :: ms => t.deed?.toList ++ t.step.deeds ms
  | t, .other i :: ms => (t.meddle (act i)).deeds ms

theorem play_append (t : Activity σ α) (ms ms' : List (Move ι)) :
    t.play act (ms ++ ms') = (t.play act ms).play act ms' := List.foldl_append

/-- A play with a step of the worker, cut behind the step. -/
theorem play_work (t : Activity σ α) (front rest : List (Move ι)) :
    t.play act (front ++ .work :: rest) = (t.play act (front ++ [.work])).play act rest := by
  rw [← play_append, List.append_assoc]
  rfl

end

end Activity

namespace Routine

variable {act : ι → World σ → World σ} {P : Routine σ α → Prop}

/-- What holds of a routine wherever it may come holds of it behind a step. -/
theorem Always.step {t : Activity σ α} (h : t.rest.Always P) : t.step.rest.Always P := by
  obtain ⟨p, s⟩ := t
  cases p with
  | done => exact h
  | step => exact h.2 s

/-- **What holds of a routine wherever it may come holds of it behind every play.** -/
theorem Always.play {t : Activity σ α} (h : t.rest.Always P) (ms : List (Move ι)) : (t.play act ms).rest.Always P := by
  induction ms generalizing t with
  | nil => exact h
  | cons m ms ih =>
    cases m with
    | work => exact ih h.step
    | other => exact ih (t := t.meddle _) h

/-- What holds of the next deed wherever a routine may come holds of all deeds of a play. -/
theorem Always.deeds {Q : Deed → Prop} {t : Activity σ α} (h : t.rest.Always fun q => ∀ d ∈ q.deed?, Q d)
    (ms : List (Move ι)) : ∀ d ∈ t.deeds act ms, Q d := by
  induction ms generalizing t with
  | nil => exact nofun
  | cons m ms ih =>
    cases m with
    | other i => exact ih (t := t.meddle (act i)) h
    | work =>
      intro d hd
      rcases List.mem_append.1 hd with hd | hd
      · exact h.here d (Option.mem_toList.1 hd)
      · exact ih h.step d hd

/-- **A routine that is left alone comes to its end**, with the result that it has by itself. -/
theorem exists_play (p : Routine σ α) (s : Scene σ) :
    ∃ n, Activity.play act ⟨p, s⟩ (List.replicate n .work) = ⟨.done (p.alone s).1, (p.alone s).2⟩ := by
  induction p generalizing s with
  | done a => exact ⟨0, rfl⟩
  | step d act' next ih =>
    obtain ⟨n, hn⟩ := ih s (act' s)
    exact ⟨n + 1, hn⟩

end Routine
end ArmPilot
