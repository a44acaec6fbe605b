import ArmPilot.Proofs.Journal
import ArmPilot.Run.Pass

/-!
# The steps of a pass

A pass runs commands one after the other.  Its steps tell for each of them where it stands, in which scene it is run
and with which signal it ends, and they determine the pass (`interpretFrom_eq`).  The places of the steps increase, so
that no command is run twice, and a responsive pass begins no step once the run is asked to stop.
-/

namespace ArmPilot

namespace Command

variable {σ : Type}

/-- A command with another memory. -/
def remember (c : Command σ) (memory : Nat) : Command σ := { c with action := { c.action with memory := memory } }

/-- A command without its memory. -/
def forget (c : Command σ) : Command σ := c.remember 0

end Command

namespace Run

variable {σ : Type}

/-- The signal of a run; a command that breaks down counts as a condition that does not hold. -/
def signalOf : Except Breakdown Signal → Signal
  | .ok signal => signal
  | .error _ => .skip

theorem runGuarded_eq (m : Moment) (c : Command σ) (s : Scene σ) :
    runGuarded m c s = (signalOf (c.run m s).1, (c.run m s).2.1, (runGuarded m c s).2.2) := by
  unfold runGuarded
  match c.run m s with
  | (.ok _, _, _) => rfl
  | (.error _, _, _) => rfl

/-- The run of a command in a pass. -/
structure Step (σ : Type) where
  place : Nat
  before : Scene σ
  signal : Signal
  /-- The command with its memory from then on. -/
  command : Command σ
  /-- The scene in which the pass goes on or ends. -/
  after : Scene σ

/-- The run of a command at a place. -/
def stepAt (m : Moment) (i : Nat) (c : Command σ) (s : Scene σ) : Step σ :=
  let (signal, c, s') := runGuarded m c s
  ⟨i, s, signal, c, match signal with
    | .kill => s'.onWorld (endProgram c.kind)
    | .proceed | .skip | .exit => s'⟩

/-- How many of the commands behind a step are passed over, unless the pass ends with it. -/
def Step.passes? (st : Step σ) (rest : List (Command σ)) : Option Nat :=
  match st.signal with
  | .proceed => some (elseLength rest)
  | .skip => some (guarded rest)
  | .exit | .kill => none

/-- The steps of a pass over commands, the first of which stands at a place. -/
def stepsFrom (responsive : Bool) (m : Moment) (i : Nat) (cs : List (Command σ)) (s : Scene σ) : List (Step σ) :=
  match cs with
  | [] => []
  | c :: rest =>
    if responsive && s.world.cancelled then []
    else
      let st := stepAt m i c s
      match st.passes? rest with
      | none => [st]
      | some n => st :: stepsFrom responsive m (i + 1 + n) (rest.drop n) st.after
termination_by cs.length
decreasing_by simp only [List.length_drop, List.length_cons]; omega

attribute [elab_as_elim] stepsFrom.induct_unfolding

/-- The steps of the pass over all commands of an event. -/
def steps (responsive : Bool) (m : Moment) (cs : List (Command σ)) (s : Scene σ) : List (Step σ) :=
  stepsFrom responsive m 0 cs s

/-- Commands, the first of which stands at a place, with their memories after steps. -/
def leftBy (i : Nat) (cs : List (Command σ)) (sts : List (Step σ)) : List (Command σ) :=
  overwrite i cs (sts.map fun st => (st.place, st.command))

variable {responsive : Bool} {m : Moment} {i : Nat} {cs : List (Command σ)} {s : Scene σ}

/-! ## Which commands are run -/

theorem guarded_le (cs : List (Command σ)) : guarded cs ≤ cs.length := by
  have h := blockLength_le (cs.map Command.part)
  rwa [List.length_map] at h

theorem elseLength_le (cs : List (Command σ)) : elseLength cs ≤ cs.length := by
  match cs with
  | [] => exact Nat.le_refl 0
  | c :: rest =>
    rw [elseLength]
    split
    · exact Nat.succ_le_succ (guarded_le rest)
    · exact Nat.zero_le _

/-- No more commands are passed over than there are. -/
theorem Step.passes?_le {st : Step σ} {n : Nat} (h : st.passes? cs = some n) : n ≤ cs.length := by
  unfold Step.passes? at h
  split at h
  · obtain rfl := Option.some.inj h
    exact elseLength_le cs
  · obtain rfl := Option.some.inj h
    exact guarded_le cs
  · cases h
  · cases h

/-- The places of the steps are among those of the commands. -/
theorem place_bounds {st : Step σ} (h : st ∈ stepsFrom responsive m i cs s) :
    i ≤ st.place ∧ st.place < i + cs.length := by
  fun_induction stepsFrom responsive m i cs s with
  | case1 => cases h
  | case2 => cases h
  | case3 i s c rest =>
    obtain rfl := List.mem_singleton.1 h
    exact ⟨Nat.le_refl i, Nat.lt_add_of_pos_right (Nat.succ_pos _)⟩
  | case4 i s c rest _ first n hp ih =>
    rcases List.mem_cons.1 h with rfl | h
    · exact ⟨Nat.le_refl i, Nat.lt_add_of_pos_right (Nat.succ_pos _)⟩
    · have hn := Step.passes?_le hp
      have := ih h
      rw [List.length_drop] at this
      rw [List.length_cons]
      omega

/-- The places of the steps increase. -/
theorem pairwise_place (responsive : Bool) (m : Moment) (i : Nat) (cs : List (Command σ)) (s : Scene σ) :
    (stepsFrom responsive m i cs s).Pairwise fun a b => a.place < b.place := by
  fun_induction stepsFrom responsive m i cs s with
  | case1 => exact .nil
  | case2 => exact .nil
  | case3 => exact List.pairwise_singleton ..
  | case4 i s c rest _ first n _ ih =>
    refine .cons (fun st h => ?_) ih
    have : i + 1 + n ≤ st.place := (place_bounds h).1
    show i < st.place
    omega

/-- Every step runs the command at its place, as it stood before the pass. -/
theorem eq_stepAt {st : Step σ} (h : st ∈ stepsFrom responsive m i cs s) :
    ∃ c, cs[st.place - i]? = some c ∧ st = stepAt m st.place c st.before := by
  fun_induction stepsFrom responsive m i cs s with
  | case1 => cases h
  | case2 => cases h
  | case3 i s c rest =>
    obtain rfl := List.mem_singleton.1 h
    exact ⟨c, by rw [show (stepAt m i c s).place - i = 0 from Nat.sub_self i]; rfl, rfl⟩
  | case4 i s c rest _ first n _ ih =>
    rcases List.mem_cons.1 h with rfl | h
    · exact ⟨c, by rw [show first.place - i = 0 from Nat.sub_self i]; rfl, rfl⟩
    · obtain ⟨d, hd, hst⟩ := ih h
      have := (place_bounds h).1
      refine ⟨d, ?_, hst⟩
      rw [List.getElem?_drop] at hd
      rw [show st.place - i = n + (st.place - (i + 1 + n)) + 1 by omega, List.getElem?_cons_succ]
      exact hd

theorem command_stepAt (m : Moment) (i : Nat) (c : Command σ) (s : Scene σ) :
    (stepAt m i c s).command = (c.run m s).2.1 := by
  unfold stepAt
  rw [runGuarded_eq]

/-- A pass changes nothing of the commands but their memories. -/
theorem map_forget_leftBy (responsive : Bool) (m : Moment) (i : Nat) (cs : List (Command σ)) (s : Scene σ) :
    (leftBy i cs (stepsFrom responsive m i cs s)).map Command.forget = cs.map Command.forget := by
  refine map_overwrite_eq _ fun y h => ?_
  obtain ⟨st, hst, rfl⟩ := List.mem_map.1 h
  obtain ⟨c, hc, heq⟩ := eq_stepAt hst
  rw [List.getElem?_map, hc, heq, command_stepAt]
  rfl

/-! ## The course of the scene -/

/-- Every step begins in the scene that the one before left, and the first in that of the pass. -/
theorem linked_stepsFrom (responsive : Bool) (m : Moment) (i : Nat) (cs : List (Command σ)) (s : Scene σ) :
    Linked Step.before Step.after s (stepsFrom responsive m i cs s) := by
  fun_induction stepsFrom responsive m i cs s with
  | case1 => trivial
  | case2 => trivial
  | case3 => exact ⟨rfl, trivial⟩
  | case4 i s c rest _ first n _ ih => exact ⟨rfl, ih⟩

/-- A responsive pass runs no command once the run is asked to stop. -/
theorem before_not_cancelled {st : Step σ} (h : st ∈ stepsFrom true m i cs s) : st.before.world.cancelled = false := by
  generalize hr : true = responsive at h
  fun_induction stepsFrom responsive m i cs s with
  | case1 => cases h
  | case2 => cases h
  | case3 i s c rest hs =>
    obtain rfl := List.mem_singleton.1 h
    subst hr
    exact eq_false_of_ne_true hs
  | case4 i s c rest hs first n _ ih =>
    rcases List.mem_cons.1 h with rfl | h
    · subst hr
      exact eq_false_of_ne_true hs
    · exact ih h

/-! ## The pass -/

/-- **The steps of a pass determine it.** -/
theorem interpretFrom_eq (responsive : Bool) (m : Moment) (i : Nat) (cs : List (Command σ)) (s : Scene σ) :
    interpretFrom responsive m i cs s =
      let sts := stepsFrom responsive m i cs s
      (⟨sts.map Step.place, sts.any (·.signal = .kill), leftBy i cs sts⟩, endOf Step.after s sts) := by
  fun_induction stepsFrom responsive m i cs s with
  | case1 => rw [interpretFrom]; rfl
  | case2 i s c rest h => rw [interpretFrom, if_pos h]; rfl
  | case3 i s c rest h first hp =>
    rw [interpretFrom, if_neg h]
    have hf : first = stepAt m i c s := rfl
    clear_value first
    unfold stepAt at hf
    rcases hr : runGuarded m c s with ⟨signal, c', s'⟩
    rw [hr] at hf
    cases signal with
    | kill | exit => rw [hf]; simp [leftBy, overwrite, endOf]
    | skip | proceed => rw [hf] at hp; cases hp
  | case4 i s c rest h first n hp ih =>
    rw [interpretFrom, if_neg h]
    have hf : first = stepAt m i c s := rfl
    dsimp only
    generalize hsts : stepsFrom responsive m (i + 1 + n) (rest.drop n) first.after = sts at ih ⊢
    have hbehind : ∀ y ∈ sts.map fun st => (st.place, st.command), i + 1 + n ≤ y.1 := fun y h => by
      obtain ⟨st, hst, rfl⟩ := List.mem_map.1 h
      rw [← hsts] at hst
      exact (place_bounds hst).1
    have hleft : leftBy i (c :: rest) (first :: sts) =
        first.command :: rest.take n ++ leftBy (i + 1 + n) (rest.drop n) sts :=
      overwrite_cons c first.command (Step.passes?_le hp) hbehind
    rw [hleft, endOf_cons, List.map_cons, List.any_cons]
    clear_value first
    unfold stepAt at hf
    rcases hr : runGuarded m c s with ⟨signal, c', s'⟩
    rw [hr] at hf
    cases signal with
    | skip | proceed =>
      rw [hf] at hp ih ⊢
      obtain rfl := Option.some.inj hp
      dsimp only
      rw [ih]
      simp [Pass.behind]
    | kill | exit => rw [hf] at hp; cases hp

end Run
end ArmPilot
