import ArmPilot.Proofs.Pass.Blocks
import ArmPilot.Proofs.Pass.Steps

/-!
# Guards

The block behind a command is run only if the command was run and holds (`executed_behind_guard`).  That needs no list
to be well formed: a pass goes on right behind a command, or behind the end of a skipped stretch, and skipped stretches
are nested (`skipBlock_nested`), so that it never lands inside a block that it has not entered through its guard.
-/

namespace ArmPilot
namespace Run

variable {σ : Type} {responsive : Bool} {m : Moment} {i j : Nat} {cs : List (Command σ)} {s : Scene σ}

/-- The parts of commands. -/
abbrev partsOf (cs : List (Command σ)) : List Part := cs.map Command.part

/-- What is skipped from a place is the block behind it. -/
theorem skipBlock_partsOf (cs : List (Command σ)) (i : Nat) :
    skipBlock (partsOf cs) i = i + guarded (cs.drop (i + 1)) := by
  rw [skipBlock, guarded, List.map_drop]

/-- A step that does not end the pass is followed by the next command, or by the one behind what is skipped from its
own place or from that of the else mark right behind it. -/
theorem Step.passes?_cases {st : Step σ} {n : Nat} (h : st.passes? (cs.drop (i + 1)) = some n) :
    st.signal = .skip ∧ i + n = skipBlock (partsOf cs) i ∨
      st.signal = .proceed ∧ (n = 0 ∨ i + n = skipBlock (partsOf cs) (i + 1)) := by
  unfold Step.passes? at h
  split at h
  · refine .inr ⟨‹_›, ?_⟩
    obtain rfl := Option.some.inj h
    match hr : cs.drop (i + 1) with
    | [] => exact .inl rfl
    | c :: rest =>
      rw [elseLength]
      split
      · right
        have hrest : cs.drop (i + 1 + 1) = rest := by rw [← List.drop_drop, hr]; rfl
        rw [skipBlock_partsOf, hrest]
        omega
      · exact .inl rfl
  · refine .inl ⟨‹_›, ?_⟩
    obtain rfl := Option.some.inj h
    rw [skipBlock_partsOf]
  · cases h
  · cases h

/-- **A pass never lands inside a block behind a later command.**  It goes on in front of the command or behind the
block. -/
theorem Step.passes?_lands {st : Step σ} {n : Nat} (h : st.passes? (cs.drop (i + 1)) = some n) (hij : i < j)
    (hend : (partsOf cs)[j]? ≠ some .endBlock) (hstart : (partsOf cs)[j + 1]? = some .startBlock) :
    i + 1 + n ≤ j ∨ skipBlock (partsOf cs) j < i + 1 + n := by
  rcases st.passes?_cases h with ⟨-, hn⟩ | ⟨-, rfl | hn⟩
  · rcases Nat.lt_or_ge (i + n) j with hlt | hge
    · left
      omega
    · right
      have := skipBlock_nested hij (hn ▸ hge) hend hstart
      omega
  · left
    omega
  · rcases Nat.lt_or_ge (i + n) j with hlt | hge
    · left
      omega
    · right
      rcases Nat.lt_or_eq_of_le (show i + 1 ≤ j from hij) with hij' | rfl
      · have := skipBlock_nested hij' (hn ▸ hge) hend hstart
        omega
      · omega

/-- A step in the block behind a later command is made only if the command is run and holds. -/
theorem proceed_of_mem_stepsFrom {st : Step σ} (hij : i ≤ j) (hend : (partsOf cs)[j]? ≠ some .endBlock)
    (hstart : (partsOf cs)[j + 1]? = some .startBlock) (h : st ∈ stepsFrom responsive m i (cs.drop i) s)
    (hj : j < st.place) (hle : st.place ≤ skipBlock (partsOf cs) j) :
    ∃ guard ∈ stepsFrom responsive m i (cs.drop i) s, guard.place = j ∧ guard.signal = .proceed := by
  generalize hr : cs.drop i = rest at h ⊢
  fun_induction stepsFrom responsive m i rest s with
  | case1 => cases h
  | case2 => cases h
  | case3 i s c rest =>
    obtain rfl := List.mem_singleton.1 h
    exact absurd (Nat.lt_of_le_of_lt hij hj) (Nat.lt_irrefl i)
  | case4 i s c rest _ first n hp ih =>
    have hrest : cs.drop (i + 1) = rest := by rw [← List.drop_drop, hr]; rfl
    rw [← hrest] at hp
    rcases List.mem_cons.1 h with rfl | h
    · exact absurd (Nat.lt_of_le_of_lt hij hj) (Nat.lt_irrefl i)
    · have hlater : i + 1 + n ≤ st.place := (place_bounds h).1
      rcases Nat.lt_or_eq_of_le hij with hij | rfl
      · rcases first.passes?_lands hp hij hend hstart with hfront | hbehind
        · obtain ⟨guard, hmem, hguard⟩ := ih hfront (by rw [← hrest, List.drop_drop]) h
          exact ⟨guard, List.mem_cons_of_mem _ hmem, hguard⟩
        · omega
      · rcases first.passes?_cases hp with ⟨-, hn⟩ | ⟨hsignal, -⟩
        · omega
        · exact ⟨first, List.mem_cons_self .., rfl, hsignal⟩

/-- **The block behind a guard is closed until the guard holds.**  Whatever the list, a command in the block behind
another is run in a pass only if the other is run in the same pass and lets the pass go on. -/
theorem executed_behind_guard {k : Nat} (hend : (partsOf cs)[j]? ≠ some .endBlock)
    (hstart : (partsOf cs)[j + 1]? = some .startBlock) (hk : k ∈ (interpret responsive m cs s).1.executed) (hj : j < k)
    (hle : k ≤ skipBlock (partsOf cs) j) :
    j ∈ (interpret responsive m cs s).1.executed ∧
      ∃ guard ∈ steps responsive m cs s, guard.place = j ∧ guard.signal = .proceed := by
  have hpass : (interpret responsive m cs s).1.executed = (steps responsive m cs s).map Step.place := by
    rw [interpret, interpretFrom_eq]
    rfl
  rw [hpass] at hk ⊢
  obtain ⟨st, hst, rfl⟩ := List.mem_map.1 hk
  obtain ⟨guard, hmem, rfl, hproceed⟩ := proceed_of_mem_stepsFrom (Nat.zero_le j) hend hstart hst hj hle
  exact ⟨List.mem_map_of_mem hmem, guard, hmem, rfl, hproceed⟩

/-- A pass begins with its first command unless it may not begin. -/
theorem exists_first {c : Command σ} (hgoes : ¬(responsive && s.world.cancelled) = true) :
    ∃ st ∈ stepsFrom responsive m i (c :: cs) s, st.place = i := by
  rw [stepsFrom, if_neg hgoes]
  dsimp only
  split
  · exact ⟨_, List.mem_singleton_self _, rfl⟩
  · exact ⟨_, List.mem_cons_self .., rfl⟩

/-- A command that holds is followed by the next one, unless that is an else mark or the pass may not go on. -/
theorem exists_next {st : Step σ} (h : st ∈ stepsFrom responsive m i cs s) (hproceed : st.signal = .proceed)
    {d : Command σ} (hd : cs[st.place + 1 - i]? = some d) (hpart : d.part ≠ .elseMark)
    (hgoes : ¬(responsive && st.after.world.cancelled) = true) :
    ∃ next ∈ stepsFrom responsive m i cs s, next.place = st.place + 1 := by
  fun_induction stepsFrom responsive m i cs s with
  | case1 => cases h
  | case2 => cases h
  | case3 i s c rest _ first hp =>
    obtain rfl := List.mem_singleton.1 h
    rw [Step.passes?, hproceed] at hp
    cases hp
  | case4 i s c rest _ first n hp ih =>
    rcases List.mem_cons.1 h with rfl | h
    · have hnext : rest[0]? = some d := by
        rw [← hd, show first.place + 1 - i = 0 + 1 from Nat.add_sub_cancel_left (n := i) (m := 1), List.getElem?_cons_succ]
      match rest with
      | [] => cases hnext
      | d' :: rest =>
        obtain rfl : d' = d := Option.some.inj hnext
        rw [Step.passes?, hproceed] at hp
        have hlength : elseLength (d' :: rest) = 0 := if_neg hpart
        obtain rfl : 0 = n := hlength.symm.trans (Option.some.inj hp)
        obtain ⟨next, hmem, hplace⟩ : ∃ next ∈ stepsFrom responsive m (i + 1) (d' :: rest) first.after, next.place = i + 1 :=
          exists_first hgoes
        exact ⟨next, List.mem_cons_of_mem _ hmem, hplace⟩
    · have hplace := (place_bounds h).1
      obtain ⟨next, hmem, heq⟩ := ih h (by
        rw [List.getElem?_drop, ← hd, show st.place + 1 - i = n + (st.place + 1 - (i + 1 + n)) + 1 by omega,
          List.getElem?_cons_succ])
      exact ⟨next, List.mem_cons_of_mem _ hmem, heq⟩

end Run
end ArmPilot
