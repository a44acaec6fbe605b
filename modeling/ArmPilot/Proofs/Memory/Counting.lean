import ArmPilot.Proofs.Decimal.Doubles
import ArmPilot.Proofs.Memory.Restart
import ArmPilot.Proofs.Run.Rejected

/-!
# The runs of commands that repeat

A run goes on counting the runs of a command where earlier runs have left it (`Run.counts_passes`), and the block behind
the command is entered in the passes in which it holds and in no others (`Run.guards_of_times?`).
-/

namespace ArmPilot

variable {σ : Type}

namespace Run

/-! ## The runs of a command -/

/-- How the runs of the command at a place ended in passes, and what it remembered then. -/
def runsAt (j : Nat) (passes : List (List (Step σ))) : List (Signal × Nat) :=
  passes.flatMap fun sts => (sts.filter (·.place = j)).map fun st => (st.signal, st.command.action.memory)

theorem runsAt_append (j : Nat) (ps qs : List (List (Step σ))) : runsAt j (ps ++ qs) = runsAt j ps ++ runsAt j qs :=
  List.flatMap_append

theorem length_runsAt (j : Nat) (ps : List (List (Step σ))) :
    (runsAt j ps).length = (ps.flatMap fun sts => sts.map Step.place).count j := by
  induction ps with
  | nil => rfl
  | cons sts ps ih =>
    have hplaces : (sts.filter (·.place = j)).length = (sts.map Step.place).count j := by
      rw [List.count, List.countP_map, List.countP_eq_length_filter]
      rfl
    have hcons : runsAt j (sts :: ps) =
        ((sts.filter (·.place = j)).map fun st => (st.signal, st.command.action.memory)) ++ runsAt j ps := rfl
    rw [hcons, List.length_append, List.length_map, ih, hplaces, List.flatMap_cons, List.count_append]

/-- The runs of a command that holds `times` times and was run `count` times before. -/
def counted (times count : Nat) (k : Nat) : List (Signal × Nat) :=
  (List.range' count k).map fun n => (.ofBool (n < times), min times (n + 1))

/-- Whether runs are those of a command that holds `times` times and was run `count` times before. -/
def Counts (times count : Nat) (runs : List (Signal × Nat)) : Prop := runs = counted times count runs.length

namespace Counts

variable {times count : Nat} {runs runs' : List (Signal × Nat)}

theorem append (h : Counts times count runs) (h' : Counts times (count + runs.length) runs') :
    Counts times count (runs ++ runs') := by
  have hrange : List.range' count (runs.length + runs'.length) =
      List.range' count runs.length ++ List.range' (count + runs.length) runs'.length := List.range'_append_1.symm
  unfold Counts counted at h h' ⊢
  rw [List.length_append, hrange, List.map_append, ← h, ← h']

/-- A command holds in the first of its runs, as often as it may. -/
theorem signals (h : Counts times 0 runs) :
    runs.map Prod.fst = List.replicate (min runs.length times) .proceed ++
      List.replicate (runs.length - min runs.length times) .skip := by
  have hcounted (k : Nat) : (counted times 0 k).map Prod.fst =
      List.replicate (min k times) .proceed ++ List.replicate (k - min k times) .skip := by
    induction k with
    | zero => rw [Nat.zero_min]; rfl
    | succ k ih =>
      have hlast : (counted times 0 (k + 1)).map Prod.fst =
          (counted times 0 k).map Prod.fst ++ [.ofBool (k < times)] := by
        unfold counted
        rw [List.range'_1_concat, List.map_append, List.map_append, Nat.zero_add]
        rfl
      rw [hlast, ih]
      rcases Nat.lt_or_ge k times with hlt | hge
      · rw [Nat.min_eq_left (Nat.le_of_lt hlt), Nat.min_eq_left hlt, Nat.sub_self, Nat.sub_self, decide_eq_true hlt,
          List.replicate_succ', List.replicate_zero, List.append_nil, List.append_nil]
        rfl
      · rw [Nat.min_eq_right hge, Nat.min_eq_right (Nat.le_succ_of_le hge), decide_eq_false (Nat.not_lt.2 hge),
          Nat.succ_sub hge, List.replicate_succ', List.append_assoc]
        rfl
  exact (congrArg (List.map Prod.fst) h).trans (hcounted runs.length)

/-- What a command remembers behind its runs. -/
theorem memories (h : Counts times 0 runs) :
    runs.map Prod.snd = (List.range runs.length).map fun n => min times (n + 1) := by
  refine (congrArg (List.map Prod.snd) h).trans ?_
  rw [counted, List.map_map, List.range_eq_range']
  rfl

end Counts

/-! ## The passes of a run -/

/-- Of items in the order of a key, one at most has a given key. -/
theorem filter_key {α : Type} {f : α → Nat} {xs : List α} (h : xs.Pairwise fun a b => f a < f b) (k : Nat) :
    xs.filter (f · = k) = [] ∨ ∃ x ∈ xs, f x = k ∧ xs.filter (f · = k) = [x] := by
  induction xs with
  | nil => exact .inl rfl
  | cons y ys ih =>
    obtain ⟨hlt, hys⟩ := List.pairwise_cons.1 h
    by_cases hy : f y = k
    · have hnone : ys.filter (f · = k) = [] := by
        refine List.filter_eq_nil_iff.2 fun x hx heq => ?_
        have := hlt x hx
        rw [of_decide_eq_true heq, hy] at this
        exact Nat.lt_irrefl k this
      refine .inr ⟨y, List.mem_cons_self .., hy, ?_⟩
      rw [List.filter_cons, if_pos (decide_eq_true hy), hnone]
    · rw [List.filter_cons, if_neg fun heq => hy (of_decide_eq_true heq)]
      rcases ih hys with hnone | ⟨x, hx, hk, hone⟩
      · exact .inl hnone
      · exact .inr ⟨x, List.mem_cons_of_mem _ hx, hk, hone⟩

/-- The passes over the commands of the event at a place that are made in turns. -/
def turnPasses (i : Nat) (ts : List (Turn σ)) : List (List (Step σ)) := (ts.filter (·.index = i)).map Turn.steps

/-- The passes over the commands of the event at a place in a run, of which at most `fuel` ticks are followed: those of
its turns, and the one in which it is closed. -/
def passes (o : Outside σ) (fuel : Nat) (r : Run σ) (i : Nat) : List (List (Step σ)) :=
  let q := course o fuel r
  turnPasses i (q.rounds.flatMap Round.turns) ++
    match q.progress with
    | .stopped => ((q.closing? (startTime r)).filter (·.index = i)).toList.map Closing.steps
    | .pending | .broken _ => []

theorem turnPasses_append (i : Nat) (ts ts' : List (Turn σ)) :
    turnPasses i (ts ++ ts') = turnPasses i ts ++ turnPasses i ts' := by
  rw [turnPasses, List.filter_append, List.map_append]
  rfl

/-- The usage of an event tells how often its commands were run. -/
theorem length_runsAt_turnPasses (i j : Nat) (ts : List (Turn σ)) :
    (runsAt j (turnPasses i ts)).length = (Usage.ofTurns ts).runs i j := by
  rw [length_runsAt, turnPasses, List.flatMap_map]
  rfl

section Pass

variable {cs : List (Command σ)} {runs : Nat → Nat} {c : Command σ} {j n : Nat}

/-- **A pass goes on counting the runs of a command.** -/
theorem counts_steps (hcs : ∀ c ∈ cs, c.AsLoaded) (hc : cs[j]? = some c) (hn : c.times? = some n)
    (responsive : Bool) (m : Moment) (s : Scene σ) :
    Counts n (runs j) (runsAt j [steps responsive m (cs.mapIdx fun k c => c.aged (runs k)) s]) := by
  generalize hsts : steps responsive m (cs.mapIdx fun k c => c.aged (runs k)) s = sts
  have hplaces : sts.Pairwise fun a b => a.place < b.place := hsts ▸ pairwise_place ..
  have hruns : runsAt j [sts] = (sts.filter (·.place = j)).map fun st => (st.signal, st.command.action.memory) :=
    List.append_nil _
  rw [hruns]
  rcases filter_key hplaces j with hnone | ⟨st, hst, rfl, hone⟩
  · rw [hnone]
    rfl
  · rw [← hsts] at hst
    have hsignal := signal_of_times? hcs hst hc hn
    obtain ⟨c', hc', heq⟩ := eq_stepAt_aged hst
    obtain rfl : c = c' := Option.some.inj (hc.symm.trans hc')
    have hmemory : st.command.action.memory = min n (runs st.place + 1) := by
      rw [heq, command_stepAt, Command.run_aged (hcs c (List.mem_of_getElem? hc)), ← Command.memoryAfter_of_times? hn]
      rfl
    rw [hone, List.map_singleton, hsignal, hmemory]
    rfl

end Pass

section

variable {es : List (Event σ)} (hes : ∀ e ∈ es, e.AsLoaded) {i j n : Nat} {e : Event σ} {c : Command σ}
  (he : es[i]? = some e) (hc : e.commands[j]? = some c) (hn : c.times? = some n)

include hes he hc hn

/-- **A tick goes on counting**, too: the event has one turn at most. -/
theorem counts_turns {u : Usage} {t : Round σ} (ht : t.events = u.age es) :
    Counts n (u.runs i j) (runsAt j (turnPasses i t.turns)) := by
  have hindex : t.turns.Pairwise fun a b => a.index < b.index := pairwise_index ..
  rw [turnPasses]
  rcases filter_key hindex i with hnone | ⟨turn, hturn, rfl, hone⟩
  · rw [hnone]
    rfl
  · rw [hone, List.map_singleton]
    obtain ⟨e', he', heq⟩ := Round.event_of_mem_turns ht hturn
    obtain rfl : e = e' := Option.some.inj (he.symm.trans he')
    unfold Turn.steps
    split
    · rw [heq]
      exact counts_steps (hes e (List.mem_of_getElem? he)).commands hc hn ..
    · rfl

variable {o : Outside σ} {fuel : Nat} {r : Run σ} {u : Usage} (hr : r.events = u.age es)

include hr

/-- The ticks of a run count one after the other. -/
theorem counts_rounds (front : List (Round σ)) {back : List (Round σ)} (h : (course o fuel r).rounds = front ++ back) :
    Counts n (u.runs i j) (runsAt j (turnPasses i (front.flatMap Round.turns))) := by
  induction front using List.reverseRecOn generalizing back with
  | nil => rfl
  | append_singleton front t ih =>
    rw [List.append_assoc, List.singleton_append] at h
    have ht := events_of_rounds hes hr h
    rw [List.flatMap_append, List.flatMap_singleton, turnPasses_append, runsAt_append]
    refine (ih h).append ?_
    rw [length_runsAt_turnPasses]
    exact counts_turns hes he hc hn ht

/-- **A run goes on counting** where earlier runs have left a command. -/
theorem counts_passes (fuel : Nat) : Counts n (u.runs i j) (runsAt j (r.passes o fuel i)) := by
  have hrounds : Counts n (u.runs i j) (runsAt j (turnPasses i ((course o fuel r).rounds.flatMap Round.turns))) :=
    counts_rounds hes he hc hn hr _ (List.append_nil _).symm
  rw [passes, runsAt_append]
  refine hrounds.append ?_
  rw [length_runsAt_turnPasses]
  split
  · cases hclosing : (course o fuel r).closing? (startTime r) with
    | none => rfl
    | some closing =>
      obtain ⟨e', he', heq⟩ := event_of_closing hes hr hclosing
      rw [Option.filter_some]
      split
      · rename_i hindex
        obtain rfl := of_decide_eq_true hindex
        obtain rfl : e = e' := Option.some.inj (he.symm.trans he')
        rw [Option.toList_some, List.map_singleton, Closing.steps, heq]
        exact counts_steps (hes e (List.mem_of_getElem? he)).commands hc hn ..
      · rfl
  all_goals rfl

end

/-- In a run that ends, the usage of its events tells how often their commands were run. -/
theorem length_runsAt_passes {o : Outside σ} {fuel : Nat} {r : Run σ} {events : List (Event σ)} {summary : Summary}
    (h : (execute o fuel r).1 = .finished events summary) (i j : Nat) :
    (runsAt j (r.passes o fuel i)).length = (r.usage o fuel).runs i j := by
  have hstopped : (course o fuel r).progress = .stopped := by
    rw [execute_eq, conclude] at h
    split at h
    · cases h
    · cases h
    · assumption
  rw [passes, hstopped, runsAt_append, List.length_append, length_runsAt_turnPasses, usage]
  dsimp only
  cases (course o fuel r).closing? (startTime r) with
  | none => rfl
  | some closing =>
    rw [Option.filter_some]
    split
    · rename_i hindex
      obtain rfl := of_decide_eq_true hindex
      rw [length_runsAt, Option.toList_some, List.map_singleton, List.flatMap_singleton]
      exact congrArg _ (if_pos rfl).symm
    · rename_i hindex
      have hne : i ≠ closing.index := fun heq => hindex (decide_eq_true heq.symm)
      exact congrArg _ (if_neg hne).symm

/-! ## The block behind a command -/

/-- Whether steps are those of a pass over commands that were used, or none. -/
def OfCommands (cs : List (Command σ)) (sts : List (Step σ)) : Prop :=
  sts = [] ∨ ∃ (responsive : Bool) (m : Moment) (runs : Nat → Nat) (s : Scene σ),
    sts = steps responsive m (cs.mapIdx fun k c => c.aged (runs k)) s

/-- The passes over the commands of an event find them used. -/
theorem ofCommands_of_mem_passes {es : List (Event σ)} (hes : ∀ e ∈ es, e.AsLoaded) {o : Outside σ} {fuel : Nat}
    {r : Run σ} {u : Usage} (hr : r.events = u.age es) {i : Nat} {e : Event σ} (he : es[i]? = some e)
    {sts : List (Step σ)} (h : sts ∈ r.passes o fuel i) : OfCommands e.commands sts := by
  have hturns : ∀ sts ∈ turnPasses i ((course o fuel r).rounds.flatMap Round.turns), OfCommands e.commands sts := by
    intro sts hsts
    obtain ⟨turn, hkept, rfl⟩ := List.mem_map.1 hsts
    obtain ⟨hmem, hindex⟩ := List.mem_filter.1 hkept
    obtain rfl := of_decide_eq_true hindex
    obtain ⟨t, ht, hturn⟩ := List.mem_flatMap.1 hmem
    obtain ⟨front, back, hrounds⟩ := List.append_of_mem ht
    obtain ⟨e', he', heq⟩ := Round.event_of_mem_turns (events_of_rounds hes hr hrounds) hturn
    obtain rfl : e = e' := Option.some.inj (he.symm.trans he')
    unfold Turn.steps
    split
    · rw [heq]
      exact .inr ⟨_, _, _, _, rfl⟩
    · exact .inl rfl
  rw [passes] at h
  rcases List.mem_append.1 h with h | h
  · exact hturns sts h
  · split at h
    · obtain ⟨closing, hkept, rfl⟩ := List.mem_map.1 h
      obtain ⟨hclosing, hindex⟩ := Option.mem_filter_iff.1 (Option.mem_toList.1 hkept)
      obtain rfl := of_decide_eq_true hindex
      obtain ⟨e', he', heq⟩ := event_of_closing hes hr hclosing
      obtain rfl : e = e' := Option.some.inj (he.symm.trans he')
      rw [Closing.steps, heq]
      exact .inr ⟨_, _, _, _, rfl⟩
    · cases h
    · cases h

/-- Whether the steps of a pass show a command that guards the block behind it. -/
structure Guards (parts : List Part) (j : Nat) (sts : List (Step σ)) : Prop where
  /-- The block is entered exactly if the command is run and holds. -/
  entered : j + 1 ∈ sts.map Step.place ↔ ∃ st ∈ sts, st.place = j ∧ st.signal = .proceed
  /-- Otherwise nothing inside the block is run either. -/
  inside : ∀ k ∈ sts.map Step.place, j < k → k ≤ skipBlock parts j → ∃ st ∈ sts, st.place = j ∧ st.signal = .proceed

section Block

variable {cs : List (Command σ)} {c : Command σ} {j n : Nat}

theorem partsOf_aged (cs : List (Command σ)) (runs : Nat → Nat) :
    partsOf (cs.mapIdx fun k c => c.aged (runs k)) = partsOf cs := by
  refine List.ext_getElem? fun i => ?_
  rw [List.getElem?_map, List.getElem?_mapIdx, List.getElem?_map]
  cases cs[i]? with
  | none => rfl
  | some c => rfl

theorem map_forget_aged (cs : List (Command σ)) (runs : Nat → Nat) :
    (cs.mapIdx fun k c => c.aged (runs k)).map Command.forget = cs.map Command.forget := by
  refine List.ext_getElem? fun i => ?_
  rw [List.getElem?_map, List.getElem?_mapIdx, List.getElem?_map]
  cases cs[i]? with
  | none => rfl
  | some c => rfl

/-- A command that repeats does not stop the run. -/
theorem cancelled_of_times? (hc : c.AsLoaded) (hn : c.times? = some n) (k : Nat) (m : Moment) (i : Nat) (s : Scene σ) :
    (stepAt m i (c.aged k) s).after.world.cancelled = s.world.cancelled := by
  have hrun : (c.aged k).run m s = (.ok (.ofBool (k < n)), ((c.aged k).run m s).2.1, s) := by
    refine Prod.ext (Command.signal_aged hc hn k m s) (Prod.ext rfl ?_)
    have hscene : ((c.aged k).run m s).2.2 = (((c.action.run m).run.run (c.memoryAfter k)).run s).2 := rfl
    rw [hscene, hc.repeated n hn, Command.run_repeated]
  unfold stepAt runGuarded
  rw [hrun]
  cases decide (k < n) with
  | true => rfl
  | false => rfl

/-- **A command that repeats guards the block behind it.** -/
theorem guards_of_times? (hcs : ∀ c ∈ cs, c.AsLoaded) (hc : cs[j]? = some c) (hn : c.times? = some n)
    (hstart : (partsOf cs)[j + 1]? = some .startBlock) (runs : Nat → Nat) (responsive : Bool) (m : Moment)
    (s : Scene σ) :
    Guards (partsOf cs) j (steps responsive m (cs.mapIdx fun k c => c.aged (runs k)) s) := by
  have hloaded := hcs c (List.mem_of_getElem? hc)
  have hend : (partsOf cs)[j]? ≠ some .endBlock := by
    rw [List.getElem?_map, hc, Option.map_some, Command.part, hloaded.repeated n hn]
    exact nofun
  have hinside : ∀ k ∈ (steps responsive m (cs.mapIdx fun k c => c.aged (runs k)) s).map Step.place, j < k →
      k ≤ skipBlock (partsOf cs) j →
      ∃ st ∈ steps responsive m (cs.mapIdx fun k c => c.aged (runs k)) s, st.place = j ∧ st.signal = .proceed := by
    intro k hk hlt hle
    obtain ⟨st, hst, rfl⟩ := List.mem_map.1 hk
    rw [← partsOf_aged cs runs] at hend hstart hle
    exact proceed_of_mem_stepsFrom (Nat.zero_le j) hend hstart hst hlt hle
  refine ⟨⟨fun h => hinside _ h (Nat.lt_succ_self j) ?_, ?_⟩, hinside⟩
  · -- the block has at least the mark at its beginning
    have hdrop : (partsOf cs).drop (j + 1) = .startBlock :: (partsOf cs).drop (j + 2) := by
      obtain ⟨hlt, hget⟩ := List.getElem?_eq_some_iff.1 hstart
      rw [List.drop_eq_getElem_cons hlt, hget]
    rw [skipBlock, hdrop, blockLength_startBlock]
    omega
  · rintro ⟨st, hst, rfl, hproceed⟩
    obtain ⟨mark, hmark, hpart⟩ : ∃ mark, cs[st.place + 1]? = some mark ∧ mark.part = .startBlock := by
      rw [List.getElem?_map] at hstart
      exact Option.map_eq_some_iff.1 hstart
    obtain ⟨next, hnext, hplace⟩ := exists_next (d := mark.aged (runs (st.place + 1))) hst hproceed
      (by rw [Nat.sub_zero, List.getElem?_mapIdx, hmark]; rfl)
      (by show mark.part ≠ .elseMark; rw [hpart]; decide)
      (by
        -- the pass may go on behind the command because it was allowed to run it
        obtain ⟨c', hc', heq⟩ := eq_stepAt_aged hst
        obtain rfl : c = c' := Option.some.inj (hc.symm.trans hc')
        rw [heq, cancelled_of_times? hloaded hn]
        cases responsive with
        | false => exact Bool.false_ne_true
        | true =>
          rw [before_not_cancelled hst]
          exact Bool.false_ne_true)
    exact hplace ▸ List.mem_map_of_mem hnext

end Block

end Run
end ArmPilot
