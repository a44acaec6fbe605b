import ArmPilot.Proofs.Lifecycle.Afresh
import ArmPilot.Proofs.Pass.Steps

/-!
# What comes of a pass

A pass runs its commands in the order of their places, each of them once at most, and changes nothing about them but what
they remember.  It ends the program exactly if its last command does.  A command that breaks down might as well be a
condition that does not hold: nothing but the log tells the one from the other (`Run.interpret_outcome`).
-/

namespace ArmPilot

variable {σ : Type}

/-- Whether two scenes differ in their logs at most. -/
def Scene.Matches (s s' : Scene σ) : Prop :=
  s'.sandbox = s.sandbox ∧ s'.world = { s.world with records := s'.world.records }

namespace Scene.Matches

variable {s s' s'' : Scene σ}

theorem symm (h : s.Matches s') : s'.Matches s := ⟨h.1.symm, by rw [h.2]⟩

theorem trans (h : s.Matches s') (h' : s'.Matches s'') : s.Matches s'' :=
  ⟨h'.1.trans h.1, by rw [h'.2, h.2]⟩

theorem cancelled (h : s.Matches s') : s'.world.cancelled = s.world.cancelled :=
  (congrArg World.cancelled h.2 :)

theorem onWorld (h : s.Matches s') {f g : World σ → World σ}
    (hfg : ∀ w records, { g { w with records := records } with records := [] } = { f w with records := [] }) :
    (s.onWorld f).Matches (s'.onWorld g) := by
  refine ⟨h.1, ?_⟩
  have := hfg s.world s'.world.records
  rw [← h.2] at this
  show g s'.world = { f s.world with records := (g s'.world).records }
  exact (congrArg (fun w : World σ => { w with records := (g s'.world).records }) this :)

end Scene.Matches

/-- Whether an action does the same whatever is in the log. -/
def Action.IgnoresLog (a : Action σ) : Prop :=
  ∀ m memory s s', s.Matches s' →
    (((a.run m).run.run memory).run s').1 = (((a.run m).run.run memory).run s).1 ∧
      (((a.run m).run.run memory).run s).2.Matches (((a.run m).run.run memory).run s').2

/-- A tame action does the same whatever is in the log, if those outside do. -/
theorem Action.Tame.ignoresLog {o : Outside σ} (ho : o.IgnoresLogs) {a : Action σ} (h : a.Tame o) : a.IgnoresLog := by
  intro m memory s s' hs
  have htied := h (.logs ho s.world.records s'.world.records [] []) m memory s s'
    ⟨hs.1, { s.world with records := [] }, rfl, by rw [hs.2]; rfl⟩
  refine ⟨htied.1, htied.2.1, ?_⟩
  obtain ⟨v, hv, hv'⟩ := htied.2.2
  rw [hv', hv]
  rfl

/-- An action that gives the signal of a condition that does not hold where another breaks down. -/
def Action.calmed (a : Action σ) : Action σ :=
  { a with run := fun m => ExceptT.mk ((fun r => .ok (Run.signalOf r)) <$> (a.run m).run) }

/-- A command that counts as a condition that does not hold where another breaks down. -/
def Command.calmed (c : Command σ) : Command σ := { c with action := c.action.calmed }

theorem Command.run_calmed (c : Command σ) (m : Moment) (s : Scene σ) :
    c.calmed.run m s = (.ok (Run.signalOf (c.run m s).1), (c.run m s).2.1.calmed, (c.run m s).2.2) := rfl

theorem Command.ignoresLog_run {c : Command σ} (hc : c.action.IgnoresLog) (m : Moment) {s s' : Scene σ}
    (hs : s.Matches s') :
    (c.run m s').1 = (c.run m s).1 ∧ (c.run m s').2.1 = (c.run m s).2.1 ∧
      (c.run m s).2.2.Matches (c.run m s').2.2 := by
  obtain ⟨hresult, hscene⟩ := hc m c.action.memory s s' hs
  unfold run
  exact ⟨(congrArg Prod.fst hresult :), (congrArg (fun r => c.remember r.2) hresult :), hscene⟩

namespace Run

variable {responsive : Bool} {m : Moment} {i : Nat} {c : Command σ} {cs : List (Command σ)} {s s' : Scene σ}

/-! ## Commands that break down -/

/-- A run changes the scene as the command does, but for the log. -/
theorem runGuarded_matches (m : Moment) (c : Command σ) (s : Scene σ) :
    (c.run m s).2.2.Matches (runGuarded m c s).2.2 := by
  unfold runGuarded
  match c.run m s with
  | (.ok _, _, _) => exact ⟨rfl, rfl⟩
  | (.error _, _, _) => exact ⟨rfl, rfl⟩

theorem runGuarded_calmed (hc : c.action.IgnoresLog) (hs : s.Matches s') {signal : Signal} {c' : Command σ}
    {t : Scene σ} (h : runGuarded m c s = (signal, c', t)) :
    ∃ t', runGuarded m c.calmed s' = (signal, c'.calmed, t') ∧ t.Matches t' := by
  obtain ⟨hsignal, hcommand, hscene⟩ := Command.ignoresLog_run hc m hs
  have hbefore := runGuarded_matches m c s
  have hafter : (c.run m s').2.2.Matches (runGuarded m c.calmed s').2.2 := runGuarded_matches m c.calmed s'
  refine ⟨(runGuarded m c.calmed s').2.2, ?_, ?_⟩
  · rw [runGuarded_eq] at h ⊢
    obtain ⟨rfl, hrest⟩ := Prod.mk.inj h
    obtain ⟨rfl, -⟩ := Prod.mk.inj hrest
    rw [Command.run_calmed, hsignal, hcommand]
    rfl
  · rw [h] at hbefore
    exact hbefore.symm.trans (hscene.trans hafter)

theorem guarded_calmed (cs : List (Command σ)) : guarded (cs.map Command.calmed) = guarded cs := by
  rw [guarded, List.map_map]
  rfl

theorem elseLength_calmed (cs : List (Command σ)) : elseLength (cs.map Command.calmed) = elseLength cs := by
  cases cs with
  | nil => rfl
  | cons c rest =>
    rw [List.map_cons, elseLength, elseLength, guarded_calmed]
    rfl

/-- A pass over commands of which some break down, and one over commands that count as conditions instead. -/
def Pass.calmed (p : Pass σ) : Pass σ := { p with commands := p.commands.map Command.calmed }

theorem Pass.calmed_behind (p : Pass σ) (i : Nat) (c : Command σ) (passed : List (Command σ)) :
    (p.behind i c passed).calmed = p.calmed.behind i c.calmed (passed.map Command.calmed) := by
  unfold behind calmed
  rw [List.map_append, List.map_cons]

theorem interpretFrom_calmed (hcs : ∀ c ∈ cs, c.action.IgnoresLog) (hs : s.Matches s') :
    (interpretFrom responsive m i (cs.map Command.calmed) s').1 = (interpretFrom responsive m i cs s).1.calmed ∧
      (interpretFrom responsive m i cs s).2.Matches (interpretFrom responsive m i (cs.map Command.calmed) s').2 := by
  fun_induction interpretFrom responsive m i cs s generalizing s' with
  | case1 =>
    rw [List.map_nil, interpretFrom]
    exact ⟨rfl, hs⟩
  | case2 i s c rest hstop =>
    rw [List.map_cons, interpretFrom, hs.cancelled, if_pos hstop]
    exact ⟨rfl, hs⟩
  | case3 i s c rest hgoes c' t hrun =>
    obtain ⟨t', hrun', ht⟩ := runGuarded_calmed (hcs c (List.mem_cons_self ..)) hs hrun
    rw [List.map_cons, interpretFrom, hs.cancelled, if_neg hgoes, hrun']
    exact ⟨rfl, ht.onWorld fun _ _ => rfl⟩
  | case4 i s c rest hgoes c' t hrun =>
    obtain ⟨t', hrun', ht⟩ := runGuarded_calmed (hcs c (List.mem_cons_self ..)) hs hrun
    rw [List.map_cons, interpretFrom, hs.cancelled, if_neg hgoes, hrun']
    exact ⟨rfl, ht⟩
  | case5 i s c rest hgoes c' t n p u hrest hrun =>
    rename_i ih
    obtain ⟨t', hrun', ht⟩ := runGuarded_calmed (hcs c (List.mem_cons_self ..)) hs hrun
    obtain ⟨hpass, hscene⟩ := ih (fun d hd => hcs d (List.mem_cons_of_mem _ (List.mem_of_mem_drop hd))) ht
    rw [hrest] at hpass hscene
    rw [List.map_cons, interpretFrom, hs.cancelled, if_neg hgoes, hrun']
    dsimp only
    rw [guarded_calmed, ← List.map_drop, ← List.map_take, hpass, Pass.calmed_behind]
    exact ⟨rfl, hscene⟩
  | case6 i s c rest hgoes c' t n p u hrest hrun =>
    rename_i ih
    obtain ⟨t', hrun', ht⟩ := runGuarded_calmed (hcs c (List.mem_cons_self ..)) hs hrun
    obtain ⟨hpass, hscene⟩ := ih (fun d hd => hcs d (List.mem_cons_of_mem _ (List.mem_of_mem_drop hd))) ht
    rw [hrest] at hpass hscene
    rw [List.map_cons, interpretFrom, hs.cancelled, if_neg hgoes, hrun']
    dsimp only
    rw [elseLength_calmed, ← List.map_drop, ← List.map_take, hpass, Pass.calmed_behind]
    exact ⟨rfl, hscene⟩

/-! ## The last command -/

/-- A command that ends the program is the last of its pass. -/
theorem getLast_of_kill {st : Step σ} (h : st ∈ stepsFrom responsive m i cs s) (hst : st.signal = .kill) :
    (stepsFrom responsive m i cs s).getLast? = some st := by
  fun_induction stepsFrom responsive m i cs s with
  | case1 => cases h
  | case2 => cases h
  | case3 => exact congrArg some (List.mem_singleton.1 h).symm
  | case4 i s c rest _ first n hp ih =>
    rcases List.mem_cons.1 h with rfl | h
    · rw [Step.passes?, hst] at hp
      cases hp
    · rw [List.getLast?_cons, ih h]
      rfl

/-- A command ends the program exactly if it says so itself. -/
theorem signal_stepAt_eq_kill_iff : (stepAt m i c s).signal = .kill ↔ (c.run m s).1 = .ok .kill := by
  unfold stepAt
  rw [runGuarded_eq]
  dsimp only
  cases (c.run m s).1 with
  | ok signal => exact ⟨congrArg Except.ok, Except.ok.inj⟩
  | error b => exact ⟨nofun, nofun⟩

theorem cancelled_of_kill (h : (stepAt m i c s).signal = .kill) : (stepAt m i c s).after.world.cancelled = true := by
  unfold stepAt at h ⊢
  rcases hrun : runGuarded m c s with ⟨signal, c', t⟩
  rw [hrun] at h
  obtain rfl : signal = .kill := h
  rfl

theorem length_stepsFrom_le (responsive : Bool) (m : Moment) (i : Nat) (cs : List (Command σ)) (s : Scene σ) :
    (stepsFrom responsive m i cs s).length ≤ cs.length := by
  fun_induction stepsFrom responsive m i cs s with
  | case1 => exact Nat.le_refl 0
  | case2 => exact Nat.zero_le _
  | case3 => exact Nat.succ_le_succ (Nat.zero_le _)
  | case4 i s c rest _ first n _ ih =>
    refine Nat.succ_le_succ (ih.trans ?_)
    rw [List.length_drop]
    exact Nat.sub_le ..

/-- A step ends the program exactly if the command at its place does. -/
theorem signal_eq_kill_iff {st : Step σ} (hst : st ∈ steps responsive m cs s) :
    st.signal = .kill ↔ ∃ c, cs[st.place]? = some c ∧ (c.run m st.before).1 = .ok .kill := by
  obtain ⟨c, hc, heq⟩ := eq_stepAt hst
  have hkill : st.signal = .kill ↔ (c.run m st.before).1 = .ok .kill := by
    rw [heq]
    exact signal_stepAt_eq_kill_iff
  rw [hkill]
  constructor
  · intro hrun
    exact ⟨c, hc, hrun⟩
  · rintro ⟨c', hc', hrun⟩
    obtain rfl : c = c' := Option.some.inj (hc.symm.trans hc')
    exact hrun

/-! ## The outcome -/

/-- A pass is told by its steps. -/
theorem interpret_eq_steps (responsive : Bool) (m : Moment) (cs : List (Command σ)) (s : Scene σ) :
    interpret responsive m cs s =
      (⟨(steps responsive m cs s).map Step.place, (steps responsive m cs s).any (·.signal = .kill),
        leftBy 0 cs (steps responsive m cs s)⟩, endOf Step.after s (steps responsive m cs s)) :=
  interpretFrom_eq ..

theorem killed_eq_true_iff :
    (interpret responsive m cs s).1.killed = true ↔ ∃ st ∈ steps responsive m cs s, st.signal = .kill := by
  rw [interpret_eq_steps]
  simp

/-- **What comes of a pass.**  Its steps follow one another from scene to scene; their places, which are those of the
commands that were run, increase and are places of the list, so that there are no more of them than commands.  The pass
ends the program exactly if the last command that was run does, and then the run is asked to stop.  Nothing changes about
the commands but what they remember.  And if the commands do the same whatever is in the log, as those do that are tame,
each that breaks down might as well be a condition that does not hold: the pass would differ in its log at most. -/
theorem interpret_outcome (responsive : Bool) (m : Moment) (cs : List (Command σ)) (s : Scene σ) :
    let sts := steps responsive m cs s
    let p := (interpret responsive m cs s).1
    let t := (interpret responsive m cs s).2
    (Linked Step.before Step.after s sts ∧ t = endOf Step.after s sts) ∧
      (p.executed = sts.map Step.place ∧ p.executed.Pairwise (· < ·) ∧ (∀ i ∈ p.executed, i < cs.length) ∧
        p.executed.length ≤ cs.length) ∧
      (p.killed = true ↔
        ∃ st c, sts.getLast? = some st ∧ cs[st.place]? = some c ∧ (c.run m st.before).1 = .ok .kill) ∧
      (p.killed = true → t.world.cancelled = true) ∧
      p.commands.map Command.forget = cs.map Command.forget ∧
      ((∀ c ∈ cs, c.action.IgnoresLog) →
        let q := (interpret responsive m (cs.map Command.calmed) s).1
        let u := (interpret responsive m (cs.map Command.calmed) s).2
        q.executed = p.executed ∧ q.killed = p.killed ∧ q.commands = p.commands.map Command.calmed ∧ t.Matches u) := by
  intro sts p t
  have hexecuted : p.executed = sts.map Step.place := congrArg (·.1.executed) (interpret_eq_steps responsive m cs s)
  have ht : t = endOf Step.after s sts := congrArg Prod.snd (interpret_eq_steps responsive m cs s)
  refine ⟨⟨linked_stepsFrom .., ht⟩, ⟨hexecuted, ?_, ?_, ?_⟩, ⟨?_, ?_⟩, ?_, ?_, ?_⟩
  · rw [hexecuted]
    exact List.pairwise_map.2 (pairwise_place ..)
  · rw [hexecuted]
    intro i hi
    obtain ⟨st, hst, rfl⟩ := List.mem_map.1 hi
    exact Nat.lt_of_lt_of_eq (place_bounds hst).2 (Nat.zero_add _)
  · rw [hexecuted]
    exact (List.length_map ..).trans_le (length_stepsFrom_le ..)
  · intro h
    obtain ⟨st, hst, hkill⟩ := killed_eq_true_iff.1 h
    obtain ⟨c, hc, hrun⟩ := (signal_eq_kill_iff hst).1 hkill
    exact ⟨st, c, getLast_of_kill hst hkill, hc, hrun⟩
  · rintro ⟨st, c, hlast, hc, hrun⟩
    have hst : st ∈ sts := List.mem_of_getLast? hlast
    exact killed_eq_true_iff.2 ⟨st, hst, (signal_eq_kill_iff hst).2 ⟨c, hc, hrun⟩⟩
  · intro h
    obtain ⟨st, hst, hkill⟩ := killed_eq_true_iff.1 h
    have hlast : sts.getLast? = some st := getLast_of_kill hst hkill
    obtain ⟨c, -, heq⟩ := eq_stepAt hst
    rw [ht, endOf, hlast]
    rw [heq] at hkill ⊢
    exact cancelled_of_kill hkill
  · show (interpret responsive m cs s).1.commands.map Command.forget = _
    rw [interpret_eq_steps]
    exact map_forget_leftBy ..
  · intro hcs q u
    obtain ⟨hq, hu⟩ : q = p.calmed ∧ t.Matches u := interpretFrom_calmed hcs (show s.Matches s from ⟨rfl, rfl⟩)
    exact ⟨by rw [hq]; rfl, by rw [hq]; rfl, by rw [hq]; rfl, hu⟩

/-- Commands of which the first breaks down, in front of a block, and the last ends the program. -/
def faultyCommands : List (Command Unit) :=
  [⟨"FaultyCommand", [], .plain (Act.breakDown "fault")⟩,
    ⟨"StartBlockCommand", [], .signal .startBlock .proceed⟩,
    ⟨"ExitEventCommand", [], .signal .plain .exit⟩,
    ⟨"EndBlockCommand", [], .signal .endBlock .proceed⟩,
    ⟨"EndProgramCommand", [], .signal .plain .kill⟩]

theorem interpret_outcome_faultyCommands :
    let s : Scene Unit := ⟨.create .default (.obj []), .initial ()⟩
    let p := interpret false ⟨1, 0⟩ faultyCommands s
    let q := interpret false ⟨1, 0⟩ (faultyCommands.map Command.calmed) s
    (∀ c ∈ faultyCommands, c.action.IgnoresLog) ∧ p.1.executed = [0, 4] ∧ p.1.killed = true ∧
      p.2.world.cancelled = true ∧ q.1.executed = [0, 4] ∧ q.1.killed = true ∧ p.2.Matches q.2 := by
  intro s p q
  have hlogs : ∀ c ∈ faultyCommands, c.action.IgnoresLog := by
    have hsignal (part : Part) (signal : Signal) : (Action.signal (σ := Unit) part signal).IgnoresLog :=
      (Action.tame_signal part signal).ignoresLog Outside.ignoresLogs_nobody
    intro c hc
    simp only [faultyCommands, List.mem_cons, List.not_mem_nil, or_false] at hc
    rcases hc with rfl | rfl | rfl | rfl | rfl
    · exact fun _ _ _ _ hs => ⟨rfl, hs⟩
    all_goals exact hsignal _ _
  have hpass : p.1.executed = [0, 4] ∧ p.1.killed = true := by
    have hfaulty (s : Scene Unit) :
        runGuarded ⟨1, 0⟩ ⟨"FaultyCommand", [], .plain (Act.breakDown "fault")⟩ s =
          (.skip, ⟨"FaultyCommand", [], .plain (Act.breakDown "fault")⟩,
            s.onWorld (·.note .error target "FaultyCommand panicked: fault")) := rfl
    have hend (s : Scene Unit) :
        runGuarded ⟨1, 0⟩ ⟨"EndProgramCommand", [], .signal .plain .kill⟩ s =
          (.kill, ⟨"EndProgramCommand", [], .signal .plain .kill⟩,
            s.onWorld (·.note .trace target "EndProgramCommand -> Kill")) := rfl
    have hblock : guarded faultyCommands.tail = 3 := rfl
    rw [faultyCommands, List.tail_cons] at hblock
    simp [p, interpret, faultyCommands, interpretFrom, hfaulty, hblock, hend, Pass.behind]
  obtain ⟨-, -, -, hcancelled, -, hcalmed⟩ := interpret_outcome false ⟨1, 0⟩ faultyCommands s
  obtain ⟨hexecuted, hkilled, -, hmatches⟩ := hcalmed hlogs
  exact ⟨hlogs, hpass.1, hpass.2, hcancelled hpass.2, hexecuted.trans hpass.1, hkilled.trans hpass.2, hmatches⟩

end Run
end ArmPilot
