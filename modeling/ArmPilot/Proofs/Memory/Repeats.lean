import ArmPilot.Proofs.Memory.Counting

/-!
# Commands that repeat

A command that repeats holds as often as its parameters say, in the first of all its runs since it was loaded, and the
block behind it is entered in the passes in which it holds and in no others, whatever guards stand around it
(`Interpreter.repeats`).  A number of times that is not a natural number keeps the command from being built, and the
block behind it is never entered.
-/

namespace ArmPilot

variable {σ : Type}

namespace Command

variable {ps : Parameters} {x : Float} {times : ℕ}

/-- A command repeats as often as its parameters say if that is a natural number, and no more often than its count has
room for. -/
theorem times?_of_natural {c : Command σ} (hkind : c.kind = "RepeatCommand") (hx : c.parameters.number "times" = .ok x)
    (hfinite : Decimal.IsFinite x) (hvalue : Decimal.value x = times) : c.times? = some (min times (2 ^ 64 - 1)) := by
  have htruncate : (Decimal.Binary.ofFloat x).truncate = (times : ℤ) :=
    Decimal.Binary.truncate_of_value (hvalue.trans (Int.cast_natCast times).symm)
  have hnatural : (x < 0.0 || !Decimal.isWhole x) = false :=
    Decimal.isWhole_and_nonneg_iff.2 ⟨hfinite, times, hvalue⟩
  rw [times?, if_pos hkind, hx]
  dsimp only
  rw [hnatural, htruncate]
  rfl

/-- It is built then. -/
theorem repeatTimes_of_natural (hx : ps.number "times" = .ok x) (hfinite : Decimal.IsFinite x)
    (hvalue : Decimal.value x = times) :
    repeatTimes (σ := σ) ps = .ok (.sound (repeated (min times (2 ^ 64 - 1)))) := by
  have htimes := times?_of_natural (c := ⟨"RepeatCommand", ps, repeated (σ := σ) 0⟩) rfl hx hfinite hvalue
  rcases repeatTimes_cases ps (repeated (σ := σ) 0) with ⟨n, hn, hok⟩ | ⟨hnone, -⟩
  · obtain rfl := Option.some.inj (htimes.symm.trans hn)
    exact hok
  · cases htimes.symm.trans hnone

/-- It cannot be built if that is none. -/
theorem repeatTimes_of_not_natural (hx : ps.number "times" = .ok x)
    (h : ¬(Decimal.IsFinite x ∧ ∃ times : ℕ, Decimal.value x = times)) :
    repeatTimes (σ := σ) ps = .error (.invalidParameter "times" "expected a whole, non-negative count") := by
  rw [← Decimal.isWhole_and_nonneg_iff, Bool.not_eq_false] at h
  unfold repeatTimes
  rw [hx]
  dsimp only [bind, Except.bind]
  rw [h]
  rfl

/-- What loading makes of a command of the kind `RepeatCommand`. -/
theorem loading_repeat {o : Outside σ} {d : CommandDescriptor} {c : Command σ} (hkind : c.kind = "RepeatCommand")
    (hc : (Loading.command (Registry.builtin o) d).result = some c) :
    (∃ b, repeatTimes c.parameters = .ok b ∧ c = ⟨c.kind, c.parameters, b.value⟩) ∨
      ∃ e, repeatTimes (σ := σ) c.parameters = .error e ∧ c = rejected c.kind c.parameters := by
  obtain ⟨f, hf, hmade⟩ := loading_cases hc
  have hdescribed : d.kind = c.kind ∧ d.parameters = c.parameters := by
    rcases hmade with ⟨b, -, rfl⟩ | ⟨e, -, rfl⟩
    · exact ⟨rfl, rfl⟩
    · exact ⟨rfl, rfl⟩
  rw [hdescribed.1, hdescribed.2, hkind] at hmade
  rw [hdescribed.1, hkind] at hf
  have hfactory : f = repeatTimes := by
    simpa [kinds] using hf
  subst hfactory
  rw [hkind]
  exact hmade

end Command

namespace Run.OfCommands

variable {cs : List (Command σ)} {sts : List (Step σ)} {j : Nat}

/-- A command that repeats guards the block behind it in every pass. -/
theorem guards (h : OfCommands cs sts) (hcs : ∀ c ∈ cs, c.AsLoaded) {c : Command σ} {n : Nat} (hc : cs[j]? = some c)
    (hn : c.times? = some n) (hstart : (partsOf cs)[j + 1]? = some .startBlock) : Guards (partsOf cs) j sts := by
  obtain rfl | ⟨responsive, m, runs, s, rfl⟩ := h
  · exact ⟨iff_of_false nofun (fun ⟨_, hst, _⟩ => nomatch hst), nofun⟩
  · exact guards_of_times? hcs hc hn hstart runs responsive m s

/-- The block behind a command that could not be built is closed in every pass. -/
theorem not_mem_behind_rejected (h : OfCommands cs sts) {kind : String} {parameters : Parameters}
    (hc : cs[j]? = some (.rejected kind parameters)) :
    ∀ p ∈ sts.map Step.place, ¬(j < p ∧ p ≤ skipBlock (partsOf cs) j) := by
  obtain rfl | ⟨responsive, m, runs, s, rfl⟩ := h
  · exact nofun
  · exact fun p hp => not_executed_behind_rejected hc (map_forget_aged cs runs) hp

end Run.OfCommands

namespace Interpreter

variable {c : Config} {es : List (Event σ)} {i j k : Interpreter σ} {o : Outside σ} {past : List (Nat × Run σ)}

/-- **Runs one after the other** begin each with the events as those before it have left them, and come to their
ends. -/
theorem Reruns.induction_runs {P : List (Nat × Run σ) → Prop} (hes : ∀ e ∈ es, e.AsLoaded) (hi : i.Holds c es)
    (h : Reruns o i past j) (hnil : P [])
    (hconcat : ∀ past fuel r events summary, P past → r.events = (usage o past).age es →
      (Run.execute o fuel r).1 = .finished events summary → P (past ++ [(fuel, r)])) : P past := by
  induction h with
  | refl => exact hnil
  | between w reg _ ih => exact ih
  | here h hprepare hrun ih =>
    obtain ⟨w, hprepare', -⟩ := prepare_of_holds (h.holds hes hi)
    obtain ⟨hr, rfl⟩ := Prod.mk.inj (hprepare.symm.trans hprepare')
    obtain rfl := Except.ok.inj hr
    obtain ⟨events, summary, hexecute, -⟩ := holds_of_runHere hprepare' rfl hrun
    exact hconcat _ _ _ events summary ih rfl hexecute
  | @beside past j k fuel r events summary w h hstart hworker hended ih =>
    obtain ⟨hexecute, -⟩ := holds_of_follow (i := { k with world := w }) hworker hended
    obtain ⟨w', hprepare, -⟩ := prepare_of_holds (h.holds hes hi)
    obtain ⟨-, rfl⟩ | ⟨herror, -⟩ := start_of_prepare hprepare hstart
    · obtain rfl := Worker.running.inj hworker
      exact hconcat _ _ _ events summary ih rfl hexecute
    · cases herror
  | refused _ _ ih => exact ih

/-- The passes over the commands of the event at a place in runs. -/
def passes (o : Outside σ) (past : List (Nat × Run σ)) (a : Nat) : List (List (Run.Step σ)) :=
  past.flatMap fun p => p.2.passes o p.1 a

theorem passes_concat (o : Outside σ) (past : List (Nat × Run σ)) (fuel : Nat) (r : Run σ) (a : Nat) :
    passes o (past ++ [(fuel, r)]) a = passes o past a ++ r.passes o fuel a := by
  rw [passes, List.flatMap_append, List.flatMap_singleton]
  rfl

section

variable {a : Nat} {e : Event σ}

/-- The passes in runs one after the other find the commands used. -/
theorem Reruns.ofCommands (hes : ∀ e ∈ es, e.AsLoaded) (hi : i.Holds c es) (h : Reruns o i past j)
    (he : es[a]? = some e) : ∀ sts ∈ passes o past a, Run.OfCommands e.commands sts := by
  refine h.induction_runs (P := fun past => ∀ sts ∈ passes o past a, Run.OfCommands e.commands sts) hes hi
    (fun sts hsts => nomatch hsts) fun past fuel r events summary ih hr _ sts hsts => ?_
  rw [passes_concat] at hsts
  rcases List.mem_append.1 hsts with hsts | hsts
  · exact ih sts hsts
  · exact Run.ofCommands_of_mem_passes hes hr he hsts

variable {b n : Nat} {command : Command σ}

/-- A run goes on counting where those before it have left a command. -/
theorem counts_next (hes : ∀ e ∈ es, e.AsLoaded) (he : es[a]? = some e) (hc : e.commands[b]? = some command)
    (hn : command.times? = some n)
    (hpast : Run.Counts n 0 (Run.runsAt b (passes o past a)) ∧
      (Run.runsAt b (passes o past a)).length = (usage o past).runs a b)
    {r : Run σ} (hr : r.events = (usage o past).age es) (fuel : Nat) :
    Run.Counts n 0 (Run.runsAt b (passes o past a ++ r.passes o fuel a)) := by
  obtain ⟨hcounts, hlength⟩ := hpast
  rw [Run.runsAt_append]
  refine hcounts.append ?_
  rw [Nat.zero_add, hlength]
  exact Run.counts_passes hes he hc hn hr fuel

/-- **Runs one after the other** go on counting the runs of a command. -/
theorem Reruns.counts (hes : ∀ e ∈ es, e.AsLoaded) (hi : i.Holds c es) (h : Reruns o i past j) (he : es[a]? = some e)
    (hc : e.commands[b]? = some command) (hn : command.times? = some n) :
    Run.Counts n 0 (Run.runsAt b (passes o past a)) ∧
      (Run.runsAt b (passes o past a)).length = (usage o past).runs a b := by
  refine h.induction_runs (P := fun past => Run.Counts n 0 (Run.runsAt b (passes o past a)) ∧
    (Run.runsAt b (passes o past a)).length = (usage o past).runs a b) hes hi ⟨rfl, rfl⟩ ?_
  intro past fuel r events summary hpast hr hended
  rw [passes_concat]
  refine ⟨counts_next hes he hc hn hpast hr fuel, ?_⟩
  rw [Run.runsAt_append, List.length_append, hpast.2, Run.length_runsAt_passes hended, usage_concat]
  rfl

end

/-- The commands of the events of a script are loaded from its descriptions. -/
theorem exists_loading {reg : Registry σ} {script : Script} {a b : Nat} {e : Event σ} {command : Command σ}
    (he : (ArmPilot.load reg script).events[a]? = some e) (hc : e.commands[b]? = some command) :
    ∃ d, (Loading.command reg d).result = some command := by
  have hmem := List.mem_of_getElem? he
  rw [events_load] at hmem
  obtain ⟨d, -, hd⟩ := List.mem_filterMap.1 hmem
  have hcommand := List.mem_of_getElem? hc
  rw [Loading.commands_of_event hd] at hcommand
  obtain ⟨d', -, hd'⟩ := List.mem_filterMap.1 hcommand
  exact ⟨d', hd'⟩

/-- **A command repeats as often as it is told**, counted over all ticks of all runs since it was loaded, in which it is
run when the guards around it let it be.  It holds in the first of its runs and in no later ones, its count stays in the
range of unsigned words, and the block behind it is entered in the passes in which it holds and in no others.  If the
number of times is negative or has a fraction, or is no number at all, the command is not built, and nothing in the
block behind it is ever run. -/
theorem repeats (hbuiltin : i.registry = Registry.builtin o) {script : Script} {report : Report}
    (hload : (load script).run.run i = (.ok report, j)) (h : Reruns o j past k) {a b : Nat} {e : Event σ}
    {command : Command σ} {x : Float} (he : (ArmPilot.load (Registry.builtin o) script).events[a]? = some e)
    (hc : e.commands[b]? = some command) (hkind : command.kind = "RepeatCommand")
    (hx : command.parameters.number "times" = .ok x) :
    ∃ r, (prepare.run.run k).1 = .ok r ∧ ∀ fuel,
      let ps := passes o past a ++ r.passes o fuel a
      let runs := Run.runsAt b ps
      let built := (Registry.builtin o).buildCommand command.kind command.parameters
      Run.execute o fuel r = Run.conclude r (Run.course o fuel r) ∧
      (∀ times : ℕ, Decimal.IsFinite x → Decimal.value x = times →
        let n := min times (2 ^ 64 - 1)
        built = .ok (.sound command) ∧ command.action = Command.repeated n ∧
        runs.map Prod.fst = List.replicate (min runs.length n) .proceed ++
          List.replicate (runs.length - min runs.length n) .skip ∧
        runs.map Prod.snd = (List.range runs.length).map (fun k => min n (k + 1)) ∧
        ((Run.partsOf e.commands)[b + 1]? = some .startBlock →
          ∀ sts ∈ ps, Run.Guards (Run.partsOf e.commands) b sts)) ∧
      (¬(Decimal.IsFinite x ∧ ∃ times : ℕ, Decimal.value x = times) →
        built = .error (.invalidParameter "times" "expected a whole, non-negative count") ∧
        command = .rejected command.kind command.parameters ∧
        ∀ sts ∈ ps, ∀ p ∈ sts.map Run.Step.place, ¬(b < p ∧ p ≤ Run.skipBlock (Run.partsOf e.commands) b)) := by
  have hes : ∀ e ∈ (ArmPilot.load (Registry.builtin o) script).events, e.AsLoaded :=
    fun e he => Event.asLoaded_of_mem_load he
  have hj : j.Holds i.config (ArmPilot.load (Registry.builtin o) script).events := by
    have hloaded := holds_of_load hload
    rwa [hbuiltin] at hloaded
  obtain ⟨w, hprepare, -⟩ := prepare_of_holds (h.holds hes hj)
  refine ⟨_, congrArg Prod.fst hprepare, fun fuel => ?_⟩
  generalize hr : Run.create i.config ((usage o past).age (ArmPilot.load (Registry.builtin o) script).events) w = r
  have hevents : r.events = (usage o past).age (ArmPilot.load (Registry.builtin o) script).events := hr ▸ rfl
  intro ps runs built
  have hpasses : ∀ sts ∈ ps, Run.OfCommands e.commands sts := fun sts hsts => by
    rcases List.mem_append.1 hsts with hsts | hsts
    · exact h.ofCommands hes hj he sts hsts
    · exact Run.ofCommands_of_mem_passes hes hevents he hsts
  have hcommands := (hes e (List.mem_of_getElem? he)).commands
  obtain ⟨d, hd⟩ := exists_loading he hc
  have hbuilt : built = (Command.repeatTimes command.parameters).map
      fun b => b.map fun a => ⟨command.kind, command.parameters, a⟩ := by
    simp only [built, hkind]
    rfl
  refine ⟨Run.execute_eq .., fun times hfinite hvalue => ?_, fun hnot => ?_⟩
  · intro n
    have hok : Command.repeatTimes command.parameters = .ok (.sound (Command.repeated (σ := σ) n)) :=
      Command.repeatTimes_of_natural hx hfinite hvalue
    have htimes : command.times? = some n := Command.times?_of_natural hkind hx hfinite hvalue
    have hcounts : Run.Counts n 0 runs :=
      counts_next hes he hc htimes (h.counts hes hj he hc htimes) hevents fuel
    obtain ⟨b', hb', heq⟩ | ⟨error, herror, -⟩ := Command.loading_repeat hkind hd
    · obtain rfl := Except.ok.inj (hok.symm.trans hb')
      refine ⟨?_, congrArg Command.action heq, hcounts.signals, hcounts.memories, ?_⟩
      · rw [hbuilt, hok, heq]
        rfl
      · exact fun hstart sts hsts => (hpasses sts hsts).guards hcommands hc htimes hstart
    · cases hok.symm.trans herror
  · have hrejected := Command.repeatTimes_of_not_natural (σ := σ) hx hnot
    obtain ⟨b', hb', -⟩ | ⟨error, -, heq⟩ := Command.loading_repeat hkind hd
    · cases hrejected.symm.trans hb'
    · refine ⟨?_, heq, fun sts hsts => (hpasses sts hsts).not_mem_behind_rejected (heq ▸ hc)⟩
      rw [hbuilt, hrejected]
      rfl

/-- A script that enters a block once, and another one less than never. -/
def blocksScript : Script :=
  ⟨[⟨"StepEvent", [],
    [⟨"RepeatCommand", [("times", .str " 1 ")]⟩, ⟨"StartBlockCommand", []⟩, ⟨"EndBlockCommand", []⟩,
      ⟨"RepeatCommand", [("times", .num (.int (-3)))]⟩, ⟨"StartBlockCommand", []⟩, ⟨"EndBlockCommand", []⟩,
      ⟨"EndProgramCommand", []⟩]⟩]⟩

/-- The hypotheses of `repeats` are satisfiable: the commands of a script that was run here once. -/
theorem repeats_blocksScript :
    let o := Outside.nobody Unit
    let i := create Config.default (Registry.builtin o) (World.initial ())
    let j := ((load blocksScript).run.run i).2
    let k := ((runHere o 2).run.run j).2
    ∃ report first e, (load blocksScript).run.run i = (.ok report, j) ∧ Reruns o j [(2, first)] k ∧
      (ArmPilot.load (Registry.builtin o) blocksScript).events[0]? = some e ∧
      (∃ r, (prepare.run.run k).1 = .ok r ∧ ∀ fuel,
        let ps := passes o [(2, first)] 0 ++ r.passes o fuel 0
        let runs := Run.runsAt 0 ps
        runs.map Prod.fst =
          List.replicate (min runs.length 1) .proceed ++ List.replicate (runs.length - min runs.length 1) .skip ∧
        ∀ sts ∈ ps, Run.Guards (Run.partsOf e.commands) 0 sts) ∧
      ∃ r, (prepare.run.run k).1 = .ok r ∧ ∀ fuel, ∀ sts ∈ passes o [(2, first)] 0 ++ r.passes o fuel 0,
        ∀ p ∈ sts.map Run.Step.place, ¬(3 < p ∧ p ≤ 5) := by
  intro o i j k
  have hload : (load blocksScript).run.run i = (.ok (ArmPilot.load (Registry.builtin o) blocksScript).report, j) := rfl
  obtain ⟨w, hprepare, -⟩ := prepare_of_holds (holds_of_load hload)
  have hended : ((runHere o 2).run.run j).1 = .ok (.ok ()) := by decide +kernel
  have hruns : Reruns o j [(2, _)] k := .here .refl hprepare (Prod.ext hended rfl)
  have htimes : Parameters.number [("times", .str " 1 ")] "times" = .ok (Decimal.ofInt 1) := by decide +kernel
  have hfinite : Decimal.IsFinite (Decimal.ofInt 1) := by
    unfold Decimal.IsFinite
    decide +kernel
  have hone : Decimal.value (Decimal.ofInt 1) = (1 : ℕ) := by
    have hparts : Decimal.Binary.ofFloat (Decimal.ofInt 1) = ⟨false, 2 ^ 52, -52⟩ := by decide +kernel
    rw [Decimal.value, hparts, Decimal.Binary.value]
    norm_num [Decimal.Binary.sign, Decimal.signed]
  have hnegative :
      ¬(Decimal.IsFinite (Decimal.ofInt (-3)) ∧ ∃ times : ℕ, Decimal.value (Decimal.ofInt (-3)) = times) := by
    rw [← Decimal.isWhole_and_nonneg_iff]
    decide +kernel
  have he : (ArmPilot.load (Registry.builtin o) blocksScript).events[0]? = some _ := rfl
  obtain ⟨r, hr, honce⟩ := repeats (b := 0) (x := Decimal.ofInt 1) rfl hload hruns he rfl rfl htimes
  obtain ⟨r', hr', hnever⟩ := repeats (b := 3) (x := Decimal.ofInt (-3)) rfl hload hruns he rfl rfl rfl
  refine ⟨_, _, _, hload, hruns, he, ⟨r, hr, fun fuel => ?_⟩, r', hr', fun fuel => ?_⟩
  · obtain ⟨-, -, hsignals, -, hguards⟩ := (honce fuel).2.1 1 hfinite hone
    exact ⟨hsignals, hguards rfl⟩
  · exact ((hnever fuel).2.2 hnegative).2.2

end Interpreter
end ArmPilot
