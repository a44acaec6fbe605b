import ArmPilot.Load.Program
import ArmPilot.Proofs.Pass.Guards
import ArmPilot.Proofs.Run.Course

/-!
# Commands that could not be built

Loading puts a condition that never holds in the place of a command that could not be built.  The block behind it is
not run in any tick, nor when the run stops (`closed_behind_guards`): a run changes nothing of a command but its
memory, and the block behind a guard stays closed until the guard holds.
-/

namespace ArmPilot

variable {σ : Type}

/-! ## Where loading puts placeholders -/

/-- The place among the items that are kept. -/
theorem getElem?_filterMap_length {α β : Type} {f : α → Option β} (front rest : List α) {x : α} {y : β}
    (h : f x = some y) : ((front ++ x :: rest).filterMap f)[(front.filterMap f).length]? = some y := by
  rw [List.filterMap_append, List.getElem?_append_right (Nat.le_refl _), Nat.sub_self, List.filterMap_cons_some h]
  rfl

/-- Whether a command of a kind that is known could not be built from its description. -/
def Registry.Rejects (reg : Registry σ) (d : CommandDescriptor) : Prop :=
  ∃ e, reg.buildCommand d.kind d.parameters = .error e ∧ e ≠ .unknownCommandKind

/-- Whether loading a script puts a placeholder in the place of a command: the event at a place is that of a description,
and so is its command at a place, which could not be built. -/
def Registry.PutsPlaceholder (reg : Registry σ) (script : Script) (i j : Nat) : Prop :=
  ∃ before d after front c rest, script.events = before ++ d :: after ∧ d.commands = front ++ c :: rest ∧
    (before.filterMap fun d => (Loading.event reg d).result).length = i ∧
    (front.filterMap fun c => (Loading.command reg c).result).length = j ∧
    (Loading.event reg d).result.isSome ∧ reg.Rejects c

theorem Loading.command_of_rejects {reg : Registry σ} {d : CommandDescriptor} (h : reg.Rejects d) :
    (Loading.command reg d).result = some (.rejected d.kind d.parameters) := by
  obtain ⟨e, he, hknown⟩ := h
  unfold Loading.command
  rw [he]
  cases e with
  | unknownCommandKind => exact absurd rfl hknown
  | _ => rfl

/-- The commands of an event are those of its descriptions that are kept. -/
theorem Loading.commands_of_event {reg : Registry σ} {d : EventDescriptor} {e : Event σ}
    (h : (Loading.event reg d).result = some e) :
    e.commands = d.commands.filterMap fun c => (Loading.command reg c).result := by
  unfold Loading.event at h
  match hb : reg.buildEvent d.kind d.parameters with
  | .error _ =>
    rw [hb] at h
    cases h
  | .ok b =>
    rw [hb] at h
    obtain rfl := Option.some.inj h
    exact List.filterMap_map

/-- A placeholder stands where loading puts it. -/
theorem Registry.PutsPlaceholder.getElem? {reg : Registry σ} {script : Script} {i j : Nat}
    (h : reg.PutsPlaceholder script i j) :
    ∃ e kind parameters, (load reg script).events[i]? = some e ∧
      e.commands[j]? = some (.rejected kind parameters) := by
  obtain ⟨before, d, after, front, c, rest, hevents, hcommands, rfl, rfl, hd, hc⟩ := h
  obtain ⟨e, he⟩ := Option.isSome_iff_exists.1 hd
  refine ⟨e, c.kind, c.parameters, ?_, ?_⟩
  · rw [events_load, hevents]
    exact getElem?_filterMap_length before after he
  · rw [Loading.commands_of_event he, hcommands]
    exact getElem?_filterMap_length front rest (Loading.command_of_rejects hc)

/-! ## What a placeholder does -/

/-- A placeholder holds in no scene, whatever it remembers. -/
theorem Command.run_of_forget_rejected {c : Command σ} {kind : String} {parameters : Parameters}
    (h : c.forget = (Command.rejected kind parameters).forget) (m : Moment) (s : Scene σ) :
    (c.run m s).1 = .ok .skip := by
  have hrun : c.action.run = fun _ => return .skip := congrArg (fun c : Command σ => c.action.run) h
  unfold Command.run
  rw [hrun]
  rfl

namespace Run

theorem signal_stepAt (m : Moment) (i : Nat) (c : Command σ) (s : Scene σ) :
    (stepAt m i c s).signal = signalOf (c.run m s).1 := by
  unfold stepAt
  rw [runGuarded_eq]

/-- **The block behind a placeholder is closed.** -/
theorem not_executed_behind_rejected {cs cs' : List (Command σ)} {j k : Nat} {kind : String} {parameters : Parameters}
    {responsive : Bool} {m : Moment} {s : Scene σ} (hj : cs[j]? = some (.rejected kind parameters))
    (hcs : cs'.map Command.forget = cs.map Command.forget) (hk : k ∈ (steps responsive m cs' s).map Step.place) :
    ¬(j < k ∧ k ≤ skipBlock (partsOf cs) j) := by
  rintro ⟨hlt, hle⟩
  have hparts : partsOf cs' = partsOf cs := by
    have h := congrArg (List.map Command.part) hcs
    rw [List.map_map, List.map_map] at h
    exact h
  have hplain : (partsOf cs')[j]? = some .plain := by
    rw [hparts, List.getElem?_map, hj]
    rfl
  have hstart : (partsOf cs')[j + 1]? = some .startBlock := by
    by_contra hstart
    rw [hparts] at hstart
    rw [skipBlock_of_ne hstart] at hle
    exact absurd (Nat.lt_of_lt_of_le hlt hle) (Nat.lt_irrefl j)
  rw [← hparts] at hle
  obtain ⟨st, hst, rfl⟩ := List.mem_map.1 hk
  obtain ⟨guard, hguard, rfl, hproceed⟩ :=
    proceed_of_mem_stepsFrom (Nat.zero_le j) (by rw [hplain]; decide) hstart hst hlt hle
  obtain ⟨c, hc, heq⟩ := eq_stepAt hguard
  have hforget : c.forget = (Command.rejected kind parameters).forget := by
    obtain ⟨c', hc', hforget⟩ := exists_getElem?_of_map_eq hcs hj
    obtain rfl : c = c' := Option.some.inj (hc.symm.trans hc')
    exact hforget
  rw [heq, signal_stepAt, Command.run_of_forget_rejected hforget] at hproceed
  cases hproceed

/-- **Guards fail closed.**  In a pass over any commands, one in the block behind another is run only if the other is
run as well and holds.  So the block behind a command that loading has replaced is run in no turn of a run, nor when the
run is closed. -/
theorem closed_behind_guards :
    (∀ (responsive : Bool) (m : Moment) (cs : List (Command σ)) (s : Scene σ) (j k : Nat),
      (partsOf cs)[j]? ≠ some .endBlock → (partsOf cs)[j + 1]? = some .startBlock →
      k ∈ (interpret responsive m cs s).1.executed → j < k → k ≤ skipBlock (partsOf cs) j →
      j ∈ (interpret responsive m cs s).1.executed ∧
        ∃ guard ∈ steps responsive m cs s, guard.place = j ∧ guard.signal = .proceed) ∧
    ∀ (reg : Registry σ) (script : Script) (i j : Nat), reg.PutsPlaceholder script i j →
      ∃ e kind parameters, (load reg script).events[i]? = some e ∧
        e.commands[j]? = some (.rejected kind parameters) ∧
        ∀ (o : Outside σ) (fuel : Nat) (c : Config) (w : World σ),
          let r := create c (load reg script).events w
          let q := course o fuel r
          execute o fuel r = conclude r q ∧
            (∀ t ∈ q.rounds, ∀ turn ∈ t.turns, turn.index = i → ∀ k ∈ turn.executed,
              ¬(j < k ∧ k ≤ skipBlock (partsOf e.commands) j)) ∧
            ∀ closing, q.closing? (startTime r) = some closing → closing.index = i → ∀ k ∈ closing.executed,
              ¬(j < k ∧ k ≤ skipBlock (partsOf e.commands) j) := by
  refine ⟨fun _ _ _ _ _ _ hend hstart hk hlt hle => executed_behind_guard hend hstart hk hlt hle, ?_⟩
  intro reg script i j h
  obtain ⟨e, kind, parameters, he, hc⟩ := h.getElem?
  have hcommands {events : List (Event σ)} {e' : Event σ}
      (hevents : events.map Event.forget = (load reg script).events.map Event.forget) (he' : events[i]? = some e') :
      e'.commands.map Command.forget = e.commands.map Command.forget := by
    obtain ⟨e'', he'', hforget⟩ := exists_getElem?_of_map_eq hevents he
    obtain rfl : e' = e'' := Option.some.inj (he'.symm.trans he'')
    exact congrArg Event.commands hforget
  refine ⟨e, kind, parameters, he, hc, fun o fuel c w => ⟨execute_eq .., ?_, ?_⟩⟩
  · intro t ht turn hturn hi k hk
    obtain ⟨-, hget, -⟩ := of_mem_turnsFrom hturn
    subst hi
    unfold Turn.executed Turn.steps at hk
    split at hk
    · exact not_executed_behind_rejected hc (hcommands ((map_forget_courseFrom ..).1 t ht) hget) hk
    · cases hk
  · intro closing hclosing hi k hk
    obtain ⟨hget, -⟩ := closing?_eq_some hclosing
    subst hi
    exact not_executed_behind_rejected hc (hcommands (map_forget_courseFrom ..).2 hget) hk

/-- A command that holds, and a block behind it that is never closed. -/
def openBlock : List (Command Unit) :=
  [⟨"GripperCommand", [], .signal .plain .proceed⟩, ⟨"StartBlockCommand", [], .signal .startBlock .proceed⟩]

theorem executed_openBlock (s : Scene Unit) : (interpret false ⟨1, 0⟩ openBlock s).1.executed = [0, 1] := by
  have hrun (kind : String) (part : Part) (s : Scene Unit) :
      runGuarded ⟨1, 0⟩ ⟨kind, [], .signal part .proceed⟩ s =
        (.proceed, ⟨kind, [], .signal part .proceed⟩,
          s.onWorld (·.note .trace target (kind ++ " -> " ++ Signal.proceed.name))) := rfl
  have hstart : elseLength ([⟨"StartBlockCommand", [], .signal .startBlock .proceed⟩] : List (Command Unit)) = 0 := rfl
  have hnil : elseLength ([] : List (Command Unit)) = 0 := rfl
  simp [interpret, openBlock, interpretFrom, hrun, hstart, hnil, Pass.behind]

/-- A script whose condition lacks its expression, so that it cannot be built. -/
def conditionless : Script :=
  ⟨[⟨"StepEvent", [], [⟨"ExpressionCommand", []⟩, ⟨"StartBlockCommand", []⟩, ⟨"EndProgramCommand", []⟩,
    ⟨"EndBlockCommand", []⟩]⟩]⟩

/-- The hypotheses of `closed_behind_guards` are satisfiable: a block is run behind a command that holds, and loading
puts a placeholder in front of another. -/
theorem closed_behind_guards_conditionless :
    (∃ guard ∈ steps false ⟨1, 0⟩ openBlock (create Config.default [] (World.initial ())).scene,
        guard.place = 0 ∧ guard.signal = .proceed) ∧
      ∃ e kind parameters, (load (Registry.builtin (Outside.nobody Unit)) conditionless).events[0]? = some e ∧
        e.commands[0]? = some (.rejected kind parameters) := by
  have hexecuted (s : Scene Unit) : 1 ∈ (interpret false ⟨1, 0⟩ openBlock s).1.executed := by
    rw [executed_openBlock]
    decide
  have hplaceholder : (Registry.builtin (Outside.nobody Unit)).PutsPlaceholder conditionless 0 0 :=
    ⟨[], _, [], [], _, _, rfl, rfl, rfl, rfl, rfl, .missingParameter "expression", rfl, by decide⟩
  obtain ⟨hpass, hload⟩ := @closed_behind_guards Unit
  obtain ⟨-, hguard⟩ := hpass false ⟨1, 0⟩ openBlock _ 0 1 (by decide) rfl (hexecuted _) (by decide) (by decide)
  obtain ⟨e, kind, parameters, he, hc, -⟩ := hload _ _ _ _ hplaceholder
  exact ⟨hguard, e, kind, parameters, he, hc⟩

end Run
end ArmPilot
