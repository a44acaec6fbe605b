import ArmPilot.Proofs.Memory.Kinds
import ArmPilot.Proofs.Sandbox.Tied

/-!
# Tame kinds

An event is tame if its trigger and its commands reach a world only through its machines, its log and those outside, so
that they do the same in tied worlds.  The program's own kinds are tame (`Registry.tame_builtin`), and so are the events
of every script that is loaded with tame kinds (`Registry.Tame.events`).
-/

namespace ArmPilot

variable {σ α : Type} {o : Outside σ}

/-- Whether a behaviour does the same in tied scenes, with the same memory. -/
def Behaviour.Tied (T : Tie o) (b : Behaviour σ α) : Prop :=
  ∀ memory s s', T.Scenes s s' →
    ((b.run.run memory).run s').1 = ((b.run.run memory).run s).1 ∧
      T.Scenes ((b.run.run memory).run s).2 ((b.run.run memory).run s').2

theorem Behaviour.ofAct_tied {T : Tie o} {a : Act σ α} (h : Act.Tied T a) :
    Behaviour.Tied T (.ofAct a) := fun memory s s' hs =>
  ⟨congrArg (fun r => (r, memory)) (h s s' hs).1, (h s s' hs).2⟩

/-- Whether an action does the same in tied worlds. -/
def Action.Tame (o : Outside σ) (a : Action σ) : Prop := ∀ (T : Tie o) m, Behaviour.Tied T (a.run m)

/-- Whether a trigger does the same in tied worlds. -/
def Trigger.Tame (o : Outside σ) (t : Trigger σ) : Prop := ∀ (T : Tie o) m, Behaviour.Tied T (t.isActive m)

/-- Whether an event does the same in tied worlds. -/
structure Event.Tame (o : Outside σ) (e : Event σ) : Prop where
  trigger : e.trigger.Tame o
  commands : ∀ c ∈ e.commands, c.action.Tame o

theorem Action.tame_signal (part : Part) (s : Signal) : (Action.signal part s).Tame o := fun _ _ _ _ _ hs => ⟨rfl, hs⟩

theorem Action.tame_plain {a : Act σ Signal} (h : ∀ T : Tie o, Act.Tied T a) : (Action.plain a).Tame o :=
  fun T _ => Behaviour.ofAct_tied (h T)

theorem Action.tame_repeated (times : Nat) : (Command.repeated times).Tame o := by
  intro T m memory s s' hs
  rw [Command.run_repeated, Command.run_repeated]
  exact ⟨rfl, hs⟩

theorem Trigger.tame_regular {a : Moment → Act σ Bool} (h : ∀ (T : Tie o) m, Act.Tied T (a m)) :
    (Event.regular a).Tame o := fun T m => Behaviour.ofAct_tied (h T m)

theorem Trigger.tame_periodic (period : Nat) : (Event.periodic period).Tame o := by
  intro T m memory s s' hs
  rw [Event.ask_periodic, Event.ask_periodic, T.clock hs.2]
  exact ⟨rfl, hs⟩

/-! ## The program's own kinds -/

/-- A command of one of the program's own kinds is tame. -/
theorem Command.tame_of_mem_kinds {kind : String} {f : Factory σ} (hf : (kind, f) ∈ kinds o) (ps : Parameters) :
    Makes (Action.Tame o) (f ps) := by
  have hholds (e : String) : (Action.plain do return .ofBool (← holds o e)).Tame o :=
    Action.tame_plain fun T => (holds_tied e).bind fun _ => .pure _
  simp only [kinds, List.mem_cons, List.not_mem_nil, or_false, Prod.mk.injEq] at hf
  rcases hf with ⟨-, rfl⟩ | ⟨-, rfl⟩ | ⟨-, rfl⟩ | ⟨-, rfl⟩ | ⟨-, rfl⟩ | ⟨-, rfl⟩ | ⟨-, rfl⟩ | ⟨-, rfl⟩ | ⟨-, rfl⟩ |
    ⟨-, rfl⟩ | ⟨-, rfl⟩ | ⟨-, rfl⟩ | ⟨-, rfl⟩ | ⟨-, rfl⟩ | ⟨-, rfl⟩
  -- startBlock, endBlock, elseMark
  · exact .of_ok (Action.tame_signal _ _)
  · exact .of_ok (Action.tame_signal _ _)
  · exact .of_ok (Action.tame_signal _ _)
  -- setVariable
  · refine .bind fun name => .bind fun e => .of_ok (Action.tame_plain fun T => (Act.evaluate_tied _).bind fun v => ?_)
    split
    · exact .pure _
    · refine (Act.setVariable_tied _ _).bind fun r => ?_
      split
      · exact .pure _
      · exact (Act.note_tied _ _ _).bind fun _ => .pure _
  -- testVariable
  · refine .bind fun name => .bind fun sign => ?_
    cases Comparison.parse? sign with
    | none => exact .of_error _
    | some c => exact .bind fun _ => .of_ok (hholds _)
  -- expressionTest
  · exact .bind fun _ => .of_ok (hholds _)
  -- runScript
  · exact .bind fun _ => .of_ok (Action.tame_plain fun T => (Act.execute_tied _).bind fun _ => .pure _)
  -- sleep
  · refine .bind fun seconds => ?_
    cases duration? seconds with
    | none => exact .of_error _
    | some d => exact .of_ok (Action.tame_plain fun T => pause_tied d)
  -- print
  · refine .bind fun e => .of_ok (Action.tame_plain fun T => (Act.evaluate_tied _).bind fun r => ?_)
    split
    · exact (Act.note_tied _ _ _).bind fun _ => .pure _
    · exact .pure _
  -- repeatTimes
  · refine .bind fun times => ?_
    split
    · exact .of_error _
    · exact .of_ok (Action.tame_repeated _)
  -- moveXyz
  · refine .bind fun x => .bind fun y => .bind fun z => .bind fun relative => .of_ok (Action.tame_plain fun T => ?_)
    refine (coordinate_tied _).bind fun cx => (coordinate_tied _).bind fun cy => (coordinate_tied _).bind fun cz => ?_
    split
    · exact (move_tied _ _).bind fun _ => .pure _
    · exact .pure _
  -- speed
  · refine .bind fun e => .of_ok (Action.tame_plain fun T => (Act.evaluate_tied _).bind fun r => ?_)
    split
    · exact (Act.onWorld_tied fun _ _ h => T.setSpeed h _).bind fun _ => .pure _
    · exact .pure _
  -- gripper
  · refine .bind fun on => .of_ok (Action.tame_plain fun T => ?_)
    exact (Act.onWorld_tied fun _ _ h => T.setGripper h _).bind fun _ => .pure _
  -- exit, kill
  · exact .of_ok (Action.tame_signal _ _)
  · exact .of_ok (Action.tame_signal _ _)

/-- A trigger of one of the program's own kinds is tame. -/
theorem Event.tame_of_mem_kinds {kind : String} {f : Factory σ} (hf : (kind, f) ∈ kinds o) {ps : Parameters}
    {b : Built (Trigger σ)} (hb : f ps = .ok b) : b.value.Tame o := by
  simp only [kinds, List.mem_cons, List.not_mem_nil, or_false, Prod.mk.injEq] at hf
  rcases hf with ⟨-, rfl⟩ | ⟨-, rfl⟩ | ⟨-, rfl⟩ | ⟨-, rfl⟩ | ⟨-, rfl⟩
  -- init, step
  · obtain rfl := Except.ok.inj hb
    exact Trigger.tame_regular fun _ _ => .pure _
  · obtain rfl := Except.ok.inj hb
    exact Trigger.tame_regular fun _ _ => .pure _
  -- expression
  · unfold expression at hb
    cases hx : ps.expression "expression" with
    | error _ =>
      rw [hx] at hb
      cases hb
    | ok x =>
      rw [hx] at hb
      obtain rfl := Except.ok.inj hb
      exact Trigger.tame_regular fun _ _ => Command.holds_tied _
  -- timer
  · unfold timer at hb
    cases hnumber : ps.number "seconds" with
    | error _ =>
      rw [hnumber] at hb
      cases hb
    | ok seconds =>
      rw [hnumber] at hb
      dsimp only [bind, Except.bind] at hb
      split at hb
      · cases hb
      · cases hb
      · obtain rfl := Except.ok.inj hb
        exact Trigger.tame_periodic _
  -- destroy
  · obtain rfl := Except.ok.inj hb
    exact fun _ _ _ _ _ hs => ⟨rfl, hs⟩

/-! ## Scripts -/

/-- Whether all kinds of a registry make tame events and commands. -/
structure Registry.Tame (o : Outside σ) (reg : Registry σ) : Prop where
  command : ∀ kind f ps b, (kind, f) ∈ reg.commands → f ps = .ok b → b.value.Tame o
  event : ∀ kind f ps b, (kind, f) ∈ reg.events → f ps = .ok b → b.value.Tame o

theorem Registry.tame_builtin (o : Outside σ) : (Registry.builtin o).Tame o where
  command _ _ ps b hf hb := Command.tame_of_mem_kinds hf ps b hb
  event _ _ _ _ hf hb := Event.tame_of_mem_kinds hf hb

variable {reg : Registry σ}

theorem Registry.Tame.loading_command (h : reg.Tame o) {d : CommandDescriptor} {c : Command σ}
    (hc : (Loading.command reg d).result = some c) : c.action.Tame o := by
  unfold Loading.command at hc
  unfold buildCommand at hc
  cases hf : Json.find? d.kind reg.commands with
  | none =>
    rw [hf] at hc
    cases hc
  | some f =>
    rw [hf] at hc
    cases hb : f d.parameters with
    | ok b =>
      dsimp only at hc
      rw [hb] at hc
      obtain rfl := Option.some.inj hc
      exact h.command _ _ _ _ (Json.mem_of_find? hf) hb
    | error e =>
      dsimp only at hc
      rw [hb] at hc
      cases e with
      | unknownCommandKind => cases hc
      | unknownEventKind | missingParameter | invalidParameter | invalidExpression =>
        obtain rfl := Option.some.inj hc
        exact Action.tame_signal _ _

/-- **The events of a script that is loaded with tame kinds are tame.** -/
theorem Registry.Tame.events (h : reg.Tame o) {script : Script} {e : Event σ} (he : e ∈ (load reg script).events) :
    e.Tame o := by
  rw [events_load] at he
  obtain ⟨d, -, hd⟩ := List.mem_filterMap.1 he
  unfold Loading.event buildEvent at hd
  cases hf : Json.find? d.kind reg.events with
  | none =>
    rw [hf] at hd
    cases hd
  | some f =>
    rw [hf] at hd
    cases hb : f d.parameters with
    | error _ =>
      dsimp only at hd
      rw [hb] at hd
      cases hd
    | ok b =>
      dsimp only at hd
      rw [hb] at hd
      obtain rfl := Option.some.inj hd
      refine ⟨h.event _ _ _ _ (Json.mem_of_find? hf) hb, fun c hc => ?_⟩
      obtain ⟨l, hl, hlc⟩ := List.mem_filterMap.1 hc
      obtain ⟨dc, -, rfl⟩ := List.mem_map.1 hl
      exact h.loading_command hlc

end ArmPilot
