import Mathlib.Algebra.Order.Group.Nat
import ArmPilot.Load.Program

/-!
# Which kinds remember

Of the program's own kinds, only `TimerEvent` and `RepeatCommand` remember anything.  A timer remembers when it is due
next, which depends on the longest time at which it was asked (`Event.next_periodic`); a command that repeats remembers
how often it was run, up to its limit (`Command.next_repeated`).  Every other kind leaves its memory alone
(`Event.asLoaded_of_mem_load`).
-/

namespace ArmPilot

variable {σ : Type} {o : Outside σ}

/-! ## Memories -/

/-- What a trigger remembers when it has been asked. -/
def Trigger.next (t : Trigger σ) (m : Moment) (s : Scene σ) : Nat := (((t.isActive m).run.run t.memory).run s).1.2

/-- What an action remembers when it has run. -/
def Action.next (a : Action σ) (m : Moment) (s : Scene σ) : Nat := (((a.run m).run.run a.memory).run s).1.2

/-- Whether a trigger leaves its memory alone. -/
def Trigger.Steady (t : Trigger σ) : Prop := ∀ m s, t.next m s = t.memory

/-- Whether an action leaves its memory alone. -/
def Action.Steady (a : Action σ) : Prop := ∀ m s, a.next m s = a.memory

theorem Trigger.steady_regular (a : Moment → Act σ Bool) : (Event.regular a).Steady := fun _ _ => rfl

theorem Action.steady_signal (part : Part) (s : Signal) : (Action.signal (σ := σ) part s).Steady := fun _ _ => rfl

theorem Action.steady_plain (a : Act σ Signal) : (Action.plain a).Steady := fun _ _ => rfl

namespace Event

/-- What a timer remembers is the first multiple of its period behind the longest time at which it was asked. -/
theorem nextDue_eq (period longest elapsed : Nat) :
    (if elapsed < period * (longest / period + 1) then period * (longest / period + 1)
      else nextDue period (period * (longest / period + 1)) elapsed) = period * (max longest elapsed / period + 1) := by
  rcases Nat.eq_zero_or_pos period with rfl | hp
  · simp [nextDue]
  · have hlongest : longest < period * (longest / period + 1) := Nat.lt_mul_div_succ longest hp
    -- either both times are in one period, or the timer is asked in a later one
    split
    · have hmax : max longest elapsed / period = longest / period := by
        refine Nat.div_eq_of_lt_le ?_ ?_
        · exact (Nat.div_mul_le_self ..).trans (Nat.le_max_left ..)
        · rw [Nat.mul_comm]
          exact Nat.max_lt.2 ⟨hlongest, ‹_›⟩
      rw [hmax]
    · have hle := Nat.not_lt.1 ‹_›
      have hdue : longest / period + 1 ≤ elapsed / period := by
        rw [Nat.le_div_iff_mul_le hp, Nat.mul_comm]
        exact hle
      rw [Nat.max_eq_right (hlongest.le.trans hle), nextDue, Nat.sub_mul_div, ← Nat.mul_add]
      congr 1
      omega

/-- A timer is active when it is due, and due again later then. -/
theorem ask_periodic (period due : Nat) (m : Moment) (s : Scene σ) :
    (((periodic period).isActive m).run.run due).run s =
      ((.ok (decide (due ≤ s.world.clock - m.started)),
        if s.world.clock - m.started < due then due else nextDue period due (s.world.clock - m.started)), s) := by
  have hask : (((periodic period : Trigger σ).isActive m).run.run due).run s =
      ((if s.world.clock - m.started < due then return false
        else do
          set (nextDue period due (s.world.clock - m.started))
          return true : Behaviour σ Bool).run.run due).run s := rfl
  rw [hask]
  by_cases hlt : s.world.clock - m.started < due
  · rw [if_pos hlt, if_pos hlt, decide_eq_false (Nat.not_le.2 hlt)]
    rfl
  · rw [if_neg hlt, if_neg hlt, decide_eq_true (Nat.not_lt.1 hlt)]
    rfl

/-- A timer that was asked is due in the period behind the longest time at which it was. -/
theorem next_periodic (period longest : Nat) (m : Moment) (s : Scene σ) :
    Trigger.next { periodic period with memory := period * (longest / period + 1) } m s =
      period * (max longest (s.world.clock - m.started) / period + 1) := by
  rw [← nextDue_eq]
  exact congrArg (fun r => r.1.2) (ask_periodic period (period * (longest / period + 1)) m s)

end Event

namespace Command

/-- A command that repeats holds until its count has reached its limit. -/
theorem run_repeated (times count : Nat) (m : Moment) (s : Scene σ) :
    (((repeated times).run m).run.run count).run s =
      ((.ok (.ofBool (count < times)), if count < times then count + 1 else count), s) := by
  have hrun : (((repeated times : Action σ).run m).run.run count).run s =
      ((if count < times then do
          set (count + 1)
          return .proceed
        else return .skip : Behaviour σ Signal).run.run count).run s := rfl
  rw [hrun]
  by_cases hlt : count < times
  · rw [if_pos hlt, if_pos hlt, decide_eq_true hlt]
    rfl
  · rw [if_neg hlt, if_neg hlt, decide_eq_false hlt]
    rfl

/-- A command that repeats counts its runs up to its limit. -/
theorem next_repeated (times runs : Nat) (m : Moment) (s : Scene σ) :
    Action.next { repeated times with memory := min times runs } m s = min times (runs + 1) := by
  refine (congrArg (fun r => r.1.2) (run_repeated times (min times runs) m s)).trans ?_
  dsimp only
  split <;> omega

end Command

/-! ## The kinds of commands -/

/-- How often a command of the kind `RepeatCommand` holds, by its parameters. -/
def Command.times? (c : Command σ) : Option Nat :=
  if c.kind = "RepeatCommand" then
    match c.parameters.number "times" with
    | .ok times =>
      if times < 0.0 || !Decimal.isWhole times then none
      else some (min (Decimal.Binary.ofFloat times).truncate.toNat (Word.count - 1))
    | .error _ => none
  else none

/-- What is known of a command that was loaded. -/
structure Command.AsLoaded (c : Command σ) : Prop where
  repeated : ∀ n, c.times? = some n → c.action = repeated n
  steady : c.times? = none → c.action.Steady

/-- Whether what is made of parameters, if anything, has a property. -/
def Makes (P : Action σ → Prop) (r : Except LoadError (Built (Action σ))) : Prop := ∀ b, r = .ok b → P b.value

namespace Makes

variable {P : Action σ → Prop}

theorem of_ok {b : Built (Action σ)} (h : P b.value) : Makes P (.ok b) := fun _ hb => Except.ok.inj hb ▸ h

theorem of_error (e : LoadError) : Makes P (.error e) := nofun

theorem bind {α : Type} {x : Except LoadError α} {f : α → Except LoadError (Built (Action σ))}
    (h : ∀ a, Makes P (f a)) : Makes P (x >>= f) := by
  cases x with
  | error e => exact of_error e
  | ok a => exact h a

end Makes

namespace Command

theorem AsLoaded.of_steady {c : Command σ} (hkind : c.kind ≠ "RepeatCommand") (h : c.action.Steady) : c.AsLoaded := by
  have htimes : c.times? = none := if_neg hkind
  refine ⟨fun n hn => ?_, fun _ => h⟩
  rw [htimes] at hn
  cases hn

/-- A command of another kind than `RepeatCommand` leaves its memory alone. -/
theorem steady_of_mem_kinds {kind : String} {f : Factory σ} (hf : (kind, f) ∈ kinds o) (hkind : kind ≠ "RepeatCommand")
    (ps : Parameters) : Makes Action.Steady (f ps) := by
  simp only [kinds, List.mem_cons, List.not_mem_nil, or_false, Prod.mk.injEq] at hf
  rcases hf with ⟨-, rfl⟩ | ⟨-, rfl⟩ | ⟨-, rfl⟩ | ⟨-, rfl⟩ | ⟨-, rfl⟩ | ⟨-, rfl⟩ | ⟨-, rfl⟩ | ⟨-, rfl⟩ | ⟨-, rfl⟩ |
    ⟨hrepeat, -⟩ | ⟨-, rfl⟩ | ⟨-, rfl⟩ | ⟨-, rfl⟩ | ⟨-, rfl⟩ | ⟨-, rfl⟩
  -- startBlock, endBlock, elseMark
  · exact .of_ok (Action.steady_signal _ _)
  · exact .of_ok (Action.steady_signal _ _)
  · exact .of_ok (Action.steady_signal _ _)
  -- setVariable
  · exact .bind fun _ => .bind fun _ => .of_ok (Action.steady_plain _)
  -- testVariable
  · refine .bind fun name => .bind fun sign => ?_
    cases Comparison.parse? sign with
    | none => exact .of_error _
    | some c => exact .bind fun _ => .of_ok (Action.steady_plain _)
  -- expressionTest
  · exact .bind fun _ => .of_ok (Action.steady_plain _)
  -- runScript
  · exact .bind fun _ => .of_ok (Action.steady_plain _)
  -- sleep
  · refine .bind fun seconds => ?_
    cases duration? seconds with
    | none => exact .of_error _
    | some d => exact .of_ok (Action.steady_plain _)
  -- print
  · exact .bind fun _ => .of_ok (Action.steady_plain _)
  -- repeatTimes
  · exact absurd hrepeat hkind
  -- moveXyz
  · exact .bind fun _ => .bind fun _ => .bind fun _ => .bind fun _ => .of_ok (Action.steady_plain _)
  -- speed
  · exact .bind fun _ => .of_ok (Action.steady_plain _)
  -- gripper
  · exact .bind fun _ => .of_ok (Action.steady_plain _)
  -- exit, kill
  · exact .of_ok (Action.steady_signal _ _)
  · exact .of_ok (Action.steady_signal _ _)

/-- A command of the kind `RepeatCommand` is built exactly if its parameters say how often it holds. -/
theorem repeatTimes_cases (ps : Parameters) (a : Action σ) :
    (∃ n, times? ⟨"RepeatCommand", ps, a⟩ = some n ∧ repeatTimes ps = .ok (.sound (repeated (σ := σ) n))) ∨
      times? ⟨"RepeatCommand", ps, a⟩ = none ∧ ∃ e, repeatTimes (σ := σ) ps = .error e := by
  unfold repeatTimes
  rw [times?, if_pos rfl]
  dsimp only
  cases ps.number "times" with
  | error e => exact .inr ⟨rfl, e, rfl⟩
  | ok times =>
    dsimp only [bind, Except.bind]
    split
    · exact .inr ⟨rfl, _, rfl⟩
    · exact .inl ⟨_, rfl, rfl⟩

/-- The commands of the program's own kinds. -/
theorem asLoaded_of_mem_kinds {kind : String} {f : Factory σ} (hf : (kind, f) ∈ kinds o) {ps : Parameters}
    {b : Built (Action σ)} (hb : f ps = .ok b) : AsLoaded ⟨kind, ps, b.value⟩ := by
  by_cases hkind : kind = "RepeatCommand"
  · subst hkind
    have hfactory : f = repeatTimes := by
      simpa [kinds] using hf
    subst hfactory
    rcases repeatTimes_cases ps b.value with ⟨n, htimes, hok⟩ | ⟨-, e, herror⟩
    · obtain rfl := Except.ok.inj (hb.symm.trans hok)
      refine ⟨fun n' hn' => ?_, fun hnone => (nomatch htimes.symm.trans hnone)⟩
      obtain rfl := Option.some.inj (htimes.symm.trans hn')
      rfl
    · cases hb.symm.trans herror
  · exact .of_steady hkind (steady_of_mem_kinds hf hkind ps b hb)

/-- A command that could not be built keeps no count. -/
theorem asLoaded_rejected {kind : String} {f : Factory σ} (hf : (kind, f) ∈ kinds o) {ps : Parameters} {e : LoadError}
    (he : f ps = .error e) : (rejected (σ := σ) kind ps).AsLoaded := by
  by_cases hkind : kind = "RepeatCommand"
  · subst hkind
    have hfactory : f = repeatTimes := by
      simpa [kinds] using hf
    subst hfactory
    rcases repeatTimes_cases ps (.signal .plain .skip) with ⟨n, -, hok⟩ | ⟨htimes, -⟩
    · cases he.symm.trans hok
    · exact ⟨fun n hn => (nomatch htimes.symm.trans hn), fun _ => Action.steady_signal _ _⟩
  · exact .of_steady hkind (Action.steady_signal _ _)

/-- A command that is loaded is built by one of the program's own kinds, or stands in the place of one that could not
be built. -/
theorem loading_cases {d : CommandDescriptor} {c : Command σ}
    (hc : (Loading.command (Registry.builtin o) d).result = some c) :
    ∃ f, (d.kind, f) ∈ kinds o ∧
      ((∃ b, f d.parameters = .ok b ∧ c = ⟨d.kind, d.parameters, b.value⟩) ∨
        ∃ e, f d.parameters = .error e ∧ c = rejected d.kind d.parameters) := by
  unfold Loading.command Registry.buildCommand at hc
  cases hf : Json.find? d.kind (Registry.builtin o).commands with
  | none =>
    rw [hf] at hc
    cases hc
  | some f =>
    refine ⟨f, Json.mem_of_find? hf, ?_⟩
    rw [hf] at hc
    cases hb : f d.parameters with
    | ok b =>
      dsimp only at hc
      rw [hb] at hc
      exact .inl ⟨b, rfl, (Option.some.inj hc).symm⟩
    | error e =>
      dsimp only at hc
      rw [hb] at hc
      cases e with
      | unknownCommandKind => cases hc
      | unknownEventKind | missingParameter | invalidParameter | invalidExpression =>
        exact .inr ⟨_, rfl, (Option.some.inj hc).symm⟩

/-- The commands of a script that are loaded. -/
theorem asLoaded_of_loading {d : CommandDescriptor} {c : Command σ}
    (hc : (Loading.command (Registry.builtin o) d).result = some c) : c.AsLoaded := by
  obtain ⟨f, hf, ⟨b, hb, rfl⟩ | ⟨e, he, rfl⟩⟩ := loading_cases hc
  · exact asLoaded_of_mem_kinds hf hb
  · exact asLoaded_rejected hf he

end Command

/-! ## The kinds of events -/

namespace Event

/-- The period of an event of the kind `TimerEvent`, by its parameters. -/
def period? (e : Event σ) : Option Nat :=
  if e.kind = "TimerEvent" then
    match e.parameters.number "seconds" with
    | .ok seconds => Command.duration? seconds
    | .error _ => none
  else none

/-- What is known of an event that was loaded. -/
structure AsLoaded (e : Event σ) : Prop where
  timer : ∀ p, e.period? = some p → e.trigger = periodic p
  positive : ∀ p, e.period? = some p → 0 < p
  steady : e.period? = none → e.trigger.Steady
  commands : ∀ c ∈ e.commands, c.AsLoaded

/-- The triggers of the program's own kinds. -/
theorem trigger_of_mem_kinds {kind : String} {f : Factory σ} (hf : (kind, f) ∈ kinds o) {ps : Parameters}
    {b : Built (Trigger σ)} (hb : f ps = .ok b) (cs : List (Command σ)) :
    (∃ p, period? ⟨kind, ps, b.value, cs⟩ = some p ∧ 0 < p ∧ b.value = periodic p) ∨
      period? ⟨kind, ps, b.value, cs⟩ = none ∧ b.value.Steady := by
  simp only [kinds, List.mem_cons, List.not_mem_nil, or_false, Prod.mk.injEq] at hf
  rcases hf with ⟨rfl, rfl⟩ | ⟨rfl, rfl⟩ | ⟨rfl, rfl⟩ | ⟨rfl, rfl⟩ | ⟨rfl, rfl⟩
  -- init
  · obtain rfl := Except.ok.inj hb
    exact .inr ⟨rfl, Trigger.steady_regular _⟩
  -- step
  · obtain rfl := Except.ok.inj hb
    exact .inr ⟨rfl, Trigger.steady_regular _⟩
  -- expression
  · refine .inr ⟨rfl, ?_⟩
    unfold expression at hb
    cases hx : ps.expression "expression" with
    | error _ =>
      rw [hx] at hb
      cases hb
    | ok x =>
      rw [hx] at hb
      obtain rfl := Except.ok.inj hb
      exact Trigger.steady_regular _
  -- timer
  · unfold timer at hb
    rw [period?, if_pos rfl]
    dsimp only
    cases hnumber : ps.number "seconds" with
    | error _ =>
      rw [hnumber] at hb
      cases hb
    | ok seconds =>
      rw [hnumber] at hb
      dsimp only [bind, Except.bind] at hb ⊢
      cases hduration : Command.duration? seconds with
      | none =>
        rw [hduration] at hb
        cases hb
      | some p =>
        rw [hduration] at hb
        cases p with
        | zero => cases hb
        | succ p =>
          obtain rfl := Except.ok.inj hb
          exact .inl ⟨_, rfl, Nat.succ_pos p, rfl⟩
  -- destroy
  · obtain rfl := Except.ok.inj hb
    exact .inr ⟨rfl, fun _ _ => rfl⟩

/-- **The events of a script** remember nothing but when their timers are due and how often their commands repeated. -/
theorem asLoaded_of_mem_load {script : Script} {e : Event σ} (he : e ∈ (load (Registry.builtin o) script).events) :
    e.AsLoaded := by
  rw [events_load] at he
  obtain ⟨d, -, hd⟩ := List.mem_filterMap.1 he
  unfold Loading.event Registry.buildEvent at hd
  cases hf : Json.find? d.kind (Registry.builtin o).events with
  | none =>
    rw [hf] at hd
    cases hd
  | some f =>
    rw [hf] at hd
    cases hb : f d.parameters with
    | error _ =>
      dsimp only at hd
      rw [hb] at hd
      cases hd
    | ok b =>
      dsimp only at hd
      rw [hb] at hd
      obtain rfl := Option.some.inj hd
      let cs := (d.commands.map (Loading.command (Registry.builtin o))).filterMap (·.result)
      have hcommands : ∀ c ∈ cs, c.AsLoaded := by
        intro c hc
        obtain ⟨l, hl, hlc⟩ := List.mem_filterMap.1 hc
        obtain ⟨dc, -, rfl⟩ := List.mem_map.1 hl
        exact Command.asLoaded_of_loading hlc
      rcases trigger_of_mem_kinds (Json.mem_of_find? hf) hb cs with
        ⟨p, hperiod, hpositive, htrigger⟩ | ⟨hperiod, hsteady⟩
      · have hp {p' : Nat} (hp' : period? _ = some p') : p = p' := Option.some.inj (hperiod.symm.trans hp')
        exact ⟨fun p' hp' => hp hp' ▸ htrigger, fun p' hp' => hp hp' ▸ hpositive,
          fun hnone => (nomatch hperiod.symm.trans hnone), hcommands⟩
      · exact ⟨fun p hp => (nomatch hperiod.symm.trans hp), fun p hp => (nomatch hperiod.symm.trans hp),
          fun _ => hsteady, hcommands⟩

end Event
end ArmPilot
