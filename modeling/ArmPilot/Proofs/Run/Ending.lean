import ArmPilot.Load.Program
import ArmPilot.Proofs.Run.Order
import ArmPilot.Proofs.Sandbox.Oversleeping

/-!
# How a run ends

The commands of a run are guarded, its triggers are not.  A run of a script breaks off exactly if the expression of a
trigger oversleeps, and then nothing is closed (`execute_load`).  Any other run goes on until it is asked to stop, and
the first `DestroyEvent` of its script is closed behind its last tick.
-/

namespace ArmPilot

variable {σ : Type}

namespace Event

/-- What the events of the program's own kinds have in common. -/
structure BuiltIn (o : Outside σ) (e : Event σ) : Prop where
  /-- No trigger breaks down but that of an expression, and that if the evaluation of its expression does. -/
  breaks : ∀ m memory s b, (e.ask m memory s).1.1 = .error b ↔
    e.kind = "ExpressionEvent" ∧ ∃ x, e.parameters.expression "expression" = .ok x ∧
      ((Act.evaluate o x.value).run.run s).1 = .error b
  closed : e.role = .destroy ↔ e.kind = "DestroyEvent"

variable {o : Outside σ}

/-- What an event remembers does not matter for what its kind is like. -/
theorem BuiltIn.of_forget {e e' : Event σ} (h : e.forget = e'.forget) (he : e.BuiltIn o) : e'.BuiltIn o := by
  have hkind : e.kind = e'.kind := show e.forget.kind = e'.forget.kind from congrArg Event.kind h
  have hparameters : e.parameters = e'.parameters :=
    show e.forget.parameters = e'.forget.parameters from congrArg Event.parameters h
  refine ⟨?_, ?_⟩
  · rw [← ask_eq_of_forget h, ← hkind, ← hparameters]
    exact he.breaks
  · rw [← role_eq_of_forget h, ← hkind]
    exact he.closed

theorem BuiltIn.of_answers {e : Event σ} (he : e.Answers) (hk : e.kind ≠ "ExpressionEvent")
    (h : e.role = .destroy ↔ e.kind = "DestroyEvent") : e.BuiltIn o := by
  refine ⟨fun m memory s b => iff_of_false (fun hb => ?_) fun hb => hk hb.1, h⟩
  obtain ⟨active, hactive⟩ := he m memory s
  rw [hactive] at hb
  cases hb

/-- A regular trigger may not be of the kind that is closed. -/
theorem closed_of_regular {e : Event σ} (hr : e.role = .regular) (hk : e.kind ≠ "DestroyEvent") :
    e.role = .destroy ↔ e.kind = "DestroyEvent" :=
  iff_of_false (fun h => nomatch hr.symm.trans h) hk

theorem answers_periodic (kind : String) (ps : Parameters) (period : Nat) :
    Answers ⟨kind, ps, periodic (σ := σ) period, []⟩ := by
  intro m memory s
  let elapsed := s.world.clock - m.started
  have hask : ask ⟨kind, ps, periodic period, []⟩ m memory s =
      ((if elapsed < memory then return false
        else do
          set (nextDue period memory elapsed)
          return true : Behaviour σ Bool).run.run memory).run s := rfl
  rw [hask]
  split
  · exact ⟨false, rfl⟩
  · exact ⟨true, rfl⟩

/-- The program's own kinds make built-in events. -/
theorem builtIn_of_mem_kinds {kind : String} {f : Factory σ} (hf : (kind, f) ∈ kinds o) {ps : Parameters}
    {t : Built (Trigger σ)} (ht : f ps = .ok t) : BuiltIn o ⟨kind, ps, t.value, []⟩ := by
  simp only [kinds, List.mem_cons, List.not_mem_nil, or_false, Prod.mk.injEq] at hf
  rcases hf with ⟨rfl, rfl⟩ | ⟨rfl, rfl⟩ | ⟨rfl, rfl⟩ | ⟨rfl, rfl⟩ | ⟨rfl, rfl⟩
  -- init
  · obtain rfl := Except.ok.inj ht
    exact .of_answers (fun m _ _ => ⟨m.tick = 1, rfl⟩) (by simp) (closed_of_regular rfl (by simp))
  -- step
  · obtain rfl := Except.ok.inj ht
    exact .of_answers (fun _ _ _ => ⟨true, rfl⟩) (by simp) (closed_of_regular rfl (by simp))
  -- expression
  · unfold expression at ht
    cases hx : ps.expression "expression" with
    | error _ =>
      rw [hx] at ht
      cases ht
    | ok x =>
      rw [hx] at ht
      obtain rfl := Except.ok.inj ht
      refine ⟨fun m memory s b => ?_, closed_of_regular rfl (by simp)⟩
      have hholds : ((Command.holds o x.value).run.run s).1 = .error b ↔ _ := Command.holds_eq_error_iff
      refine Iff.trans hholds ⟨fun hb => ⟨rfl, x, hx, hb⟩, ?_⟩
      rintro ⟨-, x', hx', hb⟩
      obtain rfl : x = x' := Except.ok.inj (hx.symm.trans hx')
      exact hb
  -- timer
  · unfold timer at ht
    cases hs : ps.number "seconds" with
    | error _ =>
      rw [hs] at ht
      cases ht
    | ok seconds =>
      rw [hs] at ht
      dsimp only [bind, Except.bind] at ht
      split at ht
      · cases ht
      · cases ht
      · obtain rfl := Except.ok.inj ht
        exact .of_answers (answers_periodic _ _ _) (by simp) (closed_of_regular rfl (by simp))
  -- destroy
  · obtain rfl := Except.ok.inj ht
    exact .of_answers (fun _ _ _ => ⟨false, rfl⟩) (by simp) (iff_of_true rfl rfl)

/-- The events of a script are built-in ones. -/
theorem builtIn_of_mem_load {script : Script} {e : Event σ} (he : e ∈ (load (Registry.builtin o) script).events) :
    e.BuiltIn o := by
  rw [events_load] at he
  obtain ⟨d, -, hd⟩ := List.mem_filterMap.1 he
  unfold Loading.event Registry.buildEvent at hd
  cases hf : Json.find? d.kind (Registry.builtin o).events with
  | none =>
    rw [hf] at hd
    cases hd
  | some f =>
    rw [hf] at hd
    cases hb : f d.parameters with
    | error _ =>
      dsimp only at hd
      rw [hb] at hd
      cases hd
    | ok b =>
      dsimp only at hd
      rw [hb] at hd
      obtain rfl := Option.some.inj hd
      have hbuilt := builtIn_of_mem_kinds (Json.mem_of_find? hf) hb
      exact ⟨hbuilt.breaks, hbuilt.closed⟩

end Event

namespace Run

/-- Whether the turn of an event breaks off because its expression oversleeps. -/
structure Turn.Oversleeps (o : Outside σ) (t : Turn σ) (b : Breakdown) : Prop where
  kind : t.event.kind = "ExpressionEvent"
  evaluation : ∃ x, t.event.parameters.expression "expression" = .ok x ∧ (Act.evaluate o x.value).Oversleeps t.before b

theorem Turn.oversleeps_iff {o : Outside σ} (ho : o.Steady) {t : Turn σ} (he : t.event.BuiltIn o) {b : Breakdown} :
    t.Oversleeps o b ↔ t.breakdown = some b := by
  have hbreaks : t.answer = .error b ↔ _ := he.breaks t.moment t.event.trigger.memory t.before b
  rw [Turn.breakdown_eq_some_iff, hbreaks]
  constructor
  · rintro ⟨hkind, x, hx, hb, -⟩
    exact ⟨hkind, x, hx, hb⟩
  · rintro ⟨hkind, x, hx, hb⟩
    exact ⟨hkind, x, hx, Act.wakes_iff.1 (Act.evaluate_wakes ho x.value) _ _ hb⟩

/-- What the end of a run is like that was asked to stop. -/
structure Course.Ends (q : Course σ) (r : Run σ) (events : List (Event σ)) (summary : Summary) (w : World σ) : Prop where
  cancelled : q.scene.world.cancelled = true
  counted : summary.ticks = q.rounds.length
  /-- No `DestroyEvent` has a turn in a tick. -/
  waiting : ∀ t ∈ q.rounds, ∀ turn ∈ t.turns, turn.event.kind ≠ "DestroyEvent"
  /-- The first one is closed behind the last tick, with one pass over its commands. -/
  closed : ∀ i e, r.events[i]? = some e → e.kind = "DestroyEvent" →
    (∀ j < i, ∀ e', r.events[j]? = some e' → e'.kind ≠ "DestroyEvent") →
    ∃ c : Closing σ, c.index = i ∧ c.event.forget = e.forget ∧ c.before = q.stoppedScene ∧ c.Orderly q.events ∧
      events = q.events.set i c.left ∧ summary.status = c.status ∧ w = c.after.world
  /-- If there is none, nothing is done behind the last tick. -/
  unclosed : (∀ e ∈ r.events, e.kind ≠ "DestroyEvent") → events = q.events ∧ w = q.stoppedScene.world

/-- Whether the expression of an event oversleeps in a tick. -/
def Course.Oversleeps (o : Outside σ) (q : Course σ) (b : Breakdown) : Prop :=
  ∃ t ∈ q.rounds, ∃ turn ∈ t.turns, turn.Oversleeps o b

section

variable {o : Outside σ} {fuel : Nat} {r : Run σ} (h : ∀ e ∈ r.events, e.BuiltIn o)

include h

/-- The events of every tick are built-in ones if the first ones are. -/
theorem builtIn_of_mem_turns {t : Round σ} (ht : t ∈ (course o fuel r).rounds) {turn : Turn σ} (hturn : turn ∈ t.turns) :
    turn.event.BuiltIn o := by
  obtain ⟨-, hget, -⟩ := of_mem_turnsFrom hturn
  exact forall_mem_of_map_eq (fun _ _ => Event.BuiltIn.of_forget) ((map_forget_courseFrom ..).1 t ht) h _
    (List.mem_of_getElem? hget)

/-- A run of built-in events breaks off exactly if an expression oversleeps. -/
theorem broken_iff_oversleeps (ho : o.Steady) {b : Breakdown} :
    (course o fuel r).progress = .broken b ↔ (course o fuel r).Oversleeps o b := by
  refine broken_iff.trans (exists_congr fun t => and_congr_right fun ht => ?_)
  refine findSome?_breakdown_turnsFrom.trans (exists_congr fun turn => and_congr_right fun hturn => ?_)
  exact (turn.oversleeps_iff ho (builtIn_of_mem_turns h ht hturn)).symm

/-- A run of built-in events that is asked to stop is closed. -/
theorem ends_of_stopped (hstop : (course o fuel r).progress = .stopped) :
    ∃ events summary w, conclude r (course o fuel r) = (.finished events summary, w) ∧
      (course o fuel r).Ends r events summary w := by
  have hforget := (map_forget_courseFrom o (startTime r) fuel 0 (.start r.period (startTime r)) r.events (startScene r)).2
  have hcancelled : (course o fuel r).scene.world.cancelled = true := cancelled_of_stopped hstop
  have hwaiting (t : Round σ) (ht : t ∈ (course o fuel r).rounds) (turn : Turn σ) (hturn : turn ∈ t.turns) :
      turn.event.kind ≠ "DestroyEvent" := by
    obtain ⟨-, -, hrole, -⟩ := of_mem_turnsFrom hturn
    exact fun hkind => hrole ((builtIn_of_mem_turns h ht hturn).closed.2 hkind)
  change (course o fuel r).events.map Event.forget = r.events.map Event.forget at hforget
  generalize course o fuel r = q at *
  have hdestroy {i : Nat} {e : Event σ} (he : r.events[i]? = some e) (hkind : e.kind = "DestroyEvent") :
      ∃ e', q.events[i]? = some e' ∧ e'.role = .destroy := by
    obtain ⟨e', he', heq⟩ := exists_getElem?_of_map_eq hforget he
    refine ⟨e', he', (Event.role_eq_of_forget heq).trans ?_⟩
    exact (h e (List.mem_of_getElem? he)).closed.2 hkind
  unfold conclude
  rw [hstop]
  dsimp only
  cases hclosing : q.closing? (startTime r) with
  | none =>
    refine ⟨_, _, _, rfl, hcancelled, rfl, hwaiting, fun i e he hkind _ => ?_, fun _ => ⟨rfl, rfl⟩⟩
    obtain ⟨e', he', hrole⟩ := hdestroy he hkind
    exact absurd hrole (closing?_eq_none hclosing (List.mem_of_getElem? he'))
  | some c =>
    obtain ⟨hget, hrole, hfirst, -, hbefore⟩ := closing?_eq_some hclosing
    obtain ⟨e₀, he₀, heq₀⟩ := exists_getElem?_of_map_eq hforget.symm hget
    have hkind₀ : e₀.kind = "DestroyEvent" :=
      (h e₀ (List.mem_of_getElem? he₀)).closed.1 ((Event.role_eq_of_forget heq₀).trans hrole)
    refine ⟨_, _, _, rfl, hcancelled, rfl, hwaiting, fun i e he hkind hleast => ?_, fun hnone => ?_⟩
    · rcases Nat.lt_trichotomy i c.index with hlt | rfl | hlt
      · obtain ⟨e', he', hrole'⟩ := hdestroy he hkind
        exact absurd hrole' (hfirst i hlt e' he')
      · obtain rfl : e₀ = e := Option.some.inj (he₀.symm.trans he)
        exact ⟨c, rfl, heq₀.symm, hbefore, orderly_closing hclosing, rfl, rfl, rfl⟩
      · exact absurd hkind₀ (hleast c.index hlt e₀ he₀)
    · exact absurd hkind₀ (hnone e₀ (List.mem_of_getElem? he₀))

end

/-- **A run of a script breaks off exactly if an expression oversleeps**, whatever else its triggers, commands and
parameters contain.  Any other run goes on until it is asked to stop, and is closed then. -/
theorem execute_load {o : Outside σ} (ho : o.Steady) (fuel : Nat) (c : Config) (script : Script) (w : World σ) :
    let r := create c (load (Registry.builtin o) script).events w
    let q := course o fuel r
    execute o fuel r = conclude r q ∧ (∀ b, (execute o fuel r).1 = .broken b ↔ q.Oversleeps o b) ∧
      match execute o fuel r with
      | (.broken _, w) => w = q.scene.world
      | (.unfinished, _) => q.rounds.length = fuel
      | (.finished events summary, w) => q.Ends r events summary w := by
  intro r q
  have hbuilt : ∀ e ∈ r.events, e.BuiltIn o := fun e he => Event.builtIn_of_mem_load he
  have hbroken (b : Breakdown) : q.progress = .broken b ↔ q.Oversleeps o b := broken_iff_oversleeps hbuilt ho
  have hpending (h : q.progress = .pending) : q.rounds.length = fuel := length_of_pending h
  have hstopped (h : q.progress = .stopped) := ends_of_stopped hbuilt h
  have hexecute : execute o fuel r = conclude r q := execute_eq ..
  rw [hexecute]
  refine ⟨rfl, ?_⟩
  cases hq : q.progress with
  | pending =>
    have hconclude : conclude r q = (.unfinished, q.scene.world) := by rw [conclude, hq]
    rw [hconclude]
    refine ⟨fun b => ?_, hpending hq⟩
    rw [← hbroken, hq]
    exact ⟨nofun, nofun⟩
  | broken b =>
    have hconclude : conclude r q = (.broken b, q.scene.world) := by rw [conclude, hq]
    rw [hconclude]
    refine ⟨fun b => ?_, rfl⟩
    rw [← hbroken, hq]
    exact ⟨fun h => congrArg Progress.broken (Ending.broken.inj h), fun h => congrArg Ending.broken (Progress.broken.inj h)⟩
  | stopped =>
    obtain ⟨events, summary, w', hconclude, hends⟩ := hstopped hq
    rw [hconclude]
    refine ⟨fun b => ?_, hends⟩
    rw [← hbroken, hq]
    exact ⟨nofun, nofun⟩

/-- A script with an expression that sleeps beyond the range of the clock, and with an event that is closed. -/
def oversleepingScript : Script :=
  ⟨[⟨"ExpressionEvent", [("expression", .str "sleep(9223372036854775807)")], []⟩,
    ⟨"StepEvent", [], [⟨"EndProgramCommand", []⟩]⟩,
    ⟨"DestroyEvent", [], [⟨"SetVariableCommand", [("expression", .str "1"), ("variable", .str "done")]⟩]⟩]⟩

/-- The hypothesis of `execute_load` is satisfiable: the camera is steady if nobody is outside. -/
theorem execute_load_oversleepingScript :
    (Outside.nobody Unit).Steady ∧
      let r := create Config.default (load (Registry.builtin (Outside.nobody Unit)) oversleepingScript).events
        (World.initial ())
      let q := course (Outside.nobody Unit) 1 r
      execute (Outside.nobody Unit) 1 r = conclude r q ∧
        (∀ b, (execute (Outside.nobody Unit) 1 r).1 = .broken b ↔ q.Oversleeps (Outside.nobody Unit) b) ∧
        match execute (Outside.nobody Unit) 1 r with
        | (.broken _, w) => w = q.scene.world
        | (.unfinished, _) => q.rounds.length = 1
        | (.finished events summary, w) => q.Ends r events summary w := by
  have hsteady : (Outside.nobody Unit).Steady := fun _ w => ⟨w, rfl⟩
  exact ⟨hsteady, execute_load hsteady 1 Config.default oversleepingScript (World.initial ())⟩

end Run
end ArmPilot
