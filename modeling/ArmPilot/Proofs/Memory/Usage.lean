import Mathlib.Data.List.Nodup
import ArmPilot.Proofs.Memory.Kinds
import ArmPilot.Proofs.Run.Course

/-!
# What the events of a script remember

A run leaves its events as its usage of them says: how long after its start each was asked, and how often each of their
commands was run (`Run.events_execute`).  In the next run a timer is due at the first multiple of its period behind the
longest time at which it was asked in any run, and a command that repeats holds only as often as all runs together have
left it (`Run.continues_course`).
-/

namespace ArmPilot

variable {σ : Type}

/-! ## Commands and events that were used -/

namespace Command

variable {c : Command σ}

/-- What a command remembers that was run a number of times. -/
def memoryAfter (c : Command σ) (runs : Nat) : Nat :=
  match c.times? with
  | some n => min n runs
  | none => c.action.memory

/-- A command after a number of runs. -/
def aged (c : Command σ) (runs : Nat) : Command σ := c.remember (c.memoryAfter runs)

theorem memoryAfter_of_times? {n : Nat} (h : c.times? = some n) (runs : Nat) : c.memoryAfter runs = min n runs := by
  rw [memoryAfter, h]

theorem memoryAfter_of_steady (h : c.times? = none) (runs : Nat) : c.memoryAfter runs = c.action.memory := by
  rw [memoryAfter, h]

/-- A command remembers what it did when it was loaded unless it has repeated. -/
theorem memoryAfter_eq_iff (hc : c.AsLoaded) (runs : Nat) :
    c.memoryAfter runs = c.action.memory ↔ ∀ n, c.times? = some n → n = 0 ∨ runs = 0 := by
  cases h : c.times? with
  | none => exact iff_of_true (memoryAfter_of_steady h runs) nofun
  | some n =>
    have hmemory : c.action.memory = 0 := by rw [hc.repeated n h]; rfl
    rw [memoryAfter_of_times? h, hmemory]
    refine ⟨fun hmin n' hn' => ?_, fun hn => ?_⟩
    · obtain rfl := Option.some.inj hn'
      omega
    · have := hn n rfl
      omega

/-- Every run counts. -/
theorem run_aged (hc : c.AsLoaded) (runs : Nat) (m : Moment) (s : Scene σ) :
    ((c.aged runs).run m s).2.1 = c.aged (runs + 1) := by
  have hnext : (c.aged runs).action.next m s = c.memoryAfter (runs + 1) := by
    show Action.next { c.action with memory := c.memoryAfter runs } m s = _
    cases h : c.times? with
    | none =>
      rw [memoryAfter_of_steady h, memoryAfter_of_steady h]
      exact hc.steady h m s
    | some n =>
      rw [memoryAfter_of_times? h, memoryAfter_of_times? h, hc.repeated n h]
      exact next_repeated n runs m s
  exact congrArg c.remember hnext

/-- A command that repeats holds until it was run as often as it may. -/
theorem signal_aged (hc : c.AsLoaded) {n : Nat} (hn : c.times? = some n) (runs : Nat) (m : Moment) (s : Scene σ) :
    ((c.aged runs).run m s).1 = .ok (.ofBool (runs < n)) := by
  have hrun : ((c.aged runs).run m s).1 = (((c.action.run m).run.run (c.memoryAfter runs)).run s).1.1 := rfl
  have hlt : min n runs < n ↔ runs < n := by omega
  rw [hrun, memoryAfter_of_times? hn, hc.repeated n hn, run_repeated]
  simp only [hlt]

end Command

namespace Event

variable {e : Event σ}

/-- What the trigger of an event remembers that was asked at most so long after the start of a run. -/
def memoryAfter (e : Event σ) (longest : Nat) : Nat :=
  match e.period? with
  | some p => p * (longest / p + 1)
  | none => e.trigger.memory

/-- An event that was asked at most so long after the start of a run, and whose commands were run so often. -/
def aged (e : Event σ) (longest : Nat) (runs : Nat → Nat) : Event σ :=
  { e with
    trigger := { e.trigger with memory := e.memoryAfter longest }
    commands := e.commands.mapIdx fun k c => c.aged (runs k) }

theorem memoryAfter_of_period? {p : Nat} (h : e.period? = some p) (longest : Nat) :
    e.memoryAfter longest = p * (longest / p + 1) := by
  rw [memoryAfter, h]

theorem memoryAfter_of_steady (h : e.period? = none) (longest : Nat) : e.memoryAfter longest = e.trigger.memory := by
  rw [memoryAfter, h]

/-- A trigger remembers what it did when it was loaded unless it was asked when its period had passed. -/
theorem memoryAfter_eq_iff (he : e.AsLoaded) (longest : Nat) :
    e.memoryAfter longest = e.trigger.memory ↔ ∀ p, e.period? = some p → longest < p := by
  cases h : e.period? with
  | none => exact iff_of_true (memoryAfter_of_steady h longest) nofun
  | some p =>
    have hpositive := he.positive p h
    have hmemory : e.trigger.memory = p := by rw [he.timer p h]; rfl
    have hdue : p * (longest / p + 1) = p ↔ longest < p := by
      rw [← Nat.div_eq_zero_iff_lt hpositive, Nat.mul_eq_left (Nat.ne_of_gt hpositive), Nat.add_eq_right]
    rw [memoryAfter_of_period? h, hmemory, hdue]
    exact ⟨fun hlt p' hp' => Option.some.inj hp' ▸ hlt, fun hlt => hlt p rfl⟩

/-- Every time counts at which a trigger is asked. -/
theorem poll_aged (he : e.AsLoaded) (longest : Nat) (runs : Nat → Nat) (m : Moment) (s : Scene σ) :
    ((e.aged longest runs).poll m s).2.1 = e.aged (max longest (s.world.clock - m.started)) runs := by
  have hnext : (e.aged longest runs).trigger.next m s = e.memoryAfter (max longest (s.world.clock - m.started)) := by
    show Trigger.next { e.trigger with memory := e.memoryAfter longest } m s = _
    cases h : e.period? with
    | none =>
      rw [memoryAfter_of_steady h, memoryAfter_of_steady h]
      exact he.steady h m s
    | some p =>
      rw [memoryAfter_of_period? h, memoryAfter_of_period? h, he.timer p h]
      exact next_periodic p longest m s
  unfold aged
  rw [← hnext]
  rfl

/-- A timer is active when it is due. -/
theorem answer_aged (he : e.AsLoaded) {p : Nat} (hp : e.period? = some p) (longest : Nat) (runs : Nat → Nat)
    (m : Moment) (s : Scene σ) :
    ((e.aged longest runs).poll m s).1 = .ok (decide (p * (longest / p + 1) ≤ s.world.clock - m.started)) := by
  have hpoll : ((e.aged longest runs).poll m s).1 =
      (((e.trigger.isActive m).run.run (e.memoryAfter longest)).run s).1.1 := rfl
  rw [hpoll, memoryAfter_of_period? hp, he.timer p hp, ask_periodic]

/-- An event is as it was loaded unless its trigger or a command remembers otherwise. -/
theorem aged_eq_iff (he : e.AsLoaded) (longest : Nat) (runs : Nat → Nat) :
    e.aged longest runs = e ↔ (∀ p, e.period? = some p → longest < p) ∧
      ∀ k c, e.commands[k]? = some c → ∀ n, c.times? = some n → n = 0 ∨ runs k = 0 := by
  have hcommand (k : Nat) (c : Command σ) (hk : e.commands[k]? = some c) :
      c.aged (runs k) = c ↔ ∀ n, c.times? = some n → n = 0 ∨ runs k = 0 := by
    rw [← Command.memoryAfter_eq_iff (he.commands c (List.mem_of_getElem? hk))]
    refine ⟨fun h => congrArg (fun c => c.action.memory) h, fun h => ?_⟩
    rw [Command.aged, h]
    rfl
  have hcommands : (e.commands.mapIdx fun k c => c.aged (runs k)) = e.commands ↔
      ∀ k c, e.commands[k]? = some c → ∀ n, c.times? = some n → n = 0 ∨ runs k = 0 :=
    mapIdx_eq_self_iff.trans (forall_congr' fun k => forall_congr' fun c => forall_congr' fun hk => hcommand k c hk)
  rw [← hcommands, ← memoryAfter_eq_iff he]
  refine ⟨fun h => ⟨congrArg (fun e => e.trigger.memory) h, congrArg Event.commands h⟩, fun ⟨htrigger, h⟩ => ?_⟩
  rw [aged, htrigger, h]

end Event

/-! ## Usage -/

namespace Run

/-- How long after the start of the run the event is asked. -/
def Turn.elapsed (t : Turn σ) : Nat := t.before.world.clock - t.moment.started

/-- What was done with the events of a script, by their places. -/
@[ext]
structure Usage where
  /-- The longest time after the start of a run at which an event was asked. -/
  longest : Nat → Nat
  /-- How often a command of an event was run. -/
  runs : Nat → Nat → Nat

namespace Usage

/-- No usage. -/
def none : Usage := ⟨fun _ => 0, fun _ _ => 0⟩

/-- One usage and another. -/
def and (u v : Usage) : Usage := ⟨fun j => max (u.longest j) (v.longest j), fun j k => u.runs j k + v.runs j k⟩

/-- All of several usages. -/
def total (us : List Usage) : Usage := us.foldr and none

/-- The usage in turns. -/
def ofTurns (ts : List (Turn σ)) : Usage where
  longest j := ((ts.filter (·.index = j)).map Turn.elapsed).foldr max 0
  runs j k := ((ts.filter (·.index = j)).flatMap Turn.executed).count k

theorem and_none (u : Usage) : u.and none = u :=
  Usage.ext (funext fun _ => Nat.max_zero _) rfl

theorem none_and (u : Usage) : none.and u = u :=
  Usage.ext (funext fun _ => Nat.zero_max _) (funext fun _ => funext fun _ => Nat.zero_add _)

theorem and_assoc (u v w : Usage) : (u.and v).and w = u.and (v.and w) :=
  Usage.ext (funext fun _ => Nat.max_assoc ..) (funext fun _ => funext fun _ => Nat.add_assoc ..)

theorem total_append (us vs : List Usage) : total (us ++ vs) = (total us).and (total vs) := by
  induction us with
  | nil => exact (none_and _).symm
  | cons u us ih => exact (congrArg u.and ih).trans (and_assoc ..).symm

theorem ofTurns_append (ts ts' : List (Turn σ)) : ofTurns (ts ++ ts') = (ofTurns ts).and (ofTurns ts') := by
  have hmax (xs ys : List Nat) : (xs ++ ys).foldr max 0 = max (xs.foldr max 0) (ys.foldr max 0) := by
    induction xs with
    | nil => exact (Nat.zero_max _).symm
    | cons x xs ih => exact (congrArg (max x) ih).trans (Nat.max_assoc ..).symm
  unfold ofTurns
  refine Usage.ext (funext fun j => ?_) (funext fun j => funext fun k => ?_)
  · dsimp only [and]
    rw [List.filter_append, List.map_append, hmax]
  · dsimp only [and]
    rw [List.filter_append, List.flatMap_append, List.count_append]

/-- Events that were used. -/
def age (u : Usage) (events : List (Event σ)) : List (Event σ) :=
  events.mapIdx fun j e => e.aged (u.longest j) (u.runs j)

variable {es : List (Event σ)}

theorem getElem?_age {u : Usage} {j : Nat} {e : Event σ} (h : (u.age es)[j]? = some e) :
    ∃ e₀, es[j]? = some e₀ ∧ e = e₀.aged (u.longest j) (u.runs j) := by
  rw [age, List.getElem?_mapIdx] at h
  obtain ⟨e₀, he₀, rfl⟩ := Option.map_eq_some_iff.1 h
  exact ⟨e₀, he₀, rfl⟩

/-- Whether events are left as they were loaded: no timer was asked when its period had passed, and no command was run
that repeats. -/
structure Spares (u : Usage) (es : List (Event σ)) : Prop where
  timers : ∀ j e p, es[j]? = some e → e.period? = some p → u.longest j < p
  /-- A command that is to hold no times does not count. -/
  repeats : ∀ j e k c n, es[j]? = some e → e.commands[k]? = some c → c.times? = some n → n = 0 ∨ u.runs j k = 0

/-- **Events are as they were loaded exactly if a usage spares them.** -/
theorem age_eq_iff (hes : ∀ e ∈ es, e.AsLoaded) (u : Usage) : u.age es = es ↔ u.Spares es := by
  have hevent (j : Nat) (e : Event σ) (hj : es[j]? = some e) := Event.aged_eq_iff (hes e (List.mem_of_getElem? hj))
    (u.longest j) (u.runs j)
  refine mapIdx_eq_self_iff.trans ⟨fun h => ⟨?_, ?_⟩, fun h j e hj => ?_⟩
  · intro j e p hj hp
    exact ((hevent j e hj).1 (h j e hj)).1 p hp
  · intro j e k c n hj hk hn
    exact ((hevent j e hj).1 (h j e hj)).2 k c hk n hn
  · exact (hevent j e hj).2 ⟨fun p hp => h.timers j e p hj hp, fun k c hk n hn => h.repeats j e k c n hj hk hn⟩

theorem age_none (hes : ∀ e ∈ es, e.AsLoaded) : none.age es = es :=
  (age_eq_iff hes none).2
    ⟨fun _ e p hj hp => (hes e (List.mem_of_getElem? hj)).positive p hp, fun _ _ _ _ _ _ _ _ => .inr rfl⟩

end Usage

/-! ## Passes and turns -/

section Pass

variable {cs : List (Command σ)} {runs : Nat → Nat}

/-- The command of a step is the one that stood at its place. -/
theorem eq_stepAt_aged {responsive : Bool} {m : Moment} {s : Scene σ} {st : Step σ}
    (h : st ∈ steps responsive m (cs.mapIdx fun k c => c.aged (runs k)) s) :
    ∃ c, cs[st.place]? = some c ∧ st = stepAt m st.place (c.aged (runs st.place)) st.before := by
  obtain ⟨c', hc', hst⟩ := eq_stepAt h
  rw [Nat.sub_zero, List.getElem?_mapIdx] at hc'
  obtain ⟨c, hc, rfl⟩ := Option.map_eq_some_iff.1 hc'
  exact ⟨c, hc, hst⟩

/-- **A pass counts the commands that it runs.** -/
theorem leftBy_aged (hcs : ∀ c ∈ cs, c.AsLoaded) (runs : Nat → Nat) (responsive : Bool) (m : Moment) (s : Scene σ) :
    let sts := steps responsive m (cs.mapIdx fun k c => c.aged (runs k)) s
    leftBy 0 (cs.mapIdx fun k c => c.aged (runs k)) sts =
      cs.mapIdx fun k c => c.aged (runs k + (sts.map Step.place).count k) := by
  intro sts
  have hnodup : (sts.map Step.place).Nodup := by
    refine List.Pairwise.map _ (fun a b hlt => ?_) (pairwise_place responsive m 0 _ s)
    exact Nat.ne_of_lt hlt
  refine overwrite_mapIdx (fun y hy => ?_) fun k hk => ?_
  -- no command is run twice in a pass
  · obtain ⟨st, hst, rfl⟩ := List.mem_map.1 hy
    obtain ⟨c, hc, heq⟩ := eq_stepAt_aged hst
    have hcount : (sts.map Step.place).count st.place = 1 :=
      List.count_eq_one_of_mem hnodup (List.mem_map_of_mem hst)
    have hcommand : st.command = c.aged (runs st.place + 1) := by
      rw [heq, command_stepAt]
      exact Command.run_aged (hcs c (List.mem_of_getElem? hc)) ..
    dsimp only
    rw [hc, hcount, hcommand]
    rfl
  · have hcount : (sts.map Step.place).count k = 0 := by
      refine List.count_eq_zero_of_not_mem fun hmem => ?_
      obtain ⟨st, hst, hplace⟩ := List.mem_map.1 hmem
      exact hk (st.place, st.command) (List.mem_map_of_mem hst) hplace
    rw [hcount]
    rfl

/-- A command that repeats holds until it was run as often as it may. -/
theorem signal_of_times? (hcs : ∀ c ∈ cs, c.AsLoaded) {responsive : Bool} {m : Moment} {s : Scene σ} {st : Step σ}
    (h : st ∈ steps responsive m (cs.mapIdx fun k c => c.aged (runs k)) s) {c : Command σ}
    (hc : cs[st.place]? = some c) {n : Nat} (hn : c.times? = some n) :
    st.signal = .ofBool (runs st.place < n) := by
  obtain ⟨c', hc', heq⟩ := eq_stepAt_aged h
  obtain rfl : c = c' := Option.some.inj (hc.symm.trans hc')
  have hsignal : st.signal = signalOf ((c.aged (runs st.place)).run m st.before).1 := by
    rw [heq]
    unfold stepAt
    rw [runGuarded_eq]
  rw [hsignal, Command.signal_aged (hcs c (List.mem_of_getElem? hc)) hn]
  rfl

end Pass

section Turn

variable {e : Event σ} {longest : Nat} {runs : Nat → Nat} {t : Turn σ}

/-- **A turn counts when the event is asked, and which commands are run.** -/
theorem Turn.left_aged (he : e.AsLoaded) (ht : t.event = e.aged longest runs) :
    t.left = e.aged (max longest t.elapsed) fun k => runs k + t.executed.count k := by
  obtain ⟨m, i, event, ran, s⟩ := t
  obtain rfl : event = e.aged longest runs := ht
  have hpolled : ((e.aged longest runs).poll m s).2.1 = e.aged (max longest (s.world.clock - m.started)) runs :=
    Event.poll_aged he ..
  have hcommands : leftBy 0 (e.aged longest runs).commands (Turn.steps ⟨m, i, e.aged longest runs, ran, s⟩) =
      e.commands.mapIdx fun k c => c.aged (runs k + (Turn.executed ⟨m, i, e.aged longest runs, ran, s⟩).count k) := by
    unfold Turn.executed Turn.steps
    split
    · exact leftBy_aged he.commands ..
    · rfl
  rw [Turn.left, hpolled, hcommands]
  rfl

/-- A timer is active when it is due. -/
theorem Turn.active_of_period? (he : e.AsLoaded) (ht : t.event = e.aged longest runs) {p : Nat}
    (hp : e.period? = some p) : t.active = decide (p * (longest / p + 1) ≤ t.elapsed) := by
  have hanswer : t.answer = .ok (decide (p * (longest / p + 1) ≤ t.elapsed)) := by
    rw [Turn.answer, ht]
    exact Event.answer_aged he hp ..
  rw [Turn.active, hanswer]

/-- A command that repeats holds until it was run as often as it may. -/
theorem Turn.signal_of_times? (he : e.AsLoaded) (ht : t.event = e.aged longest runs) {st : Step σ} (hst : st ∈ t.steps)
    {c : Command σ} (hc : e.commands[st.place]? = some c) {n : Nat} (hn : c.times? = some n) :
    st.signal = .ofBool (runs st.place < n) := by
  unfold Turn.steps at hst
  split at hst
  · rw [ht] at hst
    exact Run.signal_of_times? he.commands hst hc hn
  · cases hst

/-- A closing counts which commands are run. -/
theorem Closing.left_aged {c : Closing σ} (he : e.AsLoaded) (hc : c.event = e.aged longest runs) :
    c.left = e.aged longest fun k => runs k + c.executed.count k := by
  obtain ⟨started, i, event, s⟩ := c
  obtain rfl : event = e.aged longest runs := hc
  have hcommands := leftBy_aged he.commands runs false ⟨0, started⟩
    (Closing.opened ⟨started, i, e.aged longest runs, s⟩)
  exact congrArg (fun commands => { e.aged longest runs with commands := commands }) hcommands

end Turn

/-! ## Ticks and runs -/

/-- Of turns one after the other, the one of an event is found by its place. -/
theorem filter_index {ts : List (Turn σ)} (h : ts.Pairwise fun a b => a.index < b.index) {t : Turn σ} (ht : t ∈ ts) :
    ts.filter (·.index = t.index) = [t] := by
  induction ts with
  | nil => cases ht
  | cons t' ts ih =>
    obtain ⟨hlt, hts⟩ := List.pairwise_cons.1 h
    rcases List.mem_cons.1 ht with rfl | ht
    · have hnone : ts.filter (·.index = t.index) = [] :=
        List.filter_eq_nil_iff.2 fun t' ht' heq => Nat.ne_of_gt (hlt t' ht') (of_decide_eq_true heq)
      rw [List.filter_cons, if_pos (decide_eq_true rfl), hnone]
    · have hne : ¬decide (t'.index = t.index) = true := fun heq => Nat.ne_of_lt (hlt t ht) (of_decide_eq_true heq)
      rw [List.filter_cons, if_neg hne, ih hts ht]

/-- The event of a turn is the one that stood at its place. -/
theorem Round.event_of_mem_turns {es : List (Event σ)} {u : Usage} {t : Round σ} (ht : t.events = u.age es)
    {turn : Turn σ} (hturn : turn ∈ t.turns) :
    ∃ e, es[turn.index]? = some e ∧ turn.event = e.aged (u.longest turn.index) (u.runs turn.index) := by
  obtain ⟨-, hget, -⟩ := of_mem_turnsFrom hturn
  rw [Nat.sub_zero, ht] at hget
  exact Usage.getElem?_age hget

section

variable {es : List (Event σ)} (hes : ∀ e ∈ es, e.AsLoaded)

include hes

/-- **A tick counts its turns.** -/
theorem Round.left_age {u : Usage} {t : Round σ} (ht : t.events = u.age es) :
    t.left = (u.and (.ofTurns t.turns)).age es := by
  have hindex : t.turns.Pairwise fun a b => a.index < b.index := pairwise_index ..
  rw [Round.left, ht]
  refine overwrite_mapIdx (fun y hy => ?_) fun j hj => ?_
  -- an event has one turn at most, and that is all its usage in the tick
  · obtain ⟨turn, hturn, rfl⟩ := List.mem_map.1 hy
    obtain ⟨e, he, heq⟩ := Round.event_of_mem_turns ht hturn
    have hleft := turn.left_aged (hes e (List.mem_of_getElem? he)) heq
    dsimp only [Usage.and, Usage.ofTurns]
    rw [filter_index hindex hturn, he, hleft, List.map_singleton, List.flatMap_singleton, List.foldr_cons,
      List.foldr_nil, Nat.max_zero]
    rfl
  · have hnone : t.turns.filter (·.index = j) = [] := by
      refine List.filter_eq_nil_iff.2 fun turn hturn heq => ?_
      exact hj (turn.index, turn.left) (List.mem_map_of_mem hturn) (of_decide_eq_true heq)
    dsimp only [Usage.and, Usage.ofTurns]
    rw [hnone, List.map_nil, List.foldr_nil, Nat.max_zero]
    rfl

/-- **Ticks count their turns**, one after the other. -/
theorem endOf_age {u : Usage} {rounds : List (Round σ)} (h : Linked Round.events Round.left (u.age es) rounds) :
    endOf Round.left (u.age es) rounds = (u.and (.ofTurns (rounds.flatMap Round.turns))).age es := by
  induction rounds generalizing u with
  | nil => exact (congrArg (Usage.age · es) u.and_none).symm
  | cons t rounds ih =>
    have ht := Round.left_age hes h.1
    have hrounds := h.2
    rw [ht] at hrounds
    rw [endOf_cons, ht, ih hrounds, Usage.and_assoc, ← Usage.ofTurns_append]
    rfl

end

/-- The usage of the events in the ticks of a run. -/
def Course.usage (q : Course σ) : Usage := .ofTurns (q.rounds.flatMap Round.turns)

/-- The usage of the event that is closed. -/
def Closing.usage (c : Closing σ) : Usage := ⟨fun _ => 0, fun j k => if j = c.index then c.executed.count k else 0⟩

/-- The usage of its events in a run, of which at most `fuel` ticks are followed. -/
def usage (o : Outside σ) (fuel : Nat) (r : Run σ) : Usage :=
  let q := course o fuel r
  match q.closing? (startTime r) with
  | none => q.usage
  | some c => q.usage.and c.usage

/-- What becomes of the timers and the repeating commands of events in a run that finds them used. -/
structure Course.Continues (q : Course σ) (started : Nat) (u : Usage) (es : List (Event σ)) : Prop where
  /-- A timer is active when its period has passed anew since the longest time at which it was asked, in an earlier run
  or an earlier tick. -/
  timers : ∀ front t back, q.rounds = front ++ t :: back → ∀ turn ∈ t.turns, ∀ e p,
    es[turn.index]? = some e → e.period? = some p →
      turn.active =
        decide (p * ((u.and (.ofTurns (front.flatMap Round.turns))).longest turn.index / p + 1) ≤ turn.elapsed)
  /-- A command holds until it was run as often as it may, in earlier runs and earlier ticks together. -/
  repeats : ∀ front t back, q.rounds = front ++ t :: back → ∀ turn ∈ t.turns, ∀ st ∈ turn.steps, ∀ e c n,
    es[turn.index]? = some e → e.commands[st.place]? = some c → c.times? = some n →
      st.signal = .ofBool ((u.and (.ofTurns (front.flatMap Round.turns))).runs turn.index st.place < n)
  /-- So do those of the event that is closed. -/
  closing : ∀ closing, q.closing? started = some closing → ∀ st ∈ closing.steps, ∀ e c n,
    es[closing.index]? = some e → e.commands[st.place]? = some c → c.times? = some n →
      st.signal = .ofBool ((u.and q.usage).runs closing.index st.place < n)

section

variable {es : List (Event σ)} (hes : ∀ e ∈ es, e.AsLoaded) {o : Outside σ} {fuel : Nat} {r : Run σ} {u : Usage}
  (hr : r.events = u.age es)

include hes hr

theorem events_course : (course o fuel r).events = (u.and (course o fuel r).usage).age es := by
  obtain ⟨hlinked, hevents⟩ :=
    linked_courseFrom o (startTime r) fuel 0 (.start r.period (startTime r)) r.events (startScene r)
  rw [hr] at hlinked hevents
  unfold course
  rw [hr]
  exact hevents.trans (endOf_age hes hlinked)

/-- The events of a tick are those that were used in earlier ticks. -/
theorem events_of_rounds {front back : List (Round σ)} {t : Round σ}
    (hrounds : (course o fuel r).rounds = front ++ t :: back) :
    t.events = (u.and (.ofTurns (front.flatMap Round.turns))).age es := by
  have hlinked : Linked Round.events Round.left r.events (course o fuel r).rounds := (linked_courseFrom ..).1
  rw [hrounds, hr] at hlinked
  obtain ⟨ht, hfront⟩ := hlinked.before_eq
  exact ht.trans (endOf_age hes hfront)

/-- The event that is closed is the one that stood at its place. -/
theorem event_of_closing {c : Closing σ} (hc : (course o fuel r).closing? (startTime r) = some c) :
    let v := u.and (course o fuel r).usage
    ∃ e, es[c.index]? = some e ∧ c.event = e.aged (v.longest c.index) (v.runs c.index) := by
  obtain ⟨hget, -⟩ := closing?_eq_some hc
  rw [events_course hes hr] at hget
  exact Usage.getElem?_age hget

/-- **In a run, timers and repeating commands go on** where earlier runs have left them. -/
theorem continues_course : (course o fuel r).Continues (startTime r) u es := by
  constructor
  case timers =>
    intro front t back hrounds turn hturn e p he hp
    obtain ⟨e', he', hevent⟩ := Round.event_of_mem_turns (events_of_rounds hes hr hrounds) hturn
    obtain rfl : e = e' := Option.some.inj (he.symm.trans he')
    exact turn.active_of_period? (hes e (List.mem_of_getElem? he)) hevent hp
  case repeats =>
    intro front t back hrounds turn hturn st hst e c n he hc hn
    obtain ⟨e', he', hevent⟩ := Round.event_of_mem_turns (events_of_rounds hes hr hrounds) hturn
    obtain rfl : e = e' := Option.some.inj (he.symm.trans he')
    exact turn.signal_of_times? (hes e (List.mem_of_getElem? he)) hevent hst hc hn
  case closing =>
    intro c hc st hst e command n he hcommand hn
    obtain ⟨e', he', hevent⟩ := event_of_closing hes hr hc
    obtain rfl : e = e' := Option.some.inj (he.symm.trans he')
    unfold Closing.steps at hst
    rw [hevent] at hst
    exact signal_of_times? (hes e (List.mem_of_getElem? he)).commands hst hcommand hn

/-- The event that is closed is left as its usage says, and the others as they are. -/
theorem set_left_of_closing {c : Closing σ} (hc : (course o fuel r).closing? (startTime r) = some c) :
    (course o fuel r).events.set c.index c.left = ((u.and (course o fuel r).usage).and c.usage).age es := by
  obtain ⟨e, he, hevent⟩ := event_of_closing hes hr hc
  rw [events_course hes hr]
  generalize u.and (course o fuel r).usage = v at hevent ⊢
  have hleft := c.left_aged (hes e (List.mem_of_getElem? he)) hevent
  have hset : (v.age es).set c.index c.left = overwrite 0 (v.age es) [(c.index, c.left)] := rfl
  rw [hset]
  refine overwrite_mapIdx (fun y hy => ?_) fun j hj => ?_
  · obtain rfl := List.mem_singleton.1 hy
    dsimp only [Usage.and, Closing.usage]
    rw [he, hleft]
    simp
  · have hne : j ≠ c.index := fun h => hj _ (List.mem_singleton_self _) h.symm
    dsimp only [Usage.and, Closing.usage]
    simp [hne]

/-- **A run leaves its events as its usage of them says.** -/
theorem events_execute {events : List (Event σ)} {summary : Summary}
    (h : (execute o fuel r).1 = .finished events summary) : events = (u.and (r.usage o fuel)).age es := by
  rw [execute_eq] at h
  unfold conclude at h
  unfold usage
  cases hprogress : (course o fuel r).progress with
  | pending =>
    rw [hprogress] at h
    cases h
  | broken b =>
    rw [hprogress] at h
    cases h
  | stopped =>
    rw [hprogress] at h
    dsimp only at h ⊢
    cases hclosing : (course o fuel r).closing? (startTime r) with
    | none =>
      rw [hclosing] at h
      obtain ⟨rfl, -⟩ := Ending.finished.inj h
      exact events_course hes hr
    | some c =>
      rw [hclosing] at h
      obtain ⟨rfl, -⟩ := Ending.finished.inj h
      exact (set_left_of_closing hes hr hclosing).trans (congrArg (Usage.age · es) (Usage.and_assoc ..))

end

end Run
end ArmPilot
