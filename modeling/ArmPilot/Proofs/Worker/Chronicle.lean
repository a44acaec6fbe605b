import Mathlib.Logic.Function.Basic
import Mathlib.Order.Nat
import ArmPilot.Run.Basic

/-!
# Chronicles

A chronicle has which commands of which events are run in which tick of a run.  It is written as the run goes on, and
what has been written down of a tick stays.
-/

namespace ArmPilot

/-- What has been run tick by tick. -/
structure Chronicle where
  /-- The number of the latest tick, zero before the first. -/
  tick : Nat
  /-- The events of a tick whose commands have been run, each with the places of these commands. -/
  visits : Nat → Status
  /-- The event whose commands are being run, with the places of those that have been. -/
  current : Option (Nat × List Nat)
  /-- The event whose commands have been run at the end of the program. -/
  closing : Option (Nat × List Nat)

namespace Chronicle

/-- The chronicle before the run. -/
def blank : Chronicle := ⟨0, fun _ => [], none, none⟩

/-- A tick begins. -/
def enter (c : Chronicle) : Chronicle := { c with tick := c.tick + 1 }

/-- The commands of an event are to be run. -/
def visit (i : Nat) (c : Chronicle) : Chronicle := { c with current := some (i, []) }

/-- A command is run. -/
def run (j : Nat) (c : Chronicle) : Chronicle := { c with current := c.current.map fun v => (v.1, v.2 ++ [j]) }

/-- The commands of an event have been run in a tick. -/
def leave (c : Chronicle) : Chronicle :=
  { c with visits := Function.update c.visits c.tick (c.visits c.tick ++ c.current.toList), current := none }

/-- The commands of an event have been run at the end of the program. -/
def close (c : Chronicle) : Chronicle := { c with closing := c.current, current := none }

/-- What a board shows that is up to date: what has been run in the latest tick, and at the end of the program. -/
def shown (c : Chronicle) : Status :=
  match c.closing with
  | none => c.visits c.tick
  | some v => Status.insert v.1 v.2 (c.visits c.tick)

end Chronicle

/-! ## Sound chronicles -/

variable {σ : Type}

/-- Whether these are places of commands of an event, in order. -/
structure Event.HasPlaces (e : Event σ) (js : List Nat) : Prop where
  increasing : js.Pairwise (· < ·)
  below : ∀ j ∈ js, j < e.commands.length

theorem Event.HasPlaces.snoc {e : Event σ} {js : List Nat} {j : Nat} (h : e.HasPlaces js) (hlt : ∀ i ∈ js, i < j)
    (hj : j < e.commands.length) : e.HasPlaces (js ++ [j]) := by
  refine ⟨List.pairwise_append.2 ⟨h.increasing, List.pairwise_singleton .., ?_⟩, ?_⟩
  · simpa using hlt
  · simp only [List.mem_append, List.mem_singleton]
    rintro i (hi | rfl)
    · exact h.below i hi
    · exact hj

theorem Status.insert_of_lt {i : Nat} {executed : List Nat} {status : Status} (h : ∀ v ∈ status, v.1 < i) :
    Status.insert i executed status = status ++ [(i, executed)] := by
  induction status with
  | nil => rfl
  | cons v rest ih =>
    have hlt : v.1 < i := h v List.mem_cons_self
    rw [Status.insert, if_neg (by omega), if_neg (by omega), ih fun v hv => h v (List.mem_cons_of_mem _ hv)]
    rfl

namespace Chronicle

/-- Whether a chronicle is one of these events. -/
structure Sound (events : List (Event σ)) (c : Chronicle) : Prop where
  /-- Nothing is run before the first tick, and in a tick that has not begun. -/
  unmade : ∀ k, k = 0 ∨ c.tick < k → c.visits k = []
  /-- The events of a tick are visited in their order. -/
  in_order : ∀ k, (c.visits k).Pairwise fun v v' => v.1 < v'.1
  regular : ∀ k, ∀ v ∈ c.visits k, ∃ e, events[v.1]? = some e ∧ e.role ≠ .destroy ∧ e.HasPlaces v.2
  current : ∀ v ∈ c.current, ∃ e, events[v.1]? = some e ∧ e.HasPlaces v.2
  /-- At the end of the program the first event of the role `destroy` is run. -/
  closing : ∀ v ∈ c.closing, ∃ e, events[v.1]? = some e ∧ e.role = .destroy ∧ e.HasPlaces v.2 ∧
    ∀ i < v.1, ∀ e', events[i]? = some e' → e'.role ≠ .destroy

/-- Whether a chronicle is another one that goes on. -/
structure Extends (c c' : Chronicle) : Prop where
  tick : c.tick ≤ c'.tick
  /-- What has been written down stays. -/
  visits : ∀ k, c.visits k <+: c'.visits k
  /-- Nothing is added to a tick once the next one has begun. -/
  settled : ∀ k < c.tick, c'.visits k = c.visits k
  /-- An event whose commands are being run is not lost. -/
  current : ∀ v ∈ c.current, ∃ js, c'.tick = c.tick ∧ c'.current = some (v.1, v.2 ++ js) ∨
    (v.1, v.2 ++ js) ∈ c'.visits c.tick ∨ c'.closing = some (v.1, v.2 ++ js)
  /-- Nothing is written down behind the end of the program. -/
  closed : c.closing ≠ none → c' = c

variable {events : List (Event σ)} {c c' c'' : Chronicle} {i j : Nat} {js : List Nat}

theorem Extends.refl (c : Chronicle) : c.Extends c where
  tick := Nat.le_refl _
  visits _ := List.prefix_refl _
  settled _ _ := rfl
  current v hv := ⟨[], .inl ⟨rfl, by simpa using hv⟩⟩
  closed _ := rfl

theorem Extends.trans (h : c.Extends c') (h' : c'.Extends c'') : c.Extends c'' where
  tick := h.tick.trans h'.tick
  visits k := (h.visits k).trans (h'.visits k)
  settled k hk := (h'.settled k (hk.trans_le h.tick)).trans (h.settled k hk)
  current v hv := by
    obtain ⟨js, ⟨htick, hcurrent⟩ | hvisits | hclosing⟩ := h.current v hv
    · obtain ⟨js', hjs'⟩ := h'.current _ hcurrent
      rw [List.append_assoc, htick] at hjs'
      exact ⟨js ++ js', hjs'⟩
    · exact ⟨js, .inr (.inl ((h'.visits _).subset hvisits))⟩
    · have hc'' : c'' = c' := h'.closed (by rw [hclosing]; exact Option.some_ne_none _)
      exact ⟨js, .inr (.inr (hc'' ▸ hclosing))⟩
  closed hc := by
    have hc' : c' = c := h.closed hc
    exact (h'.closed (hc' ▸ hc)).trans hc'

/-- Whether a board shows nothing but a tick of a chronicle: the first of the events that have been visited in it, or all
of them and the one that has been run at the end of the program. -/
def Shows (c : Chronicle) (k : Nat) (board : Status) : Prop :=
  board <+: c.visits k ∨ k = c.tick ∧ ∃ v, c.closing = some v ∧ board = Status.insert v.1 v.2 (c.visits k)

/-- What a board that is up to date shows is of the latest tick, also when the chronicle has gone on. -/
theorem Extends.shows (h : c.Extends c') : c'.Shows c.tick c.shown := by
  cases hclosing : c.closing with
  | none =>
    have hshown : c.shown = c.visits c.tick := by
      unfold shown
      rw [hclosing]
    exact .inl (hshown ▸ h.visits c.tick)
  | some v =>
    obtain rfl : c' = c := h.closed (by rw [hclosing]; exact Option.some_ne_none v)
    have hshown : c'.shown = Status.insert v.1 v.2 (c'.visits c'.tick) := by
      unfold shown
      rw [hclosing]
    exact .inr ⟨rfl, v, hclosing, hshown⟩

theorem sound_blank (events : List (Event σ)) : blank.Sound events where
  unmade _ _ := rfl
  in_order _ := .nil
  regular := nofun
  current := nofun
  closing := nofun

theorem Sound.enter (h : c.Sound events) : c.enter.Sound events where
  unmade k hk := h.unmade k (hk.imp_right fun hlt => (Nat.lt_succ_self _).trans hlt)
  in_order := h.in_order
  regular := h.regular
  current := h.current
  closing := h.closing

theorem extends_enter (hcurrent : c.current = none) (hclosing : c.closing = none) : c.Extends c.enter where
  tick := Nat.le_succ _
  visits _ := List.prefix_refl _
  settled _ _ := rfl
  current := by simp [hcurrent]
  closed h := absurd hclosing h

theorem shown_enter (h : c.Sound events) (hclosing : c.closing = none) : c.enter.shown = [] := by
  unfold shown enter
  rw [hclosing]
  exact h.unmade _ (.inr (Nat.lt_succ_self _))

theorem Sound.visit (h : c.Sound events) {e : Event σ} (he : events[i]? = some e) : (c.visit i).Sound events where
  unmade := h.unmade
  in_order := h.in_order
  regular := h.regular
  current := by
    rintro _ ⟨⟩
    exact ⟨e, he, .nil, nofun⟩
  closing := h.closing

theorem extends_visit (hcurrent : c.current = none) (hclosing : c.closing = none) : c.Extends (c.visit i) where
  tick := Nat.le_refl _
  visits _ := List.prefix_refl _
  settled _ _ := rfl
  current := by simp [hcurrent]
  closed h := absurd hclosing h

theorem run_eq (hcurrent : c.current = some (i, js)) : c.run j = { c with current := some (i, js ++ [j]) } := by
  simp [run, hcurrent]

theorem Sound.run (h : c.Sound events) (hcurrent : c.current = some (i, js)) {e : Event σ} (he : events[i]? = some e)
    (hlt : ∀ j' ∈ js, j' < j) (hj : j < e.commands.length) : (c.run j).Sound events := by
  obtain ⟨e', he', hplaces⟩ := h.current _ hcurrent
  obtain rfl : e' = e := Option.some.inj (he'.symm.trans he)
  rw [run_eq hcurrent]
  refine ⟨h.unmade, h.in_order, h.regular, ?_, h.closing⟩
  rintro _ ⟨⟩
  exact ⟨e', he, hplaces.snoc hlt hj⟩

theorem extends_run (hcurrent : c.current = some (i, js)) (hclosing : c.closing = none) : c.Extends (c.run j) := by
  rw [run_eq hcurrent]
  refine ⟨Nat.le_refl _, fun _ => List.prefix_refl _, fun _ _ => rfl, fun v hv => ?_, fun h => absurd hclosing h⟩
  obtain rfl : (i, js) = v := Option.some.inj (hcurrent.symm.trans hv)
  exact ⟨[j], .inl ⟨rfl, rfl⟩⟩

theorem visits_leave (hcurrent : c.current = some (i, js)) :
    c.leave.visits = Function.update c.visits c.tick (c.visits c.tick ++ [(i, js)]) := by
  simp [leave, hcurrent]

theorem visits_tick_leave (hcurrent : c.current = some (i, js)) :
    c.leave.visits c.leave.tick = c.visits c.tick ++ [(i, js)] := by
  rw [visits_leave hcurrent]
  exact Function.update_self ..

theorem Sound.leave (h : c.Sound events) (hcurrent : c.current = some (i, js)) (htick : 0 < c.tick)
    (hlt : ∀ v ∈ c.visits c.tick, v.1 < i) (hregular : ∀ e, events[i]? = some e → e.role ≠ .destroy) :
    c.leave.Sound events := by
  have hvisits (k : Nat) : c.leave.visits k = if k = c.tick then c.visits c.tick ++ [(i, js)] else c.visits k := by
    rw [visits_leave hcurrent, Function.update_apply]
  refine ⟨fun k hk => ?_, fun k => ?_, fun k v hv => ?_, nofun, h.closing⟩
  · have hne : k ≠ c.tick := hk.elim (fun h0 => h0 ▸ htick.ne) fun hlt => hlt.ne'
    rw [hvisits, if_neg hne]
    exact h.unmade k hk
  · rw [hvisits]
    split
    · refine List.pairwise_append.2 ⟨h.in_order _, List.pairwise_singleton .., ?_⟩
      simpa using hlt
    · exact h.in_order k
  · rw [hvisits] at hv
    split at hv
    · rcases List.mem_append.1 hv with hv | hv
      · exact h.regular _ v hv
      · obtain rfl := List.mem_singleton.1 hv
        obtain ⟨e, he, hplaces⟩ := h.current _ hcurrent
        exact ⟨e, he, hregular e he, hplaces⟩
    · exact h.regular k v hv

theorem extends_leave (hcurrent : c.current = some (i, js)) (hclosing : c.closing = none) : c.Extends c.leave := by
  have hvisits (k : Nat) : c.leave.visits k = if k = c.tick then c.visits c.tick ++ [(i, js)] else c.visits k := by
    rw [visits_leave hcurrent, Function.update_apply]
  refine ⟨Nat.le_refl _, fun k => ?_, fun k hk => ?_, fun v hv => ?_, fun h => absurd hclosing h⟩
  · rw [hvisits]
    split
    · rename_i hk
      exact hk ▸ List.prefix_append ..
    · exact List.prefix_refl _
  · rw [hvisits, if_neg hk.ne]
  · obtain rfl : (i, js) = v := Option.some.inj (hcurrent.symm.trans hv)
    refine ⟨[], .inr (.inl ?_)⟩
    rw [hvisits, if_pos rfl, List.append_nil]
    exact List.mem_append_right _ (List.mem_singleton_self _)

theorem shown_leave (hcurrent : c.current = some (i, js)) (hclosing : c.closing = none)
    (hlt : ∀ v ∈ c.visits c.tick, v.1 < i) : c.leave.shown = Status.insert i js (c.visits c.tick) := by
  have hshown : c.leave.shown = c.leave.visits c.leave.tick := by
    unfold shown leave
    rw [hclosing]
  rw [hshown, visits_tick_leave hcurrent, Status.insert_of_lt hlt]

theorem Sound.close (h : c.Sound events) (hcurrent : c.current = some (i, js))
    (hdestroy : ∀ e, events[i]? = some e → e.role = .destroy)
    (hfirst : ∀ i' < i, ∀ e', events[i']? = some e' → e'.role ≠ .destroy) : c.close.Sound events := by
  refine ⟨h.unmade, h.in_order, h.regular, nofun, fun v hv => ?_⟩
  obtain rfl : (i, js) = v := Option.some.inj (hcurrent.symm.trans hv)
  obtain ⟨e, he, hplaces⟩ := h.current _ hcurrent
  exact ⟨e, he, hdestroy e he, hplaces, hfirst⟩

theorem extends_close (hcurrent : c.current = some (i, js)) (hclosing : c.closing = none) : c.Extends c.close := by
  refine ⟨Nat.le_refl _, fun _ => List.prefix_refl _, fun _ _ => rfl, fun v hv => ?_, fun h => absurd hclosing h⟩
  obtain rfl : (i, js) = v := Option.some.inj (hcurrent.symm.trans hv)
  exact ⟨[], .inr (.inr (by rw [List.append_nil]; exact hcurrent))⟩

theorem shown_close (hcurrent : c.current = some (i, js)) : c.close.shown = Status.insert i js (c.visits c.tick) := by
  simp [shown, close, hcurrent]

theorem shown_of_open (hclosing : c.closing = none) : c.shown = c.visits c.tick := by
  unfold shown
  rw [hclosing]

end Chronicle

end ArmPilot
