import ArmPilot.Proofs.Worker.Steps

/-!
# The end of the ticks

From the moment at which a run is asked to stop, the worker begins at most one thing more: a tick, a question to an
event or a command.  It takes at most five steps of the ticks, and only closes the run then.  If it is waiting for a
tick at that moment, it begins nothing.  The request may come between any two steps, provided that nobody withdraws it
while the worker is about the ticks (`Run.ends_soon`).
-/

namespace ArmPilot

/-- Whether a deed is one of the ticks of a run, and not of its end. -/
def Deed.ofTicks : Deed → Bool
  | .start | .look | .wait | .tick | .poll => true
  | .command responsive | .kill responsive | .publish responsive => responsive
  | .prepare | .handOver | .stop | .reset | .clear | .raise | .cancel | .sum => false

/-- Whether a deed begins a tick, a question to an event or a command in a tick. -/
def Deed.begins : Deed → Bool
  | .tick | .poll => true
  | .command responsive => responsive
  | _ => false

theorem Deed.ofTicks_of_begins {d : Deed} (h : d.begins = true) : d.ofTicks = true := by
  cases d with
  | tick | poll => rfl
  | command responsive => exact h
  | _ => cases h

variable {σ α β ι : Type}

namespace Routine

/-! ## Few steps of the ticks -/

/-- Whether a routine begins at most `n` things and takes at most `k` steps of the ticks, if the run is asked to stop
for as long as it takes such steps. -/
def EndsWithin : Routine σ α → Nat → Nat → Prop
  | .done _, _, _ => True
  | .step d _ next, n, k =>
    (d.begins = true → 0 < n) ∧ (d.ofTicks = true → 0 < k) ∧
      ∀ s, (d.ofTicks = true → s.world.cancelled = true) →
        (next s).EndsWithin (n - d.begins.toNat) (k - d.ofTicks.toNat)

/-- Whether a routine takes no step of the ticks. -/
def Quiet (p : Routine σ α) : Prop := p.Always fun q => ∀ d ∈ q.deed?, d.ofTicks = false

/-- How a routine of the ticks ends soon: it begins at most one thing more, and nothing if it is waiting. -/
structure EndsSoon (k : Nat) (p : Routine σ α) : Prop where
  once : p.EndsWithin 1 k
  waiting : p.deed? = some .wait → p.EndsWithin 0 k
  ticks : ∀ d ∈ p.deed?, d.ofTicks = true

section

variable {p : Routine σ α} {f : α → Routine σ β} {n n' k k' : Nat}

theorem EndsWithin.mono (h : p.EndsWithin n k) (hn : n ≤ n') (hk : k ≤ k') : p.EndsWithin n' k' := by
  induction p generalizing n n' k k' with
  | done => trivial
  | step d act next ih =>
    obtain ⟨hbegins, hticks, hnext⟩ := h
    refine ⟨fun hd => Nat.lt_of_lt_of_le (hbegins hd) hn, fun hd => Nat.lt_of_lt_of_le (hticks hd) hk, fun s hs => ?_⟩
    exact ih s (hnext s hs) (Nat.sub_le_sub_right hn _) (Nat.sub_le_sub_right hk _)

/-- A step of the ticks, if the run is asked to stop. -/
theorem EndsWithin.step {d : Deed} {act : Scene σ → Scene σ} {next : Scene σ → Routine σ α} (hd : d.ofTicks = true)
    (h : ∀ s, s.world.cancelled = true → (next s).EndsWithin 0 k) :
    (Routine.step d act next).EndsWithin d.begins.toNat (k + 1) := by
  refine ⟨fun hb => ?_, fun _ => Nat.succ_pos k, fun s hs => ?_⟩
  · rw [hb]
    exact Nat.one_pos
  · rw [Nat.sub_self, hd]
    exact h s (hs hd)

theorem toNat_le {b : Bool} (h : b = true → 0 < n) : b.toNat ≤ n := by
  cases b with
  | false => exact Nat.zero_le n
  | true => exact h rfl

theorem EndsWithin.bind (h : p.EndsWithin n k) (hf : ∀ a, (f a).EndsWithin n' k') :
    (p.bind f).EndsWithin (n + n') (k + k') := by
  induction p generalizing n k with
  | done a => exact (hf a).mono (Nat.le_add_left ..) (Nat.le_add_left ..)
  | step d act next ih =>
    obtain ⟨hbegins, hticks, hnext⟩ := h
    refine ⟨fun hd => Nat.add_pos_left (hbegins hd) _, fun hd => Nat.add_pos_left (hticks hd) _, fun s hs => ?_⟩
    refine (ih s (hnext s hs)).mono (Nat.le_of_eq ?_) (Nat.le_of_eq ?_)
    · exact (Nat.sub_add_comm (toNat_le hbegins)).symm
    · exact (Nat.sub_add_comm (toNat_le hticks)).symm

theorem EndsWithin.map {f : α → β} (h : p.EndsWithin n k) : (p.map f).EndsWithin n k := by
  have hdone (a : α) : (Routine.done (f a) : Routine σ β).EndsWithin 0 0 := trivial
  have hbind := h.bind hdone
  exact hbind

/-- A routine that takes no step of the ticks begins nothing. -/
theorem Quiet.endsWithin (h : p.Quiet) : p.EndsWithin 0 0 := by
  induction p with
  | done => trivial
  | step d act next ih =>
    have hd : ¬d.ofTicks = true := ne_true_of_eq_false (h.1 d rfl)
    refine ⟨fun hb => absurd (Deed.ofTicks_of_begins hb) hd, fun ht => absurd ht hd, fun s _ => ?_⟩
    exact (ih s (h.2 s)).mono (Nat.zero_le _) (Nat.zero_le _)

theorem Quiet.bind (h : p.Quiet) (hf : ∀ a, (f a).Quiet) : (p.bind f).Quiet := by
  refine Always.bind hf (Always.mono (fun q hq => ?_) h)
  cases q with
  | done a => exact (hf a).here
  | step => exact hq

theorem Quiet.step {d : Deed} {act : Scene σ → Scene σ} {next : Scene σ → Routine σ α} (hd : d.ofTicks = false)
    (h : ∀ s, (next s).Quiet) : (Routine.step d act next).Quiet := ⟨fun _ hd' => Option.some.inj hd' ▸ hd, h⟩

theorem Quiet.done (a : α) : (Routine.done a : Routine σ α).Quiet := nofun

theorem EndsSoon.done (a : α) (k : Nat) : (done a : Routine σ α).EndsSoon k := ⟨trivial, fun _ => trivial, nofun⟩

theorem EndsSoon.mono (h : p.EndsSoon k) (hk : k ≤ k') : p.EndsSoon k' :=
  ⟨h.once.mono (Nat.le_refl 1) hk, fun hd => (h.waiting hd).mono (Nat.le_refl 0) hk, h.ticks⟩

/-- How the routine of a whole run stands: it ends its ticks soon, or is through with them. -/
structure EndsTicks (p : Routine σ α) : Prop where
  once : p.EndsWithin 1 5
  waiting : p.deed? = some .wait → p.EndsWithin 0 5
  orderly : (∀ d ∈ p.deed?, d.ofTicks = true) ∨ p.Quiet

theorem Quiet.endsTicks (h : p.Quiet) : p.EndsTicks :=
  ⟨h.endsWithin.mono (by decide) (by decide), fun _ => h.endsWithin.mono (by decide) (by decide), .inr h⟩

theorem Quiet.always_endsTicks (h : p.Quiet) : p.Always EndsTicks := by
  induction p with
  | done => exact h.endsTicks
  | step d act next ih => exact ⟨h.endsTicks, fun s => ih s (h.2 s)⟩

/-- A step of the ticks behind which nothing is begun if the run is asked to stop. -/
theorem Always.endsSoon_step {d : Deed} {act : Scene σ → Scene σ} {next : Scene σ → Routine σ α}
    (hd : d.ofTicks = true) (h : ∀ s, s.world.cancelled = true → (next s).EndsWithin 0 k) (hk : k + 1 ≤ k')
    (hnext : ∀ s, (next s).Always (EndsSoon k')) : (Routine.step d act next).Always (EndsSoon k') := by
  have hstep : (Routine.step d act next).EndsWithin _ _ := EndsWithin.step hd h
  refine ⟨⟨hstep.mono d.begins.toNat_le hk, fun hw => hstep.mono ?_ hk, fun d' hd' => Option.some.inj hd' ▸ hd⟩, hnext⟩
  obtain rfl : d = .wait := Option.some.inj hw
  exact Nat.le_refl 0

/-- A routine that ends soon, wherever it may come, and then one that begins nothing while the run is asked to stop. -/
theorem Always.endsSoon_bind (h : p.Always (EndsSoon k)) (hf : ∀ a, (f a).EndsWithin 0 k') {l : Nat} (hl : k + k' ≤ l)
    (hf' : ∀ a, (f a).Always (EndsSoon l)) : (p.bind f).Always (EndsSoon l) := by
  refine .bind hf' (h.mono fun q hq => ?_)
  cases q with
  | done a => exact (hf' a).here
  | step d act next =>
    have hstep := EndsSoon.mk (hq.once.bind hf) (fun hd => (hq.waiting hd).bind hf) hq.ticks
    exact hstep.mono hl

theorem Always.endsSoon_map {f : α → β} (h : p.Always (EndsSoon k)) : (p.map f).Always (EndsSoon k) := by
  have hdone (a : α) : (Routine.done (f a) : Routine σ β).EndsWithin 0 0 := trivial
  exact h.endsSoon_bind hdone (Nat.le_refl k) fun _ => .done _ _

end

end Routine

namespace Run

open Routine

/-! ## The routines of the ticks -/

theorem endsWithin_look {d : Deed} {p q : Routine σ α} {k : Nat} (hb : d.begins = false) (hd : d.ofTicks = true)
    (hp : p.EndsWithin 0 k) : (look d p q).EndsWithin 0 (k + 1) := by
  have hstep : (look d p q).EndsWithin d.begins.toNat (k + 1) := by
    refine .step hd fun s hs => ?_
    rw [if_pos hs]
    exact hp
  rwa [hb] at hstep

theorem endsSoon_look {d : Deed} {a : α} {q : Routine σ α} {k : Nat} (hd : d.ofTicks = true) (hk : 0 < k)
    (hq : q.Always (EndsSoon k)) : (look d (.done a) q).Always (EndsSoon k) := by
  refine .endsSoon_step (k := 0) hd (fun s hs => ?_) hk fun s => ?_
  · rw [if_pos hs]
    trivial
  · by_cases hs : s.world.cancelled = true
    · rw [if_pos hs]
      exact .done _ _
    · rw [if_neg hs]
      exact hq

/-- A pass looks once more if the run is asked to stop. -/
theorem endsWithin_passing (m : Moment) (i : Nat) (cs : List (Command σ)) : (passing true m i cs).EndsWithin 0 1 := by
  unfold passing
  split
  · trivial
  · exact endsWithin_look rfl rfl trivial

theorem endsSoon_passing (m : Moment) (i : Nat) (cs : List (Command σ)) :
    (passing true m i cs).Always (EndsSoon 2) := by
  match cs with
  | [] =>
    rw [passing]
    exact .done _ _
  | c :: rest =>
    have ih (n : Nat) := endsSoon_passing m (i + 1 + n) (rest.drop n)
    have hsoon (n : Nat) := endsWithin_passing m (i + 1 + n) (rest.drop n)
    have hkill (c' : Command σ) (p : Pass σ) :
        (Routine.step (.kill true) (fun s : Scene σ => s.onWorld (endProgram c'.kind)) fun _ => .done p).EndsWithin
          0 1 :=
      .step (d := .kill true) rfl fun _ _ => trivial
    rw [passing, if_pos rfl]
    refine endsSoon_look rfl Nat.two_pos (.endsSoon_step (k := 1) rfl (fun s _ => ?_) (Nat.le_refl 2) fun s => ?_)
    · rcases runGuarded m c s with ⟨signal, c', s'⟩
      cases signal with
      | kill => exact hkill ..
      | exit => trivial
      | skip | proceed => exact (hsoon _).map
    · rcases runGuarded m c s with ⟨signal, c', s'⟩
      cases signal with
      | kill => exact .endsSoon_step (k := 0) rfl (fun _ _ => trivial) (by decide) fun _ => .done _ _
      | exit => exact .done _ _
      | skip | proceed => exact (ih _).endsSoon_map
termination_by cs.length
decreasing_by simp only [List.length_drop, List.length_cons]; omega

/-- A tick looks once more if the run is asked to stop. -/
theorem endsWithin_touring (m : Moment) (i : Nat) (status : Status) (events : List (Event σ)) :
    (touring m i status events).EndsWithin 0 1 := by
  cases events with
  | nil => trivial
  | cons => exact endsWithin_look rfl rfl trivial

theorem endsSoon_touring (m : Moment) (i : Nat) (status : Status) (events : List (Event σ)) :
    (touring m i status events).Always (EndsSoon 4) := by
  induction events generalizing i status with
  | nil => exact .done _ _
  | cons e rest ih =>
    have hrest (status : Status) := endsWithin_touring m (i + 1) status rest
    have hpublish (p : Pass σ) (status : Status) (e' : Event σ) :
        (Routine.step (.publish true) (publish status) fun _ =>
          (touring m (i + 1) status rest).map (·.behind e' p.killed)).EndsWithin 0 2 :=
      .step (d := .publish true) rfl fun _ _ => (hrest status).map
    rw [touring]
    refine endsSoon_look rfl (by decide) ?_
    split
    · exact (ih ..).endsSoon_map
    · refine .endsSoon_step (k := 3) rfl (fun s _ => ?_) (Nat.le_refl 4) fun s => ?_
      · rcases e.poll m s with ⟨answer, e', s'⟩
        rcases answer with b | ⟨_ | _⟩
        · trivial
        · exact (hrest status).map.mono (Nat.le_refl 0) (by decide)
        · exact (endsWithin_passing ..).bind fun p => hpublish p ..
      · rcases e.poll m s with ⟨answer, e', s'⟩
        rcases answer with b | ⟨_ | _⟩
        · exact .done _ _
        · exact (ih ..).endsSoon_map
        · refine (endsSoon_passing ..).endsSoon_bind (fun p => hpublish p ..) (Nat.le_refl 4) fun p => ?_
          exact .endsSoon_step (k := 1) rfl (fun _ _ => (hrest _).map) (by decide) fun _ => (ih ..).endsSoon_map

/-- A sleep has at most three rounds' steps left if the run is asked to stop, and begins nothing. -/
theorem endsSoon_sleeping (o : Outside σ) (deadline poll fuel : Nat) :
    (sleeping o deadline poll fuel).EndsWithin 0 1 ∧ (sleeping o deadline poll fuel).Always (EndsSoon 3) := by
  induction fuel with
  | zero => exact ⟨trivial, .done _ _⟩
  | succ fuel ih =>
    refine ⟨endsWithin_look rfl rfl trivial, endsSoon_look rfl (by decide) ?_⟩
    refine .endsSoon_step (k := 2) rfl (fun s _ => ?_) (Nat.le_refl 3) fun s => ?_
    · split
      · trivial
      · exact .step (d := .wait) rfl fun _ _ => ih.1
    · split
      · exact .done _ _
      · exact .endsSoon_step (k := 1) rfl (fun _ _ => ih.1) (by decide) fun _ => ih.2

theorem endsSoon_pausing (o : Outside σ) (schedule : Schedule) : (pausing o schedule).Always (EndsSoon 3) := by
  refine .endsSoon_step (k := 1) rfl (fun s _ => ?_) (by decide) fun s => ?_
  · dsimp only
    split
    · split
      · trivial
      · exact (endsSoon_sleeping ..).1
    · trivial
  · dsimp only
    split
    · split
      · exact .done _ _
      · exact (endsSoon_sleeping ..).2
    · exact .done _ _

theorem endsWithin_ticking (o : Outside σ) (started fuel n : Nat) (schedule : Schedule) (events : List (Event σ))
    (killed : Bool) : (ticking o started fuel n schedule events killed).EndsWithin 0 1 := by
  cases fuel with
  | zero => trivial
  | succ => exact endsWithin_look rfl rfl trivial

theorem endsSoon_ticking (o : Outside σ) (started fuel n : Nat) (schedule : Schedule) (events : List (Event σ))
    (killed : Bool) : (ticking o started fuel n schedule events killed).Always (EndsSoon 5) := by
  induction fuel generalizing n schedule events killed with
  | zero => exact .done _ _
  | succ fuel ih =>
    -- the pause, and the look behind it
    have hsum : 3 + 1 ≤ 5 := by decide
    refine endsSoon_look rfl (by decide) ((endsSoon_pausing o schedule).endsSoon_bind (fun slept => ?_) hsum
      fun slept => ?_)
    · cases slept with
      | cut => trivial
      | full | overflow => exact endsWithin_look rfl rfl trivial
    · let next (t : Tick σ) : Routine σ (Ticked σ) :=
        behindTick t killed (ticking o started fuel (n + 1) schedule.advance t.events (killed || t.killed))
      have hnext (t : Tick σ) : (next t).EndsWithin 0 1 := by
        unfold next behindTick
        split
        · trivial
        · exact endsWithin_ticking ..
      -- four steps of the events, and the look of the next tick
      have htick : (Routine.step .tick (publish []) fun _ => (touring ⟨n + 1, started⟩ 0 [] events).bind next).Always
          (EndsSoon 5) := by
        refine .endsSoon_step (k := 2) rfl (fun _ _ => (endsWithin_touring ..).bind hnext) (by decide)
          fun _ => (endsSoon_touring ..).endsSoon_bind hnext (by decide) fun t => ?_
        unfold next behindTick
        split
        · exact .done _ _
        · exact ih ..
      cases slept with
      | cut => exact .done _ _
      | full | overflow => exact endsSoon_look rfl (by decide) htick

/-! ## The routine of the end -/

theorem quiet_passing (m : Moment) (i : Nat) (cs : List (Command σ)) : (passing false m i cs).Quiet := by
  match cs with
  | [] =>
    rw [passing]
    exact .done _
  | c :: rest =>
    have ih (n : Nat) := quiet_passing m (i + 1 + n) (rest.drop n)
    rw [passing]
    refine .step rfl fun s => ?_
    rcases runGuarded m c s with ⟨signal, c', s'⟩
    cases signal with
    | kill => exact .step rfl fun _ => .done _
    | exit => exact .done _
    | skip | proceed => exact (ih _).bind fun _ => .done _
termination_by cs.length
decreasing_by simp only [List.length_drop, List.length_cons]; omega

theorem quiet_closing (started i : Nat) (e : Event σ) : (closing started i e).Quiet := by
  refine .step rfl fun _ => .step rfl fun _ => (quiet_passing ..).bind fun p => ?_
  exact .step rfl fun _ => .step rfl fun _ => .step rfl fun _ => .done _

theorem quiet_ending (started : Nat) (t : Ticked σ) : (ending started t).Quiet := by
  unfold ending shutting
  split
  · exact .done _
  · exact .done _
  · refine .step rfl fun _ => Quiet.bind ?_ fun _ => .step rfl fun _ => .done _
    split
    · exact .done _
    · split
      · exact .done _
      · exact (quiet_closing ..).bind fun _ => .done _

/-! ## The worker -/

theorem endsTicks_working (o : Outside σ) (fuel : Nat) (r : Run σ) : (working o fuel r).Always EndsTicks := by
  have hend (started : Nat) (t : Ticked σ) : (ending started t).EndsWithin 0 0 := (quiet_ending ..).endsWithin
  have hstart : (working o fuel r).EndsWithin 0 2 :=
    .step (d := .start) rfl fun s _ => (endsWithin_ticking ..).bind (hend s.world.clock)
  refine ⟨⟨hstart.mono (by decide) (by decide), nofun, .inl fun d hd => Option.some.inj hd ▸ rfl⟩, fun s => ?_⟩
  refine .bind (fun t => (quiet_ending ..).always_endsTicks) ((endsSoon_ticking ..).mono fun q hq => ?_)
  cases q with
  | done t => exact (quiet_ending ..).endsTicks
  | step d act next => exact ⟨hq.once.bind (hend _), fun hd => (hq.waiting hd).bind (hend _), .inl hq.ticks⟩

end Run

namespace Activity

/-- Whether the worker is about a step of the ticks. -/
def isTicking (t : Activity σ α) : Bool := t.deed?.any Deed.ofTicks

/-- Whether the run is asked to stop at every time of a play at which the worker is about a step of the ticks. -/
def Lasting (act : ι → World σ → World σ) (t : Activity σ α) : List (Move ι) → Prop
  | [] => t.isTicking = true → t.scene.world.cancelled = true
  | m :: ms => (t.isTicking = true → t.scene.world.cancelled = true) ∧ (t.move act m).Lasting act ms

variable {act : ι → World σ → World σ} {ms : List (Move ι)} {t : Activity σ α}

/-- In a play during which the run is asked to stop, the worker does no more than its routine does then. -/
theorem length_deeds_le {n k : Nat} (h : t.rest.EndsWithin n k) (hl : t.Lasting act ms) :
    ((t.deeds act ms).filter Deed.begins).length ≤ n ∧ ((t.deeds act ms).filter Deed.ofTicks).length ≤ k := by
  have length_filter_cons (P : Deed → Bool) (d : Deed) (ds : List Deed) :
      ((d :: ds).filter P).length = (P d).toNat + (ds.filter P).length := by
    rw [List.filter_cons]
    cases P d with
    | true => exact Nat.add_comm ..
    | false => exact (Nat.zero_add _).symm
  induction ms generalizing t n k with
  | nil => exact ⟨Nat.zero_le n, Nat.zero_le k⟩
  | cons m ms ih =>
    obtain ⟨p, s⟩ := t
    cases m with
    | other i => exact ih (t := meddle (act i) ⟨p, s⟩) h hl.2
    | work =>
      cases p with
      | done a => exact ih (t := ⟨.done a, s⟩) h hl.2
      | step d f next =>
        obtain ⟨hbegins, hticks, hnext⟩ := h
        obtain ⟨hn, hk⟩ := ih (t := ⟨next s, f s⟩) (hnext s fun hd => hl.1 hd) hl.2
        have hdeeds : deeds act ⟨.step d f next, s⟩ (.work :: ms) = d :: deeds act ⟨next s, f s⟩ ms := rfl
        rw [hdeeds, length_filter_cons, length_filter_cons]
        have := Routine.toNat_le hbegins
        have := Routine.toNat_le hticks
        omega

/-- The deeds of a play come in order: first those of the ticks, then those of the end. -/
theorem exists_deeds_eq (act : ι → World σ → World σ) (h : t.rest.Always Routine.EndsTicks) (ms : List (Move ι)) :
    ∃ ticking closing, t.deeds act ms = ticking ++ closing ∧ (∀ d ∈ ticking, d.ofTicks = true) ∧
      ∀ d ∈ closing, d.ofTicks = false := by
  induction ms generalizing t with
  | nil => exact ⟨[], [], rfl, nofun, nofun⟩
  | cons m ms ih =>
    obtain ⟨p, s⟩ := t
    cases m with
    | other i => exact ih (t := meddle (act i) ⟨p, s⟩) h
    | work =>
      cases p with
      | done a => exact ih (t := ⟨.done a, s⟩) h
      | step d f next =>
        obtain ⟨ticking, closing, heq, hticking, hclosing⟩ := ih (t := ⟨next s, f s⟩) (h.2 s)
        have hdeeds : deeds act ⟨.step d f next, s⟩ (.work :: ms) = d :: deeds act ⟨next s, f s⟩ ms := rfl
        rcases h.1.orderly with hd | hquiet
        · refine ⟨d :: ticking, closing, by rw [hdeeds, heq]; rfl, fun d' hd' => ?_, hclosing⟩
          rcases List.mem_cons.1 hd' with rfl | hd'
          · exact hd _ rfl
          · exact hticking _ hd'
        · exact ⟨[], _, rfl, nofun, Routine.Always.deeds (t := ⟨.step d f next, s⟩) hquiet (.work :: ms)⟩

end Activity

namespace Run

/-- **Once a run is asked to stop, its worker begins at most one thing more**, and nothing if it was waiting for a
tick.  It takes at most five more steps of the ticks, and only closes the run then. -/
theorem ends_soon (act : ι → World σ → World σ) (o : Outside σ) (fuel : Nat) (r : Run σ) (before after : List (Move ι))
    (h : ((worker o fuel r).play act before).Lasting act after) :
    let t := (worker o fuel r).play act before
    ∃ ticking closing, t.deeds act after = ticking ++ closing ∧
      (∀ d ∈ ticking, d.ofTicks = true) ∧ (∀ d ∈ closing, d.ofTicks = false) ∧
      ticking.length ≤ 5 ∧ (ticking.filter Deed.begins).length ≤ 1 ∧
      (t.deed? = some .wait → ticking.filter Deed.begins = []) := by
  intro t
  have halways : t.rest.Always Routine.EndsTicks := (endsTicks_working o fuel r).play before
  obtain ⟨ticking, closing, heq, hticking, hclosing⟩ := Activity.exists_deeds_eq act halways after
  have hbegins : (t.deeds act after).filter Deed.begins = ticking.filter Deed.begins := by
    have hnone : closing.filter Deed.begins = [] := List.filter_eq_nil_iff.2 fun d hd hb =>
      absurd (Deed.ofTicks_of_begins hb) (ne_true_of_eq_false (hclosing d hd))
    rw [heq, List.filter_append, hnone, List.append_nil]
  have hticks : (t.deeds act after).filter Deed.ofTicks = ticking := by
    have hnone : closing.filter Deed.ofTicks = [] := List.filter_eq_nil_iff.2 fun d hd =>
      ne_true_of_eq_false (hclosing d hd)
    rw [heq, List.filter_append, hnone, List.append_nil, List.filter_eq_self.2 hticking]
  obtain ⟨hone, hfive⟩ := Activity.length_deeds_le halways.here.once h
  rw [hbegins] at hone
  rw [hticks] at hfive
  refine ⟨ticking, closing, heq, hticking, hclosing, hfive, hone, fun hwait => ?_⟩
  -- a worker that waits may begin nothing in place of one thing
  have hnone := (Activity.length_deeds_le (halways.here.waiting hwait) h).1
  rw [hbegins] at hnone
  exact List.eq_nil_of_length_eq_zero (Nat.le_zero.1 hnone)

/-- A run that a command ends in its first tick, and that is closed with a pass over two commands. -/
def killedRun : Run Unit :=
  create Config.default
    [⟨"StepEvent", [], ⟨.regular, 0, fun _ => return true⟩, [⟨"EndProgramCommand", [], .signal .plain .kill⟩]⟩,
      ⟨"DestroyEvent", [], ⟨.destroy, 0, fun _ => return false⟩,
        [⟨"StartBlockCommand", [], .signal .startBlock .proceed⟩, ⟨"EndBlockCommand", [], .signal .endBlock .proceed⟩]⟩]
    (World.initial ())

/-- The hypothesis of `ends_soon` is satisfiable: a run may be asked to stop when an event is about to be asked. -/
theorem ends_soon_killedRun :
    let t := (worker (Outside.nobody Unit) 2 killedRun).play (fun _ : Unit => World.cancel)
      (List.replicate 6 .work ++ [.other ()])
    let after : List (Move Unit) := List.replicate 5 .work
    t.deed? = some .poll ∧ t.Lasting (fun _ => World.cancel) after ∧
      ∃ ticking closing, t.deeds (fun _ => World.cancel) after = ticking ++ closing ∧
        (∀ d ∈ ticking, d.ofTicks = true) ∧ (∀ d ∈ closing, d.ofTicks = false) ∧
        ticking.length ≤ 5 ∧ (ticking.filter Deed.begins).length ≤ 1 ∧
        (t.deed? = some .wait → ticking.filter Deed.begins = []) := by
  intro t after
  have hlasting : t.Lasting (fun _ => World.cancel) after := by
    refine ⟨fun _ => ?_, fun _ => ?_, fun _ => ?_, fun _ => ?_, fun _ => ?_, fun _ => ?_⟩
    all_goals decide +kernel
  exact ⟨by decide +kernel, hlasting, ends_soon _ _ 2 killedRun _ after hlasting⟩

end Run
end ArmPilot
