import ArmPilot.Proofs.Run.Turns
import ArmPilot.Proofs.Worker.Steps

/-!
# What a worker hands back

A run that comes to its end hands back the events that it was given, in their order and with their commands: only their
memories have changed, whatever others do meanwhile (`Run.working_gives`).
-/

namespace ArmPilot

variable {σ α β ι : Type}

namespace Routine

/-- Whether something holds of the result of a routine, whatever others do meanwhile. -/
def Gives (P : α → Prop) (p : Routine σ α) : Prop := p.Always fun q => ∀ a, q = .done a → P a

variable {P : α → Prop} {Q : β → Prop} {p : Routine σ α}

theorem gives_done {a : α} (h : P a) : (done a : Routine σ α).Gives P := by
  intro b hb
  cases hb
  exact h

theorem gives_step {d : Deed} {act : Scene σ → Scene σ} {next : Scene σ → Routine σ α} (h : ∀ s, (next s).Gives P) :
    (step d act next).Gives P :=
  ⟨nofun, h⟩

theorem Gives.bind {f : α → Routine σ β} (hp : p.Gives P) (hf : ∀ a, P a → (f a).Gives Q) : (p.bind f).Gives Q := by
  induction p with
  | done a => exact hf a (hp a rfl)
  | step d act next ih => exact gives_step fun s => ih s (hp.2 s)

theorem Gives.map {f : α → β} (hp : p.Gives P) (hf : ∀ a, P a → Q (f a)) : (p.map f).Gives Q :=
  hp.bind fun a ha => gives_done (hf a ha)

/-- What holds of the result of a routine holds at the end of every play. -/
theorem Gives.play {act : ι → World σ → World σ} {t : Activity σ α} (h : t.rest.Gives P) {ms : List (Move ι)} {a : α}
    {s : Scene σ} (hplay : t.play act ms = ⟨.done a, s⟩) : P a := by
  have hrest : (t.play act ms).rest.Gives P := Always.play h ms
  rw [hplay] at hrest
  exact hrest a rfl

theorem gives_true (p : Routine σ α) : p.Gives fun _ => True := by
  induction p with
  | done a => exact gives_done trivial
  | step d act next ih => exact gives_step ih

end Routine

/-- An event that is asked keeps all but its memory. -/
theorem Event.forget_poll (e : Event σ) (m : Moment) (s : Scene σ) : (e.poll m s).2.1.forget = e.forget := rfl

namespace Run

open Routine

/-- A command that is run keeps all but its memory. -/
theorem forget_runGuarded (m : Moment) (c : Command σ) (s : Scene σ) : (runGuarded m c s).2.1.forget = c.forget := by
  rw [runGuarded_eq]
  rfl

theorem look_gives {P : α → Prop} {d : Deed} {stopped going : Routine σ α} (hstopped : stopped.Gives P)
    (hgoing : going.Gives P) : (look d stopped going).Gives P := by
  refine gives_step fun s => ?_
  split
  · exact hstopped
  · exact hgoing

theorem passing_gives (responsive : Bool) (m : Moment) (i : Nat) (cs : List (Command σ)) :
    (passing responsive m i cs).Gives fun p => p.commands.map Command.forget = cs.map Command.forget := by
  match cs with
  | [] =>
    rw [passing]
    exact gives_done rfl
  | c :: rest =>
    have ih (n : Nat) := passing_gives responsive m (i + 1 + n) (rest.drop n)
    have hrunning : (running responsive m i c rest fun n => passing responsive m (i + 1 + n) (rest.drop n)).Gives
        fun p => p.commands.map Command.forget = (c :: rest).map Command.forget := by
      refine gives_step fun s => ?_
      have hc := forget_runGuarded m c s
      have hbehind (n : Nat) (p : Pass σ) (hp : p.commands.map Command.forget = (rest.drop n).map Command.forget) :
          (p.behind i (runGuarded m c s).2.1 (rest.take n)).commands.map Command.forget =
            (c :: rest).map Command.forget := by
        simp [Pass.behind, hc, hp]
      dsimp only
      split
      · exact gives_step fun _ => gives_done (by simp [hc])
      · exact gives_done (by simp [hc])
      · exact (ih _).map (hbehind _)
      · exact (ih _).map (hbehind _)
    rw [passing]
    split
    · exact look_gives (gives_done rfl) hrunning
    · exact hrunning
termination_by cs.length
decreasing_by simp only [List.length_drop, List.length_cons]; omega

theorem touring_gives (m : Moment) (i : Nat) (status : Status) (events : List (Event σ)) :
    (touring m i status events).Gives fun t => t.events.map Event.forget = events.map Event.forget := by
  induction events generalizing i status with
  | nil => exact gives_done rfl
  | cons e rest ih =>
    have hbehind {e' : Event σ} (he : e'.forget = e.forget) (killed : Bool) (t : Tick σ)
        (ht : t.events.map Event.forget = rest.map Event.forget) :
        (t.behind e' killed).events.map Event.forget = (e :: rest).map Event.forget := by
      simp [Tick.behind, he, ht]
    rw [touring]
    refine look_gives (gives_done rfl) ?_
    split
    · exact (ih _ _).map (hbehind rfl _)
    refine gives_step fun s => ?_
    have hpoll := e.forget_poll m s
    rcases hq : e.poll m s with ⟨answer, e', s'⟩
    rw [hq] at hpoll
    dsimp only at hpoll
    cases answer with
    | error b => exact gives_done (by simp [hpoll])
    | ok active =>
      cases active with
      | false => exact (ih _ _).map (hbehind hpoll _)
      | true =>
        refine (passing_gives true m 0 e'.commands).bind fun p hp => gives_step fun _ => (ih _ _).map (hbehind ?_ _)
        rw [← hpoll]
        simp [Event.forget, hp]

theorem ticking_gives (o : Outside σ) (started fuel n : Nat) (schedule : Schedule) (events : List (Event σ))
    (killed : Bool) :
    (ticking o started fuel n schedule events killed).Gives fun t =>
      t.events.map Event.forget = events.map Event.forget := by
  induction fuel generalizing n schedule events killed with
  | zero => exact gives_done rfl
  | succ fuel ih =>
    rw [ticking]
    refine look_gives (gives_done rfl) ((gives_true _).bind fun slept _ => ?_)
    have hticked : (look .wait (.done ⟨some (.ok n), events, killed⟩) <|
        .step .tick (publish []) fun _ => (touring ⟨n + 1, started⟩ 0 [] events).bind fun t =>
          behindTick t killed (ticking o started fuel (n + 1) schedule.advance t.events (killed || t.killed))).Gives
        fun t : Ticked σ => t.events.map Event.forget = events.map Event.forget := by
      refine look_gives (gives_done rfl) (gives_step fun _ => (touring_gives ..).bind fun t ht => ?_)
      unfold behindTick
      split
      · exact gives_done ht
      · exact (ih ..).mono fun q hq a ha => (hq a ha).trans ht
    cases slept with
    | cut => exact gives_done rfl
    | full | overflow => exact hticked

theorem closing_gives (started i : Nat) (e : Event σ) : (closing started i e).Gives fun e' => e'.forget = e.forget := by
  refine gives_step fun _ => gives_step fun _ => (passing_gives ..).bind fun p hp => ?_
  refine gives_step fun _ => gives_step fun _ => gives_step fun _ => gives_done ?_
  simp [Event.forget, hp]

theorem shutting_gives (started : Nat) (events : List (Event σ)) :
    (shutting started events).Gives fun es => es.map Event.forget = events.map Event.forget := by
  unfold shutting
  split
  · exact gives_done rfl
  · rename_i i _
    cases he : events[i]? with
    | none => exact gives_done rfl
    | some e =>
      obtain ⟨hi, rfl⟩ := List.getElem?_eq_some_iff.1 he
      refine (closing_gives started i _).map fun e' he' => ?_
      have hset := @List.set_getElem_self _ (events.map Event.forget) i (by simpa using hi)
      rw [List.getElem_map] at hset
      rw [List.map_set, he', hset]

/-- **A run hands back the events that it was given**, with what they remember, if it comes to its end. -/
theorem working_gives (o : Outside σ) (fuel : Nat) (r : Run σ) :
    (r.working o fuel).Gives fun e => ∀ events summary, e = .finished events summary →
      events.map Event.forget = r.events.map Event.forget := by
  refine gives_step fun s => (ticking_gives ..).bind fun t ht => ?_
  unfold ending
  split
  · exact gives_done nofun
  · exact gives_done nofun
  · refine gives_step fun _ => (shutting_gives _ _).bind fun events hevents => gives_step fun s => gives_done ?_
    rintro _ _ ⟨⟩
    exact hevents.trans ht

end Run
end ArmPilot
