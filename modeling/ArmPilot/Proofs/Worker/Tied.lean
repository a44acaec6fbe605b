import ArmPilot.Proofs.Load.Tame
import ArmPilot.Proofs.Worker.Keeping

/-!
# Workers side by side

Two workers that follow the same run in tied worlds take the same steps, and leave tied worlds, as long as others do the
same in both (`Routine.Tied.play`).  The run of tame events is such a run (`Run.working_tied`).
-/

namespace ArmPilot

variable {σ α β ι : Type} {o : Outside σ}

/-- What an event remembers does not matter for whether it is tame. -/
theorem Event.Tame.of_forget {e e' : Event σ} (h : e.forget = e'.forget) (he : e.Tame o) : e'.Tame o := by
  have hactive : e.trigger.isActive = e'.trigger.isActive :=
    show e.forget.trigger.isActive = e'.forget.trigger.isActive by rw [h]
  have hcommands : e.commands.map Command.forget = e'.commands.map Command.forget := congrArg Event.commands h
  refine ⟨fun T m => hactive ▸ he.trigger T m, fun c' hc' => ?_⟩
  obtain ⟨c, hc, hcc'⟩ := List.mem_map.1 (hcommands ▸ List.mem_map_of_mem hc')
  have hrun : c'.action.run = c.action.run := show c'.forget.action.run = c.forget.action.run by rw [hcc']
  exact fun T m => hrun ▸ he.commands c hc T m

/-- Whether the boards of tied worlds show the same, and may be written on. -/
structure Tie.Boards (T : Tie o) : Prop where
  shown : ∀ {w w'}, T.holds w w' → w'.board = w.board
  written : ∀ {w w'}, T.holds w w' → ∀ status, T.holds { w with board := status } { w' with board := status }

variable {T : Tie o}

namespace Tie

variable {w w' : World σ} {s s' : Scene σ}

theorem cancel (h : T.holds w w') : T.holds w.cancel w'.cancel :=
  T.change h (fun m => { m with cancelled := true }) fun _ => []

theorem reset (h : T.holds w w') : T.holds w.reset w'.reset :=
  T.change h (fun m => { m with cancelled := false }) fun _ => []

theorem setExiting (h : T.holds w w') (exiting : Bool) : T.holds (w.setExiting exiting) (w'.setExiting exiting) := by
  cases exiting with
  | true => exact T.change h (·.setExiting true) fun m => (m.setExiting true).records
  | false => exact T.change h (·.setExiting false) fun _ => []

theorem Scenes.onWorld (h : T.Scenes s s') {f : World σ → World σ}
    (hf : T.holds s.world s'.world → T.holds (f s.world) (f s'.world)) : T.Scenes (s.onWorld f) (s'.onWorld f) :=
  ⟨h.1, hf h.2⟩

end Tie

namespace Routine

/-- Whether a routine takes the same steps in tied scenes. -/
def Tied (T : Tie o) : Routine σ α → Prop
  | .done _ => True
  | .step _ act next => ∀ s s', T.Scenes s s' → T.Scenes (act s) (act s') ∧ next s' = next s ∧ (next s).Tied T

theorem Tied.bind {P : α → Prop} {p : Routine σ α} {f : α → Routine σ β} (hp : p.Tied T) (hgives : p.Gives P)
    (hf : ∀ a, P a → (f a).Tied T) : (p.bind f).Tied T := by
  induction p with
  | done a => exact hf a (hgives a rfl)
  | step d act next ih =>
    intro s s' hs
    obtain ⟨hact, hnext, htied⟩ := hp s s' hs
    exact ⟨hact, congrArg (Routine.bind · f) hnext, ih s htied (hgives.2 s)⟩

theorem Tied.map {p : Routine σ α} {f : α → β} (hp : p.Tied T) : (p.map f).Tied T :=
  hp.bind (gives_true p) fun _ _ => trivial

/-- A step that does not look at the scene. -/
theorem tied_still {d : Deed} {act : Scene σ → Scene σ} {p : Routine σ α}
    (hact : ∀ s s', T.Scenes s s' → T.Scenes (act s) (act s')) (hp : p.Tied T) : (step d act fun _ => p).Tied T :=
  fun s s' hs => ⟨hact s s' hs, rfl, hp⟩

/-- **A routine that is tied goes the same way in tied scenes**, if others do the same in both. -/
theorem Tied.play {act : ι → World σ → World σ} (hact : ∀ i w w', T.holds w w' → T.holds (act i w) (act i w'))
    {p : Routine σ α} {s s' : Scene σ} (hp : p.Tied T) (hs : T.Scenes s s') (ms : List (Move ι)) :
    (Activity.play act ⟨p, s'⟩ ms).rest = (Activity.play act ⟨p, s⟩ ms).rest ∧
      T.Scenes (Activity.play act ⟨p, s⟩ ms).scene (Activity.play act ⟨p, s'⟩ ms).scene := by
  induction ms generalizing p s s' with
  | nil => exact ⟨rfl, hs⟩
  | cons m ms ih =>
    cases m with
    | other i => exact ih hp (hs.onWorld (hact i _ _))
    | work =>
      cases p with
      | done a => exact ih hp hs
      | step d f next =>
        obtain ⟨hleft, hnext, htied⟩ := hp s s' hs
        have hplay := ih htied hleft
        have hstep : Activity.step ⟨.step d f next, s'⟩ = ⟨next s, f s'⟩ := congrArg (Activity.mk · (f s')) hnext
        rw [← hstep] at hplay
        exact hplay

end Routine

namespace Run

theorem runGuarded_tied {c : Command σ} (hc : c.action.Tame o) (m : Moment) {s s' : Scene σ} (hs : T.Scenes s s') :
    (runGuarded m c s').1 = (runGuarded m c s).1 ∧ (runGuarded m c s').2.1 = (runGuarded m c s).2.1 ∧
      T.Scenes (runGuarded m c s).2.2 (runGuarded m c s').2.2 := by
  have htied := hc T m c.action.memory s s' hs
  unfold runGuarded Command.run
  rcases hrun : ((c.action.run m).run.run c.action.memory).run s with ⟨⟨r, memory⟩, t⟩
  rcases hrun' : ((c.action.run m).run.run c.action.memory).run s' with ⟨⟨r', memory'⟩, t'⟩
  rw [hrun, hrun'] at htied
  obtain ⟨⟨⟩, ht⟩ := htied
  cases r with
  | ok signal => exact ⟨rfl, rfl, ht.onWorld fun h => T.note h _ _ _⟩
  | error b => exact ⟨rfl, rfl, ht.onWorld fun h => T.note h _ _ _⟩

theorem poll_tied {e : Event σ} (he : e.Tame o) (m : Moment) {s s' : Scene σ} (hs : T.Scenes s s') :
    (e.poll m s').1 = (e.poll m s).1 ∧ (e.poll m s').2.1 = (e.poll m s).2.1 ∧
      T.Scenes (e.poll m s).2.2 (e.poll m s').2.2 := by
  have htied := he.trigger T m e.trigger.memory s s' hs
  unfold Event.poll
  rcases hrun : ((e.trigger.isActive m).run.run e.trigger.memory).run s with ⟨⟨r, memory⟩, t⟩
  rcases hrun' : ((e.trigger.isActive m).run.run e.trigger.memory).run s' with ⟨⟨r', memory'⟩, t'⟩
  rw [hrun, hrun'] at htied
  obtain ⟨⟨⟩, ht⟩ := htied
  exact ⟨rfl, rfl, ht⟩

theorem look_tied {d : Deed} {stopped going : Routine σ α} (hstopped : stopped.Tied T) (hgoing : going.Tied T) :
    (look d stopped going).Tied T := by
  intro s s' hs
  dsimp only [id]
  rw [T.cancelled hs.2]
  refine ⟨hs, rfl, ?_⟩
  split
  · exact hstopped
  · exact hgoing

theorem passing_tied (responsive : Bool) (m : Moment) (i : Nat) (cs : List (Command σ))
    (hcs : ∀ c ∈ cs, c.action.Tame o) : (passing responsive m i cs).Tied T := by
  match cs with
  | [] =>
    rw [passing]
    exact trivial
  | c :: rest =>
    have ih (n : Nat) : (passing responsive m (i + 1 + n) (rest.drop n)).Tied T :=
      passing_tied responsive m (i + 1 + n) (rest.drop n) fun x hx =>
        hcs x (List.mem_cons_of_mem _ (List.mem_of_mem_drop hx))
    have hrunning : (running responsive m i c rest fun n => passing responsive m (i + 1 + n) (rest.drop n)).Tied T := by
      intro s s' hs
      obtain ⟨hsignal, hcommand, hleft⟩ := runGuarded_tied (hcs c List.mem_cons_self) m hs
      refine ⟨hleft, ?_, ?_⟩
      · dsimp only
        rw [hsignal, hcommand]
      · dsimp only
        split
        · exact Routine.tied_still (fun _ _ h => h.onWorld fun h => T.cancel (T.note h _ _ _)) trivial
        · exact trivial
        · exact (ih _).map
        · exact (ih _).map
    rw [passing]
    split
    · exact look_tied trivial hrunning
    · exact hrunning
termination_by cs.length
decreasing_by simp only [List.length_drop, List.length_cons]; omega

theorem publish_tied (hT : T.Boards) (status : Status) {s s' : Scene σ} (hs : T.Scenes s s') :
    T.Scenes (publish status s) (publish status s') := hs.onWorld fun h => hT.written h status

theorem touring_tied (hT : T.Boards) (m : Moment) (i : Nat) (status : Status) (events : List (Event σ))
    (htame : ∀ e ∈ events, e.Tame o) : (touring m i status events).Tied T := by
  induction events generalizing i status with
  | nil => exact trivial
  | cons e rest ih =>
    have hrest (i : Nat) (status : Status) : (touring m i status rest).Tied T :=
      ih i status fun e' he' => htame e' (List.mem_cons_of_mem _ he')
    have he := htame e List.mem_cons_self
    rw [touring]
    refine look_tied trivial ?_
    split
    · exact (hrest _ _).map
    intro s s' hs
    obtain ⟨hanswer, hevent, hleft⟩ := poll_tied he m hs
    have hcommands : (e.poll m s).2.1.commands = e.commands := rfl
    dsimp only
    rcases hpoll : e.poll m s with ⟨answer, e₁, t⟩
    rcases hpoll' : e.poll m s' with ⟨answer', e₁', t'⟩
    rw [hpoll, hpoll'] at hanswer hevent hleft
    rw [hpoll] at hcommands
    obtain rfl : answer' = answer := hanswer
    obtain rfl : e₁' = e₁ := hevent
    rcases answer' with b | _ | _
    · exact ⟨hleft, rfl, trivial⟩
    · exact ⟨hleft, rfl, (hrest _ _).map⟩
    · have hpassing : (passing true m 0 e₁'.commands).Tied T :=
        passing_tied true m 0 _ (fun c hc => he.commands c (hcommands ▸ hc))
      refine ⟨hleft, rfl, hpassing.bind (Routine.gives_true _) fun p _ => ?_⟩
      exact Routine.tied_still (fun _ _ h => publish_tied hT _ h) (hrest _ _).map

theorem sleeping_tied (deadline poll fuel : Nat) : (sleeping o deadline poll fuel).Tied T := by
  induction fuel with
  | zero => exact trivial
  | succ fuel ih =>
    refine look_tied trivial fun s s' hs => ?_
    dsimp only [id]
    rw [T.clock hs.2]
    refine ⟨hs, rfl, ?_⟩
    split
    · exact trivial
    · exact Routine.tied_still (fun _ _ h => h.onWorld fun h => T.advance h _) ih

theorem pausing_tied (schedule : Schedule) : (pausing o schedule).Tied T := by
  intro s s' hs
  dsimp only [id]
  rw [T.clock hs.2, hs.1]
  refine ⟨hs, rfl, ?_⟩
  split
  · split
    · exact trivial
    · exact sleeping_tied ..
  · exact trivial

theorem ticking_tied (hT : T.Boards) (started fuel n : Nat) (schedule : Schedule) (events : List (Event σ))
    (htame : ∀ e ∈ events, e.Tame o) (killed : Bool) : (ticking o started fuel n schedule events killed).Tied T := by
  induction fuel generalizing n schedule events killed with
  | zero => exact trivial
  | succ fuel ih =>
    rw [ticking]
    refine look_tied trivial ((pausing_tied schedule).bind (Routine.gives_true _) fun slept _ => ?_)
    have hticked : (look .wait (.done ⟨some (.ok n), events, killed⟩) <|
        .step .tick (publish []) fun _ => (touring ⟨n + 1, started⟩ 0 [] events).bind fun t =>
          behindTick t killed (ticking o started fuel (n + 1) schedule.advance t.events (killed || t.killed))).Tied T := by
      refine look_tied trivial (Routine.tied_still (fun _ _ h => publish_tied hT _ h) ?_)
      refine (touring_tied hT _ 0 [] events htame).bind (touring_gives ..) fun t ht => ?_
      unfold behindTick
      split
      · exact trivial
      · exact ih _ _ _ (forall_mem_of_map_eq (fun _ _ => Event.Tame.of_forget) ht htame) _
    cases slept with
    | cut => exact trivial
    | full | overflow => exact hticked

theorem closing_tied (hT : T.Boards) (started i : Nat) {e : Event σ} (he : e.Tame o) : (closing started i e).Tied T := by
  refine Routine.tied_still (fun _ _ h => (h.onWorld fun h => T.note h _ _ _).onWorld T.reset) ?_
  refine Routine.tied_still (fun _ _ h => h.onWorld fun h => T.setExiting h _) ?_
  refine (passing_tied false _ 0 e.commands he.commands).bind (Routine.gives_true _) fun p _ => ?_
  refine Routine.tied_still (fun s s' h => ?_) ?_
  · rw [hT.shown h.2]
    exact publish_tied hT _ h
  · refine Routine.tied_still (fun _ _ h => h.onWorld fun h => T.setExiting h _) ?_
    exact Routine.tied_still (fun _ _ h => h.onWorld T.cancel) trivial

theorem shutting_tied (hT : T.Boards) (started : Nat) {events : List (Event σ)} (htame : ∀ e ∈ events, e.Tame o) :
    (shutting started events).Tied T := by
  unfold shutting
  split
  · exact trivial
  · split
    · exact trivial
    · rename_i he
      exact (closing_tied hT started _ (htame _ (List.mem_of_getElem? he))).map

/-- **The run of tame events takes the same steps in tied worlds.** -/
theorem working_tied (hT : T.Boards) (fuel : Nat) (r : Run σ) (htame : ∀ e ∈ r.events, e.Tame o) :
    (working o fuel r).Tied T := by
  intro s s' hs
  refine ⟨hs.onWorld fun h => T.note h _ _ _, ?_, ?_⟩
  · dsimp only
    rw [T.clock hs.2]
  · refine (ticking_tied hT _ fuel 0 _ r.events htame r.killed).bind (ticking_gives ..) fun t ht => ?_
    unfold ending
    split
    · exact trivial
    · exact trivial
    · refine Routine.tied_still (fun _ _ h => h.onWorld fun h => T.note h _ _ _) ?_
      refine (shutting_tied hT _ (forall_mem_of_map_eq (fun _ _ => Event.Tame.of_forget) ht htame)).bind
        (Routine.gives_true _) fun events _ => ?_
      intro s s' hs
      dsimp only [id]
      rw [hT.shown hs.2, hs.1]
      exact ⟨hs, rfl, trivial⟩

end Run
end ArmPilot
