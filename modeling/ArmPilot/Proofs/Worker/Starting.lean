import ArmPilot.Interpreter.Basic
import ArmPilot.Proofs.Worker.Requests
import ArmPilot.Proofs.Worker.Steps

/-!
# Requests to stop during a start

A start lets the machines work with its first step, and withdraws an old request to stop with its fifth, before it hands
the run over.  A request to stop that comes in between takes effect for the machines, and does not for the run: it is
undone in part.  The run is left ticking then while the machines are inert (`Interpreter.start_raced`).  A request is
kept or undone as a whole exactly if both of its steps come on the same side of the first and of the fifth step.
-/

namespace ArmPilot

variable {σ α : Type}

namespace Routine

/-- Steps that make something ready, and then a routine. -/
def preparing (fs : List (World σ → World σ)) (p : Routine σ α) : Routine σ α :=
  fs.foldr (fun f p => .step .prepare (·.onWorld f) fun _ => p) p

/-- Whether no step of a routine flips a flag. -/
def Keeps (flag : World σ → Bool) (p : Routine σ α) : Prop :=
  p.Always fun q => ∀ s, (Activity.step ⟨q, s⟩).has flag = flag s.world

theorem Keeps.preparing {flag : World σ → Bool} {p : Routine σ α} (hp : p.Keeps flag) {fs : List (World σ → World σ)}
    (h : ∀ f ∈ fs, ∀ w, flag (f w) = flag w) : (Routine.preparing fs p).Keeps flag := by
  induction fs with
  | nil => exact hp
  | cons f fs ih =>
    have hf := h f (List.mem_cons_self ..)
    exact ⟨fun s => hf s.world, fun _ => ih fun g hg => h g (List.mem_cons_of_mem _ hg)⟩

end Routine

namespace Activity

variable {flag : World σ → Bool} {t : Activity σ α}

theorem not_flips_of_keeps (h : t.rest.Keeps flag) (up : Bool) (ms : List (Move Plea)) : ¬t.Flips flag up ms := by
  rintro ⟨front, rest, rfl, hbefore, hafter⟩
  have hplay : (t.play Plea.act front).rest.Keeps flag := h.play front
  have hstep : (t.play Plea.act front).step.has flag = (t.play Plea.act front).has flag :=
    hplay.here (t.play Plea.act front).scene
  rw [hbefore, hafter] at hstep
  cases up <;> cases hstep

/-- A flag that no step of the worker flips is up at the end of a play exactly if it was, or was raised. -/
theorem has_play_iff {p : Plea} (hp : p.Raises flag) (h : t.rest.Keeps flag) (ms : List (Move Plea)) :
    (t.play Plea.act ms).has flag = true ↔ t.has flag = true ∨ .other p ∈ ms := by
  obtain ⟨hup, hkept⟩ := flag_play hp t ms
  refine ⟨fun h' => ?_, fun h' => (hkept h').resolve_right (not_flips_of_keeps h false ms)⟩
  rcases hup h' with ht | hmem | hflips
  · exact .inl ht
  · exact .inr hmem
  · exact absurd hflips (not_flips_of_keeps h true ms)

section

variable (front : List (World σ → World σ)) (f : World σ → World σ) (back : List (World σ → World σ)) {p : Routine σ α}
  {q : Plea} (s : Scene σ)

/-- A flag that a step takes down is down at the end if it is not raised meanwhile. -/
theorem has_preparing_of_not_mem (hq : q.Raises flag) (hf : ∀ w, flag (f w) = false)
    (hback : (Routine.preparing back p).Keeps flag) {ys : List (Move Plea)} (hys : .other q ∉ ys)
    (hdone : (play Plea.act ⟨Routine.preparing (front ++ f :: back) p, s⟩ ys).deed? = none) :
    (play Plea.act ⟨Routine.preparing (front ++ f :: back) p, s⟩ ys).has flag = false := by
  induction ys generalizing front s with
  | nil => cases front <;> cases hdone
  | cons m ys ih =>
    have hys' : .other q ∉ ys := fun h => hys (List.mem_cons_of_mem _ h)
    cases m with
    | other q' => exact ih front _ hys' hdone
    | work =>
      cases front with
      | cons g front => exact ih front _ hys' hdone
      | nil =>
        refine eq_false_of_ne_true fun h => ?_
        have hiff := has_play_iff (t := ⟨Routine.preparing back p, s.onWorld f⟩) hq hback ys
        rcases hiff.1 h with h | h
        · exact Bool.false_ne_true ((hf s.world).symm.trans h)
        · exact hys' h

/-- **A flag that a step takes down is up at the end exactly if it is raised behind that step.** -/
theorem has_preparing (hq : q.Raises flag) (hf : ∀ w, flag (f w) = false)
    (hback : (Routine.preparing back p).Keeps flag) {xs ys : List (Move Plea)} (hys : .other q ∉ ys)
    (hdone : (play Plea.act ⟨Routine.preparing (front ++ f :: back) p, s⟩ (xs ++ .other q :: ys)).deed? = none) :
    (play Plea.act ⟨Routine.preparing (front ++ f :: back) p, s⟩ (xs ++ .other q :: ys)).has flag =
      decide (front.length < works xs) := by
  induction xs generalizing front s with
  | nil => exact has_preparing_of_not_mem front f back (s.onWorld q.act) hq hf hback hys hdone
  | cons m xs ih =>
    cases m with
    | other q' => exact ih front (s.onWorld q'.act) hdone
    | work =>
      cases front with
      | cons g front =>
        have hlt : decide ((g :: front).length < works xs + 1) = decide (front.length < works xs) :=
          decide_eq_decide.2 Nat.succ_lt_succ_iff
        exact (ih front (s.onWorld g) hdone).trans hlt.symm
      -- the step is taken here, and the flag is raised behind it
      | nil =>
        have hiff := has_play_iff (t := ⟨Routine.preparing back p, s.onWorld f⟩) hq hback (xs ++ .other q :: ys)
        exact (hiff.2 (.inr (List.mem_append_right xs (List.mem_cons_self ..)))).trans
          (decide_eq_true (Nat.succ_pos (works xs))).symm

end

end Activity

namespace Interpreter

/-- A start of events as the routine of the one who starts them, with the run that is handed over. -/
def starting (c : Config) (events : List (Event σ)) : Routine σ (Run σ) :=
  .preparing (startSteps c) (.step .handOver id fun s => .done (Run.create c events s.world))

/-- What an idle interpreter does before a run is the routine of a start that nobody disturbs. -/
theorem prepare_eq {i : Interpreter σ} (hi : i.worker = .absent) {s : Scene σ} (hs : s.world = i.world) :
    prepare.run.run i =
      (.ok ((starting i.config i.events).alone s).1,
        { i with events := [], last := none, world := ((starting i.config i.events).alone s).2.world }) := by
  obtain ⟨c, reg, events, worker, last, w⟩ := i
  obtain ⟨sandbox, w'⟩ := s
  obtain rfl : worker = .absent := hi
  obtain rfl : w' = w := hs
  rfl

end Interpreter

/-- A play in which others do one thing after another, cut at the first. -/
theorem exists_other {ι : Type} {ms : List (Move ι)} {x : ι} {xs : List ι} (h : ms.filterMap Move.other? = x :: xs) :
    ∃ front rest, ms = front ++ .other x :: rest ∧ front.filterMap Move.other? = [] ∧
      rest.filterMap Move.other? = xs := by
  induction ms with
  | nil => cases h
  | cons m ms ih =>
    cases m with
    | work =>
      obtain ⟨front, rest, rfl, hfront, hrest⟩ := ih h
      exact ⟨.work :: front, rest, rfl, hfront, hrest⟩
    | other y =>
      obtain ⟨rfl, hms⟩ := List.cons.inj h
      exact ⟨[], ms, rfl, rfl, hms⟩

/-- A play in which others do nothing has no move of theirs. -/
theorem not_mem_of_filterMap {ι : Type} {ms : List (Move ι)} (h : ms.filterMap Move.other? = []) (x : ι) :
    .other x ∉ ms := fun hx => nomatch List.filterMap_eq_nil_iff.1 h _ hx

/-- A worker that is not asked to stop enters its first tick with its fourth step. -/
theorem Run.enters_tick {ι : Type} (act : ι → World σ → World σ) (o : Outside σ) (fuel : Nat) (r : Run σ)
    (h : r.scene.world.cancelled = false) :
    ((worker o (fuel + 1) r).play act (List.replicate 4 .work)).deed? = some .tick ∧
      ((worker o (fuel + 1) r).play act (List.replicate 4 .work)).scene = tell (greeting r) r.scene := by
  have hgoing : (tell (greeting r) r.scene).world.cancelled = false := h
  have hclock : (tell (greeting r) r.scene).world.clock = r.scene.world.clock := rfl
  simp [Activity.play, Activity.move, Activity.step, Activity.deed?, Routine.deed?, Routine.bind, worker, working,
    ticking, look, pausing, Schedule.start, hgoing, hclock]

namespace Interpreter

open Activity

/-- What is left of a start when the one who starts has taken some of its steps. -/
theorem rest_preparing (fs : List (World σ → World σ)) (p : Routine σ α) (s : Scene σ) {ms : List (Move Plea)}
    (h : works ms ≤ fs.length) :
    (play Plea.act ⟨.preparing fs p, s⟩ ms).rest = .preparing (fs.drop (works ms)) p := by
  induction ms generalizing fs s with
  | nil => rfl
  | cons m ms ih =>
    cases m with
    | other q => exact ih fs (s.onWorld q.act) h
    | work =>
      cases fs with
      | nil => exact absurd h (Nat.not_succ_le_zero _)
      | cons f fs => exact ih fs (s.onWorld f) (Nat.le_of_succ_le_succ h)

/-- What is done stays so if nobody else acts. -/
theorem play_done (a : α) (s : Scene σ) {ms : List (Move Plea)} (hms : ms.filterMap Move.other? = []) :
    play Plea.act ⟨.done a, s⟩ ms = ⟨.done a, s⟩ := by
  induction ms with
  | nil => rfl
  | cons m ms ih =>
    cases m with
    | work => exact ih hms
    | other => cases hms

theorem handed_over_preparing {c : Config} {events : List (Event σ)} {fs : List (World σ → World σ)} (s : Scene σ)
    {ms : List (Move Plea)} (hms : ms.filterMap Move.other? = []) :
    let t := play Plea.act ⟨.preparing fs (.step .handOver id fun s => .done (Run.create c events s.world)), s⟩ ms
    t.deed? = none → t.rest = .done (Run.create c events t.scene.world) := by
  induction ms generalizing fs s with
  | nil => cases fs <;> exact nofun
  | cons m ms ih =>
    cases m with
    | other => cases hms
    | work =>
      cases fs with
      | cons f fs => exact ih (s.onWorld f) hms
      | nil =>
        intro t _
        have ht : t = _ := play_done (Run.create c events s.world) s hms
        rw [ht]

/-- A run that is handed over stands in the world that the start leaves, if others act only before that. -/
theorem handed_over {c : Config} {events : List (Event σ)} {s : Scene σ} {xs ys : List (Move Plea)} {q : Plea}
    (hxs : works xs ≤ 5) (hys : ys.filterMap Move.other? = [])
    (hdone : (play Plea.act ⟨starting c events, s⟩ (xs ++ .other q :: ys)).deed? = none) :
    (play Plea.act ⟨starting c events, s⟩ (xs ++ .other q :: ys)).rest =
      .done (Run.create c events (play Plea.act ⟨starting c events, s⟩ (xs ++ .other q :: ys)).scene.world) := by
  have hrest : (play Plea.act ⟨starting c events, s⟩ xs).rest = _ := rest_preparing _ _ s hxs
  rw [play_append] at hdone ⊢
  rcases hu : play Plea.act ⟨starting c events, s⟩ xs with ⟨p, s'⟩
  rw [hu] at hrest hdone
  obtain rfl := hrest
  exact handed_over_preparing (s'.onWorld q.act) hys hdone

theorem keeps_handOver (flag : World σ → Bool) (f : World σ → Run σ) :
    (Routine.step .handOver id fun s => .done (f s.world)).Keeps flag := ⟨fun _ => rfl, fun _ _ => rfl⟩

theorem exiting_setServos (r : Robot) (on : Bool) : (r.setServos on).exiting = r.exiting := by
  unfold Robot.setServos
  split
  · rfl
  · rfl

theorem exiting_setSpeed (r : Robot) (x : Float) : (r.setSpeed x).exiting = r.exiting := by
  unfold Robot.setSpeed
  split
  · rfl
  · rfl

/-- Behind its first step a start leaves the devices as inert as they are. -/
theorem keeps_devices {flag : World σ → Bool} (h : World.OfDevices flag) (c : Config) (f : World σ → Run σ) :
    (Routine.preparing (startSteps c).tail (.step .handOver id fun s => .done (f s.world))).Keeps flag := by
  refine (keeps_handOver flag f).preparing fun g hg w => ?_
  simp only [startSteps, List.tail_cons, List.mem_cons, List.not_mem_nil, or_false] at hg
  rcases hg with rfl | rfl | rfl | rfl
  -- the servos and the speed
  · exact h.only _ _ rfl (exiting_setServos ..)
  · exact h.only _ _ rfl (exiting_setSpeed ..)
  -- the board, and the request to stop
  · exact h.only _ _ rfl rfl
  · exact h.only _ _ rfl rfl

section

variable {c : Config} {events : List (Event σ)} {s : Scene σ} {xs ys : List (Move Plea)}

/-- Behind a start the devices are inert exactly if they are made so behind its first step. -/
theorem has_starting_devices {flag : World σ → Bool} (h : World.OfDevices flag) (hys : .other .raise ∉ ys)
    (hdone : (play Plea.act ⟨starting c events, s⟩ (xs ++ .other .raise :: ys)).deed? = none) :
    (play Plea.act ⟨starting c events, s⟩ (xs ++ .other .raise :: ys)).has flag = decide (0 < works xs) :=
  has_preparing [] _ (startSteps c).tail s (Plea.raises_devices h) h.cleared (keeps_devices h c _)
    hys hdone

/-- A request to stop stands behind a start exactly if it comes behind the fifth step. -/
theorem has_starting_cancelled (hys : .other .cancel ∉ ys)
    (hdone : (play Plea.act ⟨starting c events, s⟩ (xs ++ .other .cancel :: ys)).deed? = none) :
    (play Plea.act ⟨starting c events, s⟩ (xs ++ .other .cancel :: ys)).has World.cancelled =
      decide (4 < works xs) :=
  has_preparing ((startSteps c).take 4) World.reset [] s Plea.raises_cancelled (fun _ => rfl) (keeps_handOver ..) hys
    hdone

end

/-- How a start ends during which a request to stop has taken its first step behind `m` steps of the start, and its
second behind `n`. -/
structure Raced (m n : Nat) (t : Activity σ (Run σ)) : Prop where
  vision : t.has World.visionExiting = decide (0 < m)
  arm : t.has World.armInert = decide (0 < m)
  asked : t.has World.cancelled = decide (4 < n)
  whole : (t.has World.armInert = true ↔ t.has World.cancelled = true) ↔ (0 < m ↔ 4 < n)
  /-- The run that is handed over enters a tick while the machines are inert, and is not asked to stop. -/
  torn : 0 < m → n ≤ 4 → ∃ r, t.rest = .done r ∧ ∀ (o : Outside σ) (fuel : Nat),
    let v := (Run.worker o (fuel + 1) r).play Plea.act (List.replicate 4 .work)
    v.deed? = some .tick ∧ v.has World.armInert = true ∧ v.has World.cancelled = false

/-- **A request to stop during a start is kept or undone as a whole exactly if** its first step comes before the first
step of the start and its second step before the fifth, or both come behind. -/
theorem start_raced (c : Config) (events : List (Event σ)) (s : Scene σ) (ms : List (Move Plea))
    (hms : ms.filterMap Move.other? = [.raise, .cancel])
    (hdone : (play Plea.act ⟨starting c events, s⟩ ms).deed? = none) :
    ∃ front between behind, ms = front ++ .other .raise :: (between ++ .other .cancel :: behind) ∧
      Raced (works front) (works front + works between) (play Plea.act ⟨starting c events, s⟩ ms) := by
  obtain ⟨front, later, rfl, hfront, hlater⟩ := exists_other hms
  obtain ⟨between, behind, rfl, hbetween, hbehind⟩ := exists_other hlater
  have hraise : .other Plea.raise ∉ between ++ .other .cancel :: behind := by
    simp [not_mem_of_filterMap hbetween, not_mem_of_filterMap hbehind]
  have hvision := has_starting_devices World.ofDevices_visionExiting hraise hdone
  have harm := has_starting_devices World.ofDevices_armInert hraise hdone
  have hcut : front ++ .other .raise :: (between ++ .other .cancel :: behind) =
      (front ++ .other .raise :: between) ++ .other .cancel :: behind := by
    rw [List.append_assoc]
    rfl
  have hworks : works (front ++ .other .raise :: between) = works front + works between := works_append ..
  refine ⟨front, between, behind, rfl, ?_⟩
  rw [hcut] at hdone hvision harm ⊢
  have hcancelled := has_starting_cancelled (not_mem_of_filterMap hbehind .cancel) hdone
  rw [hworks] at hcancelled
  refine ⟨hvision, harm, hcancelled, ?_, fun hpos hle => ⟨_, handed_over ?_ hbehind hdone, fun o fuel => ?_⟩⟩
  · rw [harm, hcancelled, decide_eq_true_iff, decide_eq_true_iff]
  · rw [hworks]
    exact Nat.le_succ_of_le hle
  · rw [decide_eq_true hpos] at harm
    rw [decide_eq_false (Nat.not_lt.2 hle)] at hcancelled
    obtain ⟨hdeed, hscene⟩ := Run.enters_tick Plea.act o fuel (Run.create c events _) hcancelled
    refine ⟨hdeed, ?_, ?_⟩
    · rw [has, hscene]
      exact harm
    · rw [has, hscene]
      exact hcancelled

/-- The hypotheses of `start_raced` are satisfiable: a request may take both of its steps behind the first step of a
start. -/
theorem start_raced_torn :
    let s : Scene Unit := (Run.create Config.default [] (World.initial ())).scene
    let ms : List (Move Plea) := [.work, .other .raise, .other .cancel, .work, .work, .work, .work, .work]
    let t := play Plea.act ⟨starting Config.default [], s⟩ ms
    ms.filterMap Move.other? = [.raise, .cancel] ∧ t.deed? = none ∧
      ∃ front between behind, ms = front ++ .other .raise :: (between ++ .other .cancel :: behind) ∧
        Raced (works front) (works front + works between) t := by
  intro s ms t
  exact ⟨rfl, rfl, start_raced Config.default [] s ms rfl rfl⟩

end Interpreter
end ArmPilot
