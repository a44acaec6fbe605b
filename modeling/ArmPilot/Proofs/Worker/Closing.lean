import ArmPilot.Proofs.Worker.CutOff
import ArmPilot.Proofs.Worker.Requests

/-!
# Requests to stop while a run is closed

Before the worker closes a run it withdraws the request to stop, and then lets the machines work.  What a request has
done before is undone thereby, whatever made the worker stop its ticks; but each of its two steps takes effect if it
comes later.  So a command of the pass that closes a run begins with a flag up exactly if a request has raised it since
the worker took it down, or an earlier command of the pass has (`Run.closing_flags`).
-/

namespace ArmPilot

variable {σ α β ι : Type}

namespace Routine

/-! ## The order of the deeds -/

/-- Whether a routine has no step of a kind. -/
def Avoids (d : Deed) (p : Routine σ α) : Prop := p.Always fun q => q.deed? ≠ some d

/-- Whether a routine runs commands of the pass that closes a run one after the other, and none later. -/
def Closes : Routine σ α → Prop
  | .done _ => True
  | .step d _ next => if d = .command false then ∀ s, (next s).Closes else ∀ s, (next s).Avoids (.command false)

/-- Whether a routine lets the machines work, and then runs the commands of the pass that closes a run. -/
def Clears : Routine σ α → Prop
  | .done _ => False
  | .step d act next => d = .clear ∧ (∀ s, act s = s.onWorld (·.setExiting false)) ∧ ∀ s, (next s).Closes

/-- Whether a routine runs commands of the pass that closes a run only behind the two steps that take down the flags. -/
def Opens : Routine σ α → Prop
  | .done _ => True
  | .step d act next =>
    d ≠ .command false ∧
      if d = .reset then (∀ s, (act s).world.cancelled = false) ∧ ∀ s, (next s).Clears else ∀ s, (next s).Opens

section

variable {p : Routine σ α} {f : α → Routine σ β}

theorem Avoids.closes (h : p.Avoids (.command false)) : p.Closes := by
  cases p with
  | done => trivial
  | step d act next =>
    have hd : d ≠ .command false := fun hd => h.1 (congrArg some hd)
    rw [Closes, if_neg hd]
    exact h.2

theorem Avoids.step {d d' : Deed} {act : Scene σ → Scene σ} {next : Scene σ → Routine σ α} (hd : d' ≠ d)
    (h : ∀ s, (next s).Avoids d) : (Routine.step d' act next).Avoids d := ⟨fun hd' => hd (Option.some.inj hd'), h⟩

theorem Avoids.done (d : Deed) (a : α) : (Routine.done a : Routine σ α).Avoids d := nofun

theorem Avoids.bind {d : Deed} (h : p.Avoids d) (hf : ∀ a, (f a).Avoids d) : (p.bind f).Avoids d := by
  refine Always.bind hf (Always.mono (fun q hq => ?_) h)
  cases q with
  | done a => exact (hf a).here
  | step => exact hq

theorem Closes.bind (h : p.Closes) (hf : ∀ a, (f a).Avoids (.command false)) : (p.bind f).Closes := by
  induction p with
  | done a => exact (hf a).closes
  | step d act next ih =>
    rw [Routine.bind, Closes]
    rw [Closes] at h
    split
    · rw [if_pos ‹_›] at h
      exact fun s => ih s (h s)
    · rw [if_neg ‹_›] at h
      exact fun s => Avoids.bind (h s) hf

theorem Clears.bind (h : p.Clears) (hf : ∀ a, (f a).Avoids (.command false)) : (p.bind f).Clears := by
  cases p with
  | done => exact h.elim
  | step d act next => exact ⟨h.1, h.2.1, fun s => (h.2.2 s).bind hf⟩

theorem Avoids.opens (h : p.Avoids (.command false)) (hr : p.Avoids .reset) : p.Opens := by
  induction p with
  | done => trivial
  | step d act next ih =>
    refine ⟨fun hd => h.1 (congrArg some hd), ?_⟩
    rw [if_neg fun hd => hr.1 (congrArg some hd)]
    exact fun s => ih s (h.2 s) (hr.2 s)

theorem Opens.bind (h : p.Opens) (hf : ∀ a, (f a).Avoids (.command false)) (hr : ∀ a, (f a).Avoids .reset) :
    (p.bind f).Opens := by
  induction p with
  | done a => exact (hf a).opens (hr a)
  | step d act next ih =>
    obtain ⟨hd, hnext⟩ := h
    refine ⟨hd, ?_⟩
    split
    · rw [if_pos ‹_›] at hnext
      exact ⟨hnext.1, fun s => (hnext.2 s).bind hf⟩
    · rw [if_neg ‹_›] at hnext
      exact fun s => ih s (hnext s)

/-- A routine of the ticks, and then another. -/
theorem opens_of_ticks (h : p.Always fun q => ∀ d ∈ q.deed?, d.ofTicks = true) (hf : ∀ a, (f a).Opens) :
    (p.bind f).Opens := by
  induction p with
  | done a => exact hf a
  | step d act next ih =>
    have hd : d.ofTicks = true := h.1 d rfl
    refine ⟨fun hd' => ?_, ?_⟩
    · rw [hd'] at hd
      cases hd
    · rw [if_neg fun hd' => ?_]
      · exact fun s => ih s (h.2 s)
      · rw [hd'] at hd
        cases hd

end

end Routine

namespace Run

open Routine

theorem closes_passing (m : Moment) (i : Nat) (cs : List (Command σ)) : (passing false m i cs).Closes := by
  match cs with
  | [] =>
    rw [passing]
    trivial
  | c :: rest =>
    have ih (n : Nat) := closes_passing m (i + 1 + n) (rest.drop n)
    rw [passing, if_neg Bool.false_ne_true, running, Closes, if_pos rfl]
    intro s
    rcases runGuarded m c s with ⟨signal, c', s'⟩
    cases signal with
    | kill => exact Avoids.closes (.step (by decide) fun _ => .done _ _)
    | exit => trivial
    | skip | proceed => exact (ih _).bind fun _ => .done _ _
termination_by cs.length
decreasing_by simp only [List.length_drop, List.length_cons]; omega

theorem opens_closing (started i : Nat) (e : Event σ) : (closing started i e).Opens := by
  refine ⟨by decide, ?_⟩
  rw [if_pos rfl]
  refine ⟨fun _ => rfl, fun _ => ⟨rfl, fun _ => rfl, fun _ => (closes_passing ..).bind fun p => ?_⟩⟩
  exact .step (by decide) fun _ => .step (by decide) fun _ => .step (by decide) fun _ => .done _ _

theorem opens_ending (started : Nat) (t : Ticked σ) : (ending started t).Opens := by
  unfold ending shutting
  split
  · trivial
  · trivial
  · refine ⟨by decide, ?_⟩
    rw [if_neg (by decide)]
    refine fun _ => Opens.bind ?_ (fun _ => .step (by decide) fun _ => .done _ _)
      fun _ => .step (by decide) fun _ => .done _ _
    split
    · trivial
    · split
      · trivial
      · exact (opens_closing ..).bind (fun _ => .done _ _) fun _ => .done _ _

theorem opens_working (o : Outside σ) (fuel : Nat) (r : Run σ) : (working o fuel r).Opens := by
  refine ⟨by decide, ?_⟩
  rw [if_neg (by decide)]
  exact fun s => opens_of_ticks ((endsSoon_ticking ..).mono fun _ h => h.ticks) (opens_ending _)

end Run

/-! ## Plays that come to a command of the closing pass -/

namespace Activity

/-- How a play comes to a command of the pass that closes a run: the worker withdraws the request to stop after some
moves, and lets the machines work after others, which are not its own; from then on it has only run commands of the
pass. -/
structure Opened (t : Activity σ α) (before between behind : List (Move Plea)) : Prop where
  reset : (t.play Plea.act before).deed? = some .reset
  idle : ∀ m ∈ between, m ≠ .work
  clear : (t.play Plea.act (before ++ .work :: between)).deed? = some .clear
  commands : ∀ front rest, behind = front ++ .work :: rest →
    (t.play Plea.act (before ++ .work :: (between ++ .work :: front))).deed? = some (.command false)

variable {t : Activity σ α} {ms : List (Move Plea)}

theorem closes_move (h : t.rest.Closes) (m : Move Plea) : (t.move Plea.act m).rest.Closes := by
  obtain ⟨p, s⟩ := t
  cases m with
  | other => exact h
  | work =>
    cases p with
    | done => trivial
    | step d f next =>
      by_cases hd : d = .command false
      · rw [Routine.Closes, if_pos hd] at h
        exact h s
      · rw [Routine.Closes, if_neg hd] at h
        exact (h s).closes

theorem closes_play (h : t.rest.Closes) (ms : List (Move Plea)) : (t.play Plea.act ms).rest.Closes := by
  induction ms generalizing t with
  | nil => exact h
  | cons m ms ih => exact ih (closes_move h m)

/-- A worker that is about a command of the pass has only run commands of it since it began with it. -/
theorem commands_of_closes (h : t.rest.Closes) {front rest : List (Move Plea)}
    (ht : (t.play Plea.act (front ++ .work :: rest)).deed? = some (.command false)) :
    (t.play Plea.act front).deed? = some (.command false) := by
  have hu := closes_play h front
  rw [play_append] at ht
  rcases hp : t.play Plea.act front with ⟨p, s⟩
  rw [hp] at hu ht
  cases p with
  | done a =>
    have hdone : (Routine.done a).Avoids (.command false) (σ := σ) := .done _ a
    exact absurd ht (hdone.play (t := ⟨.done a, s⟩) (.work :: rest)).here
  | step d f next =>
    by_cases hd : d = .command false
    · exact congrArg some hd
    · rw [Routine.Closes, if_neg hd] at hu
      exact absurd ht ((hu s).play (t := ⟨next s, f s⟩) rest).here

theorem exists_clear (h : t.rest.Clears) (ht : (t.play Plea.act ms).deed? = some (.command false)) :
    ∃ between behind, ms = between ++ .work :: behind ∧ (∀ m ∈ between, m ≠ .work) ∧
      (t.play Plea.act between).deed? = some .clear ∧ (t.play Plea.act (between ++ [.work])).rest.Closes ∧
      (t.play Plea.act (between ++ [.work])).scene =
        (t.play Plea.act between).scene.onWorld (·.setExiting false) := by
  obtain ⟨p, s⟩ := t
  cases p with
  | done => exact h.elim
  | step d f next =>
    obtain ⟨rfl, hf, hnext⟩ := h
    -- others may act before the step is taken, so that it is taken in another scene
    induction ms generalizing s with
    | nil => cases ht
    | cons m ms ih =>
      cases m with
      | work => exact ⟨[], ms, rfl, nofun, rfl, hnext s, hf s⟩
      | other q =>
        obtain ⟨between, behind, rfl, hidle, hclear⟩ := ih _ ht
        refine ⟨.other q :: between, behind, rfl, fun m hm => ?_, hclear⟩
        rcases List.mem_cons.1 hm with rfl | hm
        · exact nofun
        · exact hidle m hm

theorem exists_reset (h : t.rest.Opens) (ht : (t.play Plea.act ms).deed? = some (.command false)) :
    ∃ before later, ms = before ++ .work :: later ∧ (t.play Plea.act before).deed? = some .reset ∧
      (t.play Plea.act (before ++ [.work])).rest.Clears ∧
      (t.play Plea.act (before ++ [.work])).has World.cancelled = false := by
  induction ms generalizing t with
  | nil =>
    obtain ⟨p, s⟩ := t
    cases p with
    | done => cases ht
    | step d f next => exact absurd (Option.some.inj ht) h.1
  | cons m ms ih =>
    have later (hm : (t.move Plea.act m).rest.Opens) : ∃ before later, m :: ms = before ++ .work :: later ∧
        (t.play Plea.act before).deed? = some .reset ∧ (t.play Plea.act (before ++ [.work])).rest.Clears ∧
        (t.play Plea.act (before ++ [.work])).has World.cancelled = false := by
      obtain ⟨before, later, rfl, hreset⟩ := ih hm ht
      exact ⟨m :: before, later, rfl, hreset⟩
    obtain ⟨p, s⟩ := t
    cases m with
    | other q => exact later h
    | work =>
      cases p with
      | done => exact later trivial
      | step d f next =>
        obtain ⟨-, hnext⟩ := h
        by_cases hd : d = .reset
        · rw [if_pos hd] at hnext
          exact ⟨[], ms, rfl, congrArg some hd, hnext.2 s, hnext.1 s⟩
        · rw [if_neg hd] at hnext
          exact later (hnext s)

end Activity

namespace Run

open Activity in
/-- **A command of the pass that closes a run begins with a flag up exactly if** a request has raised it since the
worker took it down, or an earlier command of the pass has. -/
theorem closing_flags (o : Outside σ) (fuel : Nat) (r : Run σ) (ms : List (Move Plea))
    (h : ((worker o fuel r).play Plea.act ms).deed? = some (.command false)) :
    let t := (worker o fuel r).play Plea.act ms
    ∃ before between behind, ms = before ++ .work :: (between ++ .work :: behind) ∧
      (worker o fuel r).Opened before between behind ∧
      let u := (worker o fuel r).play Plea.act (before ++ .work :: (between ++ [.work]))
      (t.has World.inert = true → .other .raise ∈ behind ∨ u.Flips World.inert true behind) ∧
        (.other .raise ∈ behind → t.has World.inert = true ∨ u.Flips World.inert false behind) ∧
        (t.has World.cancelled = true →
          .other .cancel ∈ between ++ behind ∨ u.Flips World.cancelled true behind) ∧
        (.other .cancel ∈ between ++ behind →
          t.has World.cancelled = true ∨ u.Flips World.cancelled false behind) := by
  intro t
  obtain ⟨before, later, rfl, hreset, hclears, hcancelled⟩ := exists_reset (opens_working o fuel r) h
  have ht := h
  rw [play_work] at ht
  obtain ⟨between, behind, rfl, hidle, hclear, hcloses, hcleared⟩ := exists_clear hclears ht
  have hopening : (worker o fuel r).play Plea.act (before ++ .work :: (between ++ [.work])) =
      ((worker o fuel r).play Plea.act (before ++ [.work])).play Plea.act (between ++ [.work]) := play_work ..
  have hbehind (front : List (Move Plea)) :
      (worker o fuel r).play Plea.act (before ++ .work :: (between ++ .work :: front)) =
        ((worker o fuel r).play Plea.act (before ++ .work :: (between ++ [.work]))).play Plea.act front := by
    rw [play_work, play_work, hopening]
  have hopened : (worker o fuel r).Opened before between behind := by
    refine ⟨hreset, hidle, (play_work ..).symm ▸ hclear, fun front rest hfront => ?_⟩
    rw [hbehind, hopening]
    rw [hbehind, hopening, hfront] at h
    exact commands_of_closes hcloses h
  refine ⟨before, between, behind, rfl, hopened, ?_⟩
  intro u
  have hworking : u.has World.inert = false := by
    rw [show u = _ from hopening]
    exact congrArg (fun s => s.world.inert) hcleared
  have hkept : (((worker o fuel r).play Plea.act (before ++ [.work])).play Plea.act (between ++ [.work])).has
      World.cancelled = (((worker o fuel r).play Plea.act (before ++ [.work])).play Plea.act between).has
      World.cancelled := congrArg (fun s => s.world.cancelled) hcleared
  obtain ⟨hinert, hinert'⟩ := flag_play_of_down (Plea.raises_devices World.ofDevices_inert) hworking behind
  obtain ⟨hasked, hasked'⟩ := flag_play_behind Plea.raises_cancelled hcancelled hidle hkept behind
  rw [← hopening] at hasked hasked'
  rw [show t = _ from hbehind behind]
  exact ⟨hinert, hinert', hasked, hasked'⟩

open Activity in
/-- The hypothesis of `closing_flags` is satisfiable: a request that raises a flag when the first command of the pass
has run is met by the second. -/
theorem closing_flags_killedRun :
    let r := killedRun
    let w := worker (Outside.nobody Unit) 2 r
    let ms : List (Move Plea) := List.replicate 17 .work ++ [.other .raise]
    let t := w.play Plea.act ms
    t.deed? = some (.command false) ∧ t.has World.inert = true ∧
      ∃ before between behind, ms = before ++ .work :: (between ++ .work :: behind) ∧ w.Opened before between behind ∧
        let u := w.play Plea.act (before ++ .work :: (between ++ [.work]))
        (t.has World.inert = true → .other .raise ∈ behind ∨ u.Flips World.inert true behind) ∧
          (.other .raise ∈ behind → t.has World.inert = true ∨ u.Flips World.inert false behind) ∧
          (t.has World.cancelled = true →
            .other .cancel ∈ between ++ behind ∨ u.Flips World.cancelled true behind) ∧
          (.other .cancel ∈ between ++ behind →
            t.has World.cancelled = true ∨ u.Flips World.cancelled false behind) := by
  intro r w ms t
  have hdeed : t.deed? = some (.command false) := by decide +kernel
  exact ⟨hdeed, by decide +kernel, closing_flags _ 2 killedRun ms hdeed⟩

end Run
end ArmPilot
