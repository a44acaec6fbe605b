import ArmPilot.Interpreter.Basic
import ArmPilot.Proofs.Failing
import ArmPilot.Proofs.Memory.Usage

/-!
# Restarts

An interpreter keeps the events of a script from one run to the next, with what they remember.  A run that is started
again begins afresh in everything else, but its timers and repeating commands go on where all earlier runs since loading
have left them (`Interpreter.prepare_of_reruns`).  It is the run that the script would make if it were loaded anew
exactly if no timer was asked when its period had passed, and no command was run that repeats.
-/

namespace ArmPilot

variable {σ : Type}

/-- Whether nothing of an earlier run is left in a world. -/
structure World.Ready (w : World σ) : Prop where
  cancelled : w.cancelled = false
  arm : w.robot.exiting = false
  vision : w.visionExiting = false
  board : w.board = []

/-- A run in another world. -/
def Run.inWorld (r : Run σ) (w : World σ) : Run σ := { r with scene := { r.scene with world := w } }

namespace Interpreter

/-- Whether an interpreter that runs nothing keeps events for its next run. -/
structure Holds (i : Interpreter σ) (c : Config) (es : List (Event σ)) : Prop where
  config : i.config = c
  held : i.worker = .absent ∧ i.events = es ∨ ∃ summary, i.worker = .ended es summary

variable {c : Config} {es : List (Event σ)} {i j k : Interpreter σ} {o : Outside σ} {fuel : Nat}

/-- An interpreter that has loaded a script keeps its events. -/
theorem holds_of_load {script : Script} {report : Report} (h : (load script).run.run i = (.ok report, j)) :
    j.Holds i.config (ArmPilot.load i.registry script).events := by
  obtain ⟨c, reg, events, worker, last, w⟩ := i
  cases worker with
  | absent => exact (Prod.mk.inj h).2 ▸ ⟨rfl, .inl ⟨rfl, rfl⟩⟩
  | ended events summary => exact (Prod.mk.inj h).2 ▸ ⟨rfl, .inl ⟨rfl, rfl⟩⟩
  | running r => exact nomatch (Prod.mk.inj h).1
  | panicked => exact nomatch (Prod.mk.inj h).1

/-- A run begins with the events that are kept, and with nothing else of an earlier run. -/
theorem prepare_of_holds (h : i.Holds c es) :
    ∃ w, prepare.run.run i =
        (.ok (Run.create c es w), { i with worker := .absent, events := [], last := none, world := w }) ∧
      w.Ready := by
  obtain ⟨c', reg, events, worker, last, w⟩ := i
  obtain ⟨rfl, ⟨rfl, rfl⟩ | ⟨summary, rfl⟩⟩ := h
  · exact ⟨_, rfl, rfl, rfl, rfl, rfl⟩
  · exact ⟨_, rfl, rfl, rfl, rfl, rfl⟩

/-- An operation goes on from where an earlier one has left the interpreter. -/
theorem run_bind {α β : Type} {x : Control σ α} {f : α → Control σ β} {a : α} (h : x.run.run i = (.ok a, j)) :
    (x >>= f).run.run i = (f a).run.run j := by
  rw [Failing.run_bind, h]

/-- A run that is made here to its end leaves its events for the next. -/
theorem holds_of_runHere {r : Run σ} (hprepare : prepare.run.run i = (.ok r, j)) (hworker : j.worker = .absent)
    (h : (runHere o fuel).run.run i = (.ok (.ok ()), k)) :
    ∃ events summary, (r.execute o fuel).1 = .finished events summary ∧ k.Holds j.config events := by
  have hrun : (runHere o fuel).run.run i = _ := run_bind hprepare
  rw [h] at hrun
  match hexecute : r.execute o fuel with
  | (.finished events summary, w) =>
    rw [hexecute] at hrun
    obtain rfl := (Prod.mk.inj hrun).2
    exact ⟨events, summary, rfl, rfl, .inl ⟨hworker, rfl⟩⟩
  | (.broken b, w) =>
    rw [hexecute] at hrun
    cases (Prod.mk.inj hrun).1
  | (.unfinished, w) =>
    rw [hexecute] at hrun
    cases (Prod.mk.inj hrun).1

/-- A start hands the run over to a worker, or keeps its events if there is no room for one. -/
theorem start_of_prepare {r : Run σ} (hprepare : prepare.run.run i = (.ok r, j)) {result : Except LifecycleError Unit}
    (h : start.run.run i = (result, k)) :
    result = .ok () ∧ k = { j with worker := .running r } ∨
      result = .error .spawn ∧ k.config = j.config ∧ k.worker = j.worker ∧ k.events = r.events := by
  have hrun : start.run.run i = (if hasRoom j.config then modify fun i => { i with worker := .running r }
      else do
        modify fun i => { i with events := r.events }
        note .error ("Could not start script thread: " ++ spawnReason)
        throw .spawn : Control σ Unit).run.run j := run_bind hprepare
  rw [h] at hrun
  split at hrun
  · obtain ⟨rfl, rfl⟩ := Prod.mk.inj hrun
    exact .inl ⟨rfl, rfl⟩
  · obtain ⟨rfl, rfl⟩ := Prod.mk.inj hrun
    exact .inr ⟨rfl, rfl, rfl, rfl⟩

/-- A worker that has ended is left with the events of its run. -/
theorem holds_of_follow {r : Run σ} (hworker : i.worker = .running r) {events : List (Event σ)} {summary : Summary}
    (h : (follow o fuel i).worker = .ended events summary) :
    (Run.execute o fuel (r.inWorld i.world)).1 = .finished events summary ∧
      (follow o fuel i).Holds i.config events := by
  have hfollow : follow o fuel i =
      { i with
        worker := .atEnd (Run.execute o fuel (r.inWorld i.world)).1
        world := (Run.execute o fuel (r.inWorld i.world)).2 } := by
    rw [follow, hworker]
    rfl
  rw [hfollow] at h ⊢
  refine ⟨?_, rfl, .inr ⟨summary, h⟩⟩
  match hending : (Run.execute o fuel (r.inWorld i.world)).1 with
  | .finished events' summary' =>
    rw [hending] at h
    obtain ⟨rfl, rfl⟩ := Worker.ended.inj h
    rfl
  | .broken b =>
    rw [hending] at h
    cases h
  | .unfinished =>
    rw [hending] at h
    cases h

/-! ## Runs one after the other -/

/-- Runs of the events that an interpreter keeps, made to their ends one after the other without a stop by its user.
Each is told with the number of ticks for which it was followed. -/
inductive Reruns (o : Outside σ) (i : Interpreter σ) : List (Nat × Run σ) → Interpreter σ → Prop
  | refl : Reruns o i [] i
  /-- Between the runs the world goes on, and kinds may be registered. -/
  | between {past : List (Nat × Run σ)} {j : Interpreter σ} (w : World σ) (reg : Registry σ) :
    Reruns o i past j → Reruns o i past { j with world := w, registry := reg }
  /-- A run is made here. -/
  | here {past : List (Nat × Run σ)} {j j' k : Interpreter σ} {fuel : Nat} {r : Run σ} :
    Reruns o i past j → prepare.run.run j = (.ok r, j') → (runHere o fuel).run.run j = (.ok (.ok ()), k) →
      Reruns o i (past ++ [(fuel, r)]) k
  /-- A run is made by a worker, which begins some time after its start. -/
  | beside {past : List (Nat × Run σ)} {j k : Interpreter σ} {fuel : Nat} {r : Run σ} {events : List (Event σ)}
    {summary : Summary} (w : World σ) :
    Reruns o i past j → start.run.run j = (.ok (), k) → k.worker = .running r →
      (follow o fuel { k with world := w }).worker = .ended events summary →
      Reruns o i (past ++ [(fuel, r.inWorld w)]) (follow o fuel { k with world := w })
  /-- There is no room for a worker. -/
  | refused {past : List (Nat × Run σ)} {j k : Interpreter σ} :
    Reruns o i past j → start.run.run j = (.error .spawn, k) → Reruns o i past k

/-- What was done with the events in runs. -/
def usage (o : Outside σ) (past : List (Nat × Run σ)) : Run.Usage := .total (past.map fun p => p.2.usage o p.1)

theorem usage_concat (o : Outside σ) (past : List (Nat × Run σ)) (fuel : Nat) (r : Run σ) :
    usage o (past ++ [(fuel, r)]) = (usage o past).and (r.usage o fuel) := by
  unfold usage
  rw [List.map_append, Run.Usage.total_append]
  exact congrArg (Run.Usage.and _) (Run.Usage.and_none _)

/-- **Runs leave the events as all of them together have used them.** -/
theorem Reruns.holds (hes : ∀ e ∈ es, e.AsLoaded) (hi : i.Holds c es) {past : List (Nat × Run σ)}
    (h : Reruns o i past j) : j.Holds c ((usage o past).age es) := by
  induction h with
  | refl =>
    have hfresh : (usage o []).age es = es := Run.Usage.age_none hes
    rw [hfresh]
    exact hi
  | between w reg _ ih => exact ⟨ih.config, ih.held⟩
  | here _ hprepare hrun ih =>
    obtain ⟨w, hprepare', -⟩ := prepare_of_holds ih
    obtain ⟨hr, rfl⟩ := Prod.mk.inj (hprepare.symm.trans hprepare')
    obtain rfl := Except.ok.inj hr
    -- the run begins with the events as they were used, and uses them further
    obtain ⟨events, summary, hexecute, hk⟩ := holds_of_runHere hprepare' rfl hrun
    rw [Run.events_execute hes rfl hexecute] at hk
    rw [usage_concat]
    exact ⟨hk.config.trans ih.config, hk.held⟩
  | @beside past j k fuel r events summary w _ hstart hworker hended ih =>
    obtain ⟨hexecute, hk⟩ := holds_of_follow (i := { k with world := w }) hworker hended
    obtain ⟨w', hprepare, -⟩ := prepare_of_holds ih
    obtain ⟨-, rfl⟩ | ⟨herror, -⟩ := start_of_prepare hprepare hstart
    · obtain rfl := Worker.running.inj hworker
      -- the world may have gone on before the worker begins, but nobody else holds the events
      have hevents : ((Run.create c ((usage o past).age es) w').inWorld w).events = (usage o past).age es := rfl
      rw [Run.events_execute hes hevents hexecute] at hk
      rw [usage_concat]
      exact ⟨hk.config.trans ih.config, hk.held⟩
    · cases herror
  | refused _ hstart ih =>
    obtain ⟨w, hprepare, -⟩ := prepare_of_holds ih
    obtain ⟨hok, -⟩ | ⟨-, hconfig, hworker, hevents⟩ := start_of_prepare hprepare hstart
    · cases hok
    -- the events that the run was to begin with are kept
    · exact ⟨hconfig.trans ih.config, .inl ⟨hworker, hevents⟩⟩

/-- **A restart finds the events as all runs since loading have left them**, and nothing else of these runs.  It makes
the run of the script as it was loaded exactly if the runs have spared its events.  If they have not, its timers and
repeating commands go on where they were left. -/
theorem prepare_of_reruns (hbuiltin : i.registry = Registry.builtin o) {script : Script} {report : Report}
    (hload : (load script).run.run i = (.ok report, j)) {past : List (Nat × Run σ)} (h : Reruns o j past k) :
    let es := (ArmPilot.load (Registry.builtin o) script).events
    let u := usage o past
    ∃ w, let r := Run.create i.config (u.age es) w
      (prepare.run.run k).1 = .ok r ∧ w.Ready ∧ (r = Run.create i.config es w ↔ u.Spares es) ∧
        ∀ fuel, (Run.course o fuel r).Continues (Run.startTime r) u es := by
  intro es u
  have hes : ∀ e ∈ es, e.AsLoaded := fun e he => Event.asLoaded_of_mem_load he
  have hj : j.Holds i.config es := by
    have hloaded := holds_of_load hload
    rwa [hbuiltin] at hloaded
  obtain ⟨w, hprepare, hready⟩ := prepare_of_holds (h.holds hes hj)
  have hspares : Run.create i.config (u.age es) w = Run.create i.config es w ↔ u.Spares es := by
    rw [← Run.Usage.age_eq_iff hes u]
    exact ⟨congrArg Run.events, congrArg (Run.create i.config · w)⟩
  exact ⟨w, congrArg Prod.fst hprepare, hready, hspares, fun fuel => Run.continues_course hes rfl⟩

/-- A script that ends the program in its first tick. -/
def endingScript : Script := ⟨[⟨"StepEvent", [], [⟨"EndProgramCommand", []⟩]⟩]⟩

/-- The hypotheses of `prepare_of_reruns` are satisfiable: a script that was run here may be run again. -/
theorem prepare_of_reruns_endingScript :
    let o := Outside.nobody Unit
    let i := create Config.default (Registry.builtin o) (World.initial ())
    let j := ((load endingScript).run.run i).2
    let k := ((runHere o 2).run.run j).2
    let es := (ArmPilot.load (Registry.builtin o) endingScript).events
    ∃ report first, (load endingScript).run.run i = (.ok report, j) ∧ Reruns o j [(2, first)] k ∧
      let u := usage o [(2, first)]
      ∃ w, let r := Run.create i.config (u.age es) w
        (prepare.run.run k).1 = .ok r ∧ w.Ready ∧ (r = Run.create i.config es w ↔ u.Spares es) ∧
          ∀ fuel, (Run.course o fuel r).Continues (Run.startTime r) u es := by
  intro o i j k es
  have hload : (load endingScript).run.run i = (.ok (ArmPilot.load (Registry.builtin o) endingScript).report, j) := rfl
  obtain ⟨w, hprepare, -⟩ := prepare_of_holds (holds_of_load hload)
  have hended : ((runHere o 2).run.run j).1 = .ok (.ok ()) := by decide +kernel
  have hruns : Reruns o j [(2, _)] k := .here .refl hprepare (Prod.ext hended rfl)
  exact ⟨_, _, hload, hruns, prepare_of_reruns rfl hload hruns⟩

end Interpreter
end ArmPilot
