import ArmPilot.Proofs.Lifecycle.Calls

/-!
# What calls do

A script is loaded and started only when no worker is running.  A worker that has come to an end is let go of first, and
what it hands over is kept (`Station.Freed`), unless it has broken down.  So a call that loads, starts or stops does one
of few things (`Station.Returns.effect`), and every call can return (`Station.exists_returns`).
-/

namespace ArmPilot

variable {σ ι : Type}

/-- What is told when a call is refused because a run is under way; other calls are not refused. -/
def Call.refusal : Call → Option String
  | .load _ => some Interpreter.loadRefused
  | .start _ => some Interpreter.startRefused
  | _ => none

namespace Station

variable {act : ι → World σ → World σ} {o : Outside σ} {fuel : Nat} {k k₀ k₁ k' : Station σ} {d : Held σ} {e : Ending σ}

/-! ## The way in of a call -/

theorem Joins.leads (h : k.Joins act k₁) : k.Leads k₁ := by
  cases h with
  | now => exact .refl k
  | left ms => exact leads_play act k ms

theorem ended_of_not_left (h : ¬k.Left) : k.ended = [] := by
  unfold ended
  split
  · exact absurd ⟨_, ‹_›, rfl⟩ h
  · rfl

theorem ended_of_busy (h : k.Busy) : k.ended = [] := by
  refine ended_of_not_left ?_
  rintro ⟨d, hd, hgone⟩
  obtain ⟨d', hd', he⟩ := h
  obtain rfl := Option.some.inj (hd.symm.trans hd')
  unfold Held.ending? at he
  cases ht : d.thread with
  | working | leaving => simp [ht, Thread.isGone] at hgone
  | gone e => simp [ht, Thread.isGone, Thread.end?] at he

/-- A station that has collected a worker which has finished its run. -/
def collecting (k : Station σ) (events : List (Event σ)) (summary : Summary) : Station σ :=
  ⟨{ k.desk with events := events, last := some summary, world := k.world.setExiting false }, none, k.threads⟩

theorem Requests.leads (h : k.Requests act k₁) : k.Leads k₁ := by
  obtain ⟨ms, rfl⟩ := h
  exact ((leads_onWorld _ k).trans (leads_play act _ ms)).trans (leads_onWorld _ _)

/-- What is left of a station once it holds no worker, with the ends of the runs that it has collected. -/
inductive Freed (k : Station σ) : Station σ → List (Ending σ) → Prop
  | idle : k.held = none → Freed k k []
  | collected {k₁ : Station σ} {d : Held σ} {events : List (Event σ)} {summary : Summary} :
    k.Leads k₁ → k.held = some d → d.ending? = some (.finished events summary) →
      k₁.held = some { d with thread := .gone (.finished events summary) } →
      Freed k (k₁.collecting events summary) [.finished events summary]

theorem Freed.held {ends : List (Ending σ)} (h : k.Freed k₀ ends) : k₀.held = none := by
  cases h with
  | idle h => exact h
  | collected => rfl

/-- Whether a station that holds no worker stands for one that holds a worker which has finished its run: a call that
cannot be made during a run does the same with both. -/
structure Replaces (k₀ k₁ : Station σ) : Prop where
  free : ¬k₁.Busy
  entering : ∀ {α : Type} (text : String) (next : Interpreter σ → Except LifecycleError α × Interpreter σ),
    k₁.seen.entering text next = next { k₀.desk with worker := .absent }
  threads : k₁.threads = k₀.past
  worker : k₁.desk.worker = k₀.desk.worker

/-- What a call finds that cannot be made during a run. -/
inductive Joined (k : Station σ) : Station σ → Prop
  | busy : k.Busy → Joined k k
  | broken {k₁ : Station σ} {d : Held σ} {e : Ending σ} : k.Leads k₁ → k.held = some d → d.ending? = some e →
      e.isFinished = false → k₁.held = some { d with thread := .gone e } → Joined k k₁
  | freed {k₀ k₁ : Station σ} : k.Freed k₀ k₁.ended → k₀.Replaces k₁ → Joined k k₁

theorem ended_of_none (h : k.held = none) : k.ended = [] := ended_of_not_left fun ⟨d, hd, _⟩ => by simp [h] at hd

theorem joins_of_none (h : k.held = none) : k.Joins act k := .now fun ⟨d, hd, _⟩ => by simp [h] at hd

theorem replaces_of_none (h : k.held = none) : k.Replaces k where
  free := not_busy_of_none h
  entering text next := by
    rw [seen_of_none h]
    rfl
  threads := by
    unfold threads
    rw [h]
    rfl
  worker := rfl

theorem replaces_of_finished {r : Run σ} {events : List (Event σ)} {summary : Summary} {noticed : Bool}
    (h : k.held = some ⟨r, .gone (.finished events summary), noticed⟩) : (k.collecting events summary).Replaces k where
  free := not_busy_of_gone h
  entering text next := by
    rw [seen_of_gone h]
    rfl
  threads := rfl
  worker := rfl

theorem Joins.joined (h : k.Joins act k₁) : k.Joined k₁ := by
  cases h with
  | now hnot =>
    rcases k.held_cases with hnone | hbusy | hfinished
    · exact .freed (ended_of_none hnone ▸ .idle hnone) (replaces_of_none hnone)
    · exact .busy hbusy
    · exact absurd hfinished hnot
  | left ms hfinished hleft =>
    obtain ⟨d, hd, e, he⟩ := hfinished
    have hleads := leads_play act k ms
    obtain ⟨e', hgone, he'⟩ := hleads.held_gone hd hleft
    obtain rfl := he' e (Held.end?_of_ending? he)
    cases e' with
    | finished events summary =>
      exact .freed (ended_of_gone hgone ▸ .collected hleads hd he hgone) (replaces_of_finished hgone)
    | broken | unfinished => exact .broken hleads hd he rfl hgone

/-! ## The way out -/

section

variable {α : Type} (text : String) (next : Interpreter σ → Except LifecycleError α × Interpreter σ)

theorem entering_of_busy (hbusy : k.Busy) :
    k.seen.entering text next = (.error .alreadyRunning, k.seen.complaining text) := by
  obtain ⟨d, hd, he⟩ := hbusy
  rw [seen_of_some hd, Held.seen, he]
  rfl

theorem entering_of_broken {r : Run σ} {noticed : Bool} (h : k.held = some ⟨r, .gone e, noticed⟩)
    (he : e.isFinished = false) :
    k.seen.entering text next =
      (.error .workerPanicked, { k.desk.complaining Interpreter.brokenDown with worker := .absent }) := by
  rw [seen_of_gone h]
  cases e with
  | finished => cases he
  | broken | unfinished => rfl

end

theorem settle_refused (hbusy : k.Busy) (text : String) :
    k.settle o fuel (k.seen.complaining text) = k.onWorld (·.note .error Run.target text) := by
  have hrunning := busy_iff_isRunning.1 hbusy
  obtain ⟨d, hd, he⟩ := hbusy
  have hseen : k.seen = { k.desk with worker := .running d.run } := by rw [seen_of_some hd, Held.seen, he]
  unfold settle
  rw [hrunning, hseen]
  rfl

theorem handed_refused (hbusy : k.Busy) (text : String) : k.handed (k.seen.complaining text) = none := by
  have hrunning := busy_iff_isRunning.1 hbusy
  unfold handed
  rw [hrunning]
  split <;> rfl

theorem settle_absent {i : Interpreter σ} (h : i.worker = .absent) :
    k.settle o fuel i = ⟨{ i with worker := k.desk.worker }, none, k.threads⟩ := by
  unfold settle
  rw [h]

theorem handed_absent {i : Interpreter σ} (h : i.worker = .absent) : k.handed i = none := by
  unfold handed
  rw [h]

theorem Replaces.settle_absent (h : k₀.Replaces k₁) {i : Interpreter σ} (hi : i.worker = .absent) :
    k₁.settle o fuel i = ⟨{ i with worker := k₀.desk.worker }, none, k₀.past⟩ := by
  rw [Station.settle_absent hi, h.threads, h.worker]

theorem Replaces.settle_running (h : k₀.Replaces k₁) {i : Interpreter σ} {r : Run σ} (hi : i.worker = .running r) :
    k₁.settle o fuel i = ⟨{ i with worker := k₀.desk.worker }, some ⟨r, .ofRun o fuel r, false⟩, k₀.past⟩ := by
  have hfree := h.free
  rw [busy_iff_isRunning, Bool.not_eq_true] at hfree
  unfold settle
  rw [hi, hfree, h.threads, h.worker]
  rfl

theorem Replaces.handed_running (h : k₀.Replaces k₁) {i : Interpreter σ} {r : Run σ} (hi : i.worker = .running r) :
    k₁.handed i = some r := by
  have hfree := h.free
  rw [busy_iff_isRunning, Bool.not_eq_true] at hfree
  unfold handed
  rw [hi, hfree]
  rfl

/-- The run that a station begins which holds no worker. -/
def next (k : Station σ) : Run σ := Run.create k.desk.config k.desk.events k.desk.readied.world

/-- What calls that load, start or stop come to, and what they leave. -/
inductive Effect (act : ι → World σ → World σ) (o : Outside σ) (fuel : Nat) (k : Station σ) :
    Call → Outcome σ → Station σ → Prop
  | refused {c : Call} {text : String} : k.Busy → c.refusal = some text →
      Effect act o fuel k c ⟨.failed .alreadyRunning, none, []⟩ (k.onWorld (·.note .error Run.target text))
  | broken {c : Call} {text : String} {k₁ : Station σ} {d : Held σ} {e : Ending σ} :
    c.refusal = some text → k.Leads k₁ → k.held = some d → d.ending? = some e → e.isFinished = false →
      k₁.held = some { d with thread := .gone e } →
      Effect act o fuel k c ⟨.failed .workerPanicked, none, [e]⟩
        ⟨k₁.desk.complaining Interpreter.brokenDown, none, k₁.threads⟩
  | loaded {k₀ : Station σ} {ends : List (Ending σ)} (s : Script) :
    k.Freed k₀ ends →
      Effect act o fuel k (.load s) ⟨.report (ArmPilot.load k₀.desk.registry s).report, none, ends⟩
        ⟨k₀.desk.loaded s, none, k₀.past⟩
  | hired {k₀ : Station σ} {ends : List (Ending σ)} : k.Freed k₀ ends → Interpreter.hasRoom k₀.desk.config = true →
      Effect act o fuel k (.start true) ⟨.done, some k₀.next, ends⟩
        ⟨k₀.desk.readied, some ⟨k₀.next, .ofRun o fuel k₀.next, false⟩, k₀.past⟩
  | roomless {k₀ : Station σ} {ends : List (Ending σ)} : k.Freed k₀ ends → ¬Interpreter.hasRoom k₀.desk.config = true →
      Effect act o fuel k (.start true) ⟨.failed .spawn, none, ends⟩
        ⟨{ k₀.desk.readied.complaining Interpreter.roomless with events := k₀.desk.events }, none, k₀.past⟩
  | ranHere {k₀ : Station σ} {ends : List (Ending σ)} {events : List (Event σ)} {summary : Summary}
    (ms : List (Move ι)) {s : Scene σ} : k.Freed k₀ ends →
      (k₀.next.worker o fuel).play act ms = ⟨.done (.finished events summary), s⟩ →
      Effect act o fuel k (.start false) ⟨.done, some k₀.next, ends ++ [.finished events summary]⟩
        ⟨{ k₀.desk.readied with events := events, last := some summary, world := s.world.setExiting false }, none, k₀.past⟩
  | brokeHere {k₀ : Station σ} {ends : List (Ending σ)} {e : Ending σ} (ms : List (Move ι)) {s : Scene σ} {b : Breakdown} :
    k.Freed k₀ ends → (k₀.next.worker o fuel).play act ms = ⟨.done e, s⟩ → e.isFinished = false →
      Effect act o fuel k (.start false) ⟨.broken b, some k₀.next, ends ++ [e]⟩
        ⟨{ k₀.desk.readied with world := s.world }, none, k₀.past⟩
  | notStopped : k.held = none → Effect act o fuel k .stop ⟨.failed .notRunning, none, []⟩ k
  | stopped {k₁ : Station σ} {d : Held σ} {e : Ending σ} (requested : Nat) :
    k.Leads k₁ → k.held = some d → k₁.held = some { d with thread := .gone e } →
      Effect act o fuel k .stop ⟨.of .summary (k₁.desk.stopped requested e).1, none, [e]⟩
        ⟨{ (k₁.desk.stopped requested e).2 with worker := k₁.desk.worker }, none, k₁.threads⟩


/-- A call that is refused, or finds that the worker has broken down. -/
theorem Joined.failed (act : ι → World σ → World σ) (o : Outside σ) (fuel : Nat) {α : Type} {text : String} {next : Interpreter σ → Except LifecycleError α × Interpreter σ}
    {r : Except LifecycleError α} {i : Interpreter σ} {c : Call} (hc : c.refusal = some text) (h : k.Joined k₁)
    (hrun : k₁.seen.entering text next = (r, i)) :
    (∃ err, r = .error err ∧ k₁.handed i = none ∧
      Effect act o fuel k c ⟨.failed err, none, k₁.ended⟩ (k₁.settle o fuel i)) ∨
    ∃ k₀, k.Freed k₀ k₁.ended ∧ k₀.Replaces k₁ ∧ next { k₀.desk with worker := .absent } = (r, i) := by
  cases h with
  | busy hbusy =>
    obtain ⟨rfl, rfl⟩ := Prod.mk.inj (hrun.symm.trans (entering_of_busy text next hbusy))
    refine .inl ⟨_, rfl, handed_refused hbusy text, ?_⟩
    rw [settle_refused hbusy, ended_of_busy hbusy]
    exact .refused hbusy hc
  | broken hleads hd he hbroken hgone =>
    obtain ⟨rfl, rfl⟩ := Prod.mk.inj (hrun.symm.trans (entering_of_broken text next hgone hbroken))
    refine .inl ⟨_, rfl, handed_absent rfl, ?_⟩
    rw [settle_absent rfl, ended_of_gone hgone]
    exact .broken hc hleads hd he hbroken hgone
  | freed hfreed hreplaces => exact .inr ⟨_, hfreed, hreplaces, (hreplaces.entering text next).symm.trans hrun⟩

/-- **What a call does that loads, starts or stops.** -/
theorem Returns.effect {c : Call} {r : Outcome σ} (h : Returns act o fuel k c r k')
    (hc : c = .stop ∨ c.refusal.isSome = true) : Effect act o fuel k c r k' := by
  cases h with
  | load s hjoin hrun =>
    rw [Interpreter.run_load] at hrun
    rcases hjoin.joined.failed act o fuel (c := .load s) rfl hrun with ⟨err, rfl, -, heffect⟩ | ⟨k₀, hfreed, hreplaces, hnext⟩
    · exact heffect
    · obtain ⟨rfl, rfl⟩ := Prod.mk.inj hnext
      rw [hreplaces.settle_absent rfl]
      exact .loaded s hfreed
  | start hjoin hrun =>
    rw [Interpreter.run_start] at hrun
    rcases hjoin.joined.failed act o fuel (c := .start true) rfl hrun with ⟨err, rfl, hnone, heffect⟩ | ⟨k₀, hfreed, hreplaces, hnext⟩
    · rw [hnone]
      exact heffect
    · rw [Interpreter.run_hire] at hnext
      change (if Interpreter.hasRoom k₀.desk.config = true then _ else _) = _ at hnext
      by_cases hroom : Interpreter.hasRoom k₀.desk.config = true
      · rw [if_pos hroom] at hnext
        obtain ⟨rfl, rfl⟩ := Prod.mk.inj hnext
        rw [hreplaces.settle_running rfl, hreplaces.handed_running rfl]
        exact .hired hfreed hroom
      · rw [if_neg hroom] at hnext
        obtain ⟨rfl, rfl⟩ := Prod.mk.inj hnext
        rw [hreplaces.settle_absent rfl, handed_absent rfl]
        exact .roomless hfreed hroom
  | notBegun hjoin hrun =>
    rw [Interpreter.run_prepare] at hrun
    rcases hjoin.joined.failed act o fuel (c := .start false) rfl hrun with ⟨err, herr, -, heffect⟩ | ⟨k₀, -, -, hnext⟩
    · obtain rfl := Except.error.inj herr
      exact heffect
    · cases (Prod.mk.inj hnext).1
  | @here k₁ r i j ms e s answer hjoin hrun hplay hback =>
    rw [Interpreter.run_prepare] at hrun
    rcases hjoin.joined.failed act o fuel (c := .start false) rfl hrun with ⟨err, herr, -⟩ | ⟨k₀, hfreed, hreplaces, hnext⟩
    · cases herr
    · obtain ⟨hr, rfl⟩ := Prod.mk.inj hnext
      obtain rfl := Except.ok.inj hr
      cases e with
      | finished events summary =>
        obtain ⟨hanswer, rfl⟩ := Prod.mk.inj hback
        obtain rfl := Except.ok.inj hanswer
        rw [hreplaces.settle_absent rfl]
        exact .ranHere ms hfreed hplay
      | broken b =>
        obtain ⟨hanswer, rfl⟩ := Prod.mk.inj hback
        obtain rfl := Except.ok.inj hanswer
        rw [hreplaces.settle_absent rfl]
        exact .brokeHere ms hfreed hplay rfl
      | unfinished =>
        obtain ⟨hanswer, rfl⟩ := Prod.mk.inj hback
        obtain rfl := Except.ok.inj hanswer
        rw [hreplaces.settle_absent rfl]
        exact .brokeHere ms hfreed hplay rfl
  | notStopped hnone hrun =>
    rw [seen_of_none hnone] at hrun
    obtain ⟨rfl, rfl⟩ := Prod.mk.inj hrun
    have hsettle : k.settle o fuel { k.desk with worker := .absent } = k := by
      obtain ⟨i, held, past⟩ := k
      obtain rfl : held = none := hnone
      rfl
    rw [hsettle]
    exact .notStopped hnone
  | @stop k₁ ms r i hsome hrequests hleft hrun =>
    have hleads : k.Leads (k₁.play act ms) := hrequests.leads.trans (leads_play act k₁ ms)
    obtain ⟨d, hd⟩ := Option.ne_none_iff_exists'.1 hsome
    obtain ⟨e, hgone, -⟩ := hleads.held_gone hd hleft
    rw [seen_of_gone hgone, Interpreter.run_finishStop] at hrun
    obtain rfl := congrArg Prod.fst hrun
    obtain rfl := congrArg Prod.snd hrun
    rw [settle_absent (Interpreter.worker_stopped ..), ended_of_gone hgone]
    exact .stopped k₁.world.clock hleads hd hgone
  | idle | wait | requestStop | cancel | status => simp [Call.refusal] at hc

/-! ## Calls return -/

theorem exists_joins (act : ι → World σ → World σ) (k : Station σ) : ∃ k₁, k.Joins act k₁ := by
  by_cases hfinished : k.Finished
  · have ⟨d, hd, _⟩ := hfinished
    obtain ⟨n, hn⟩ := exists_play_left act hd
    exact ⟨_, .left _ hfinished hn⟩
  · exact ⟨k, .now hfinished⟩

/-- A load returns when no worker is left to wait for. -/
theorem Replaces.returns_load (h : k₀.Replaces k₁) (hjoin : k.Joins act k₁) (s : Script) :
    Returns act o fuel k (.load s) ⟨.report (ArmPilot.load k₀.desk.registry s).report, none, k₁.ended⟩
      ⟨k₀.desk.loaded s, none, k₀.past⟩ := by
  have hrun := (Interpreter.run_load s k₁.seen).trans (h.entering _ _)
  have hreturns : Returns act o fuel k (.load s) ⟨_, none, k₁.ended⟩ _ := .load s hjoin hrun
  rw [h.settle_absent rfl] at hreturns
  exact hreturns

/-- A load returns without loading when it finds that the worker has broken down. -/
theorem returns_load_of_broken {run : Run σ} {noticed : Bool} (hgone : k₁.held = some ⟨run, .gone e, noticed⟩)
    (he : e.isFinished = false) (hjoin : k.Joins act k₁) (s : Script) :
    Returns act o fuel k (.load s) ⟨.failed .workerPanicked, none, [e]⟩
      ⟨k₁.desk.complaining Interpreter.brokenDown, none, k₁.threads⟩ := by
  have hrun := (Interpreter.run_load s k₁.seen).trans (entering_of_broken _ _ hgone he)
  have hreturns : Returns act o fuel k (.load s) ⟨_, none, k₁.ended⟩ _ := .load s hjoin hrun
  rw [settle_absent rfl, ended_of_gone hgone] at hreturns
  exact hreturns

/-- A start returns when no worker is left to wait for. -/
theorem Replaces.returns_start (h : k₀.Replaces k₁) (hjoin : k.Joins act k₁)
    (hroom : Interpreter.hasRoom k₀.desk.config = true) :
    Returns act o fuel k (.start true) ⟨.done, some k₀.next, k₁.ended⟩
      ⟨k₀.desk.readied, some ⟨k₀.next, .ofRun o fuel k₀.next, false⟩, k₀.past⟩ := by
  have hrun := (Interpreter.run_start k₁.seen).trans (h.entering _ _)
  rw [Interpreter.run_hire] at hrun
  change _ = if Interpreter.hasRoom k₀.desk.config = true then _ else _ at hrun
  rw [if_pos hroom] at hrun
  have hreturns : Returns act o fuel k (.start true) ⟨_, _, k₁.ended⟩ _ := .start hjoin hrun
  rw [h.settle_running rfl, h.handed_running rfl] at hreturns
  exact hreturns

theorem exists_handBack (e : Ending σ) (i : Interpreter σ) :
    ∃ answer j, (Interpreter.handBack e).run.run i = (.ok answer, j) := by
  cases e <;> exact ⟨_, _, rfl⟩

/-- **Every call can return**, whatever the worker has come to. -/
theorem exists_returns (act : ι → World σ → World σ) (o : Outside σ) (fuel : Nat) (k : Station σ) (c : Call) :
    ∃ r k', Returns act o fuel k c r k' := by
  obtain ⟨k₁, hjoin⟩ := exists_joins act k
  cases c with
  | load s => exact ⟨_, _, .load s hjoin rfl⟩
  | start threaded =>
    cases threaded with
    | true => exact ⟨_, _, .start hjoin rfl⟩
    | false =>
      match hprepare : Interpreter.prepare.run.run k₁.seen with
      | (.error e, i) => exact ⟨_, _, .notBegun hjoin hprepare⟩
      | (.ok r, i) =>
        obtain ⟨n, s, hplay, -⟩ := Run.exists_play_worker act o fuel r
        obtain ⟨answer, j, hback⟩ := exists_handBack (r.execute o fuel).1 { i with world := s.world }
        exact ⟨_, _, .here _ hjoin hprepare hplay hback⟩
  | stop =>
    by_cases hnone : k.held = none
    · exact ⟨_, _, .notStopped hnone rfl⟩
    · obtain ⟨d, hd⟩ := Option.ne_none_iff_exists'.1 hnone
      have hrequests : k.Requests act ((k.onWorld Plea.raise.act).onWorld Plea.cancel.act) := ⟨[], rfl⟩
      obtain ⟨t, -, hd'⟩ := hrequests.leads.thread d hd
      obtain ⟨n, hn⟩ := exists_play_left act hd'
      exact ⟨_, _, .stop _ hnone hrequests hn rfl⟩
  | wait forever =>
    cases hd : k.held with
    | none => exact ⟨_, _, .idle forever hd⟩
    | some d =>
      obtain ⟨n, d', hd', hgone⟩ := exists_play_left act hd
      refine ⟨_, _, .wait forever _ hd' fun _ => ?_⟩
      cases ht : d'.thread with
      | working | leaving => simp [ht, Thread.isGone] at hgone
      | gone e => simp [Held.told, ht, Thread.end?]
  | requestStop => exact ⟨_, _, .requestStop ⟨[], rfl⟩⟩
  | cancel => exact ⟨_, _, .cancel⟩
  | status => exact ⟨_, _, .status⟩

/-- A run that is made here and left alone is what the interpreter makes by itself. -/
theorem Joins.exists_returns_runHere (hjoin : k.Joins act k₁) {answer : Except LifecycleError (Except Breakdown Unit)}
    {i : Interpreter σ} (h : (Interpreter.runHere o fuel).run.run k₁.seen = (answer, i)) :
    ∃ r, Returns act o fuel k (.start false) r (k₁.settle o fuel i) ∧
      r.reply = match answer with | .ok answer => ran answer | .error e => .failed e := by
  rw [Interpreter.runHere_eq] at h
  match hprepare : Interpreter.prepare.run.run k₁.seen with
  | (.error e, j) =>
    rw [Interpreter.run_bind_error hprepare] at h
    obtain ⟨rfl, rfl⟩ := Prod.mk.inj h
    exact ⟨_, .notBegun hjoin hprepare, rfl⟩
  | (.ok r, j) =>
    obtain ⟨n, s, hplay, hs⟩ := Run.exists_play_worker act o fuel r
    obtain ⟨a, j', hback⟩ := exists_handBack (r.execute o fuel).1 { j with world := s.world }
    rw [Interpreter.run_bind hprepare] at h
    have hback' : (Interpreter.handBack (r.execute o fuel).1).run.run { j with world := s.world } = (answer, i) :=
      hs ▸ h
    obtain ⟨rfl, rfl⟩ := Prod.mk.inj (hback.symm.trans hback')
    exact ⟨_, .here _ hjoin hprepare hplay hback, rfl⟩

/-- A stop returns once the thread has left. -/
theorem returns_stop {k₂ : Station σ} {r : Run σ} {noticed : Bool} (ms : List (Move ι)) (hsome : k.held ≠ none)
    (hrequests : k.Requests act k₁) (hplay : k₁.play act ms = k₂) (hgone : k₂.held = some ⟨r, .gone e, noticed⟩) :
    Returns act o fuel k .stop ⟨.of .summary (k₂.desk.stopped k₁.world.clock e).1, none, [e]⟩
      ⟨{ (k₂.desk.stopped k₁.world.clock e).2 with worker := k₂.desk.worker }, none, k₂.threads⟩ := by
  subst hplay
  have hreturns {answer : Except LifecycleError Summary} {i : Interpreter σ}
      (h : (Interpreter.finishStop k₁.world.clock).run.run (k₁.play act ms).seen = (answer, i)) :
      Returns act o fuel k .stop ⟨.of .summary answer, none, _⟩ ((k₁.play act ms).settle o fuel i) :=
    .stop ms hsome hrequests ⟨_, hgone, rfl⟩ h
  rw [seen_of_gone hgone, Interpreter.run_finishStop, ended_of_gone hgone] at hreturns
  rw [← settle_absent (Interpreter.worker_stopped ..)]
  exact hreturns rfl

/-- A stop of a worker that has not begun its run, and is then left alone, is what the interpreter makes by itself. -/
theorem exists_returns_stop {r : Run σ} (hd : k.held = some ⟨r, .ofRun o fuel r, false⟩)
    {answer : Except LifecycleError Summary} {i : Interpreter σ}
    (h : (Interpreter.stop o fuel).run.run k.seen = (answer, i)) :
    ∃ r' k', Returns act o fuel k .stop r' k' ∧ r'.reply = .of .summary answer ∧ k'.held = none ∧
      k'.desk = { i with worker := k.desk.worker } := by
  obtain ⟨desk, held, past⟩ := k
  obtain rfl : held = some ⟨r, .ofRun o fuel r, false⟩ := hd
  let w := desk.world.requestStop
  let e := (Run.execute o fuel (r.inWorld w)).1
  let desk' : Interpreter σ := { desk with world := (Run.execute o fuel (r.inWorld w)).2 }
  have hstop : (Interpreter.stop o fuel).run.run (Station.seen ⟨desk, some ⟨r, .ofRun o fuel r, false⟩, past⟩) =
      desk'.stopped desk.world.clock e :=
    Interpreter.run_finishStop desk.world.clock e desk'
  obtain ⟨rfl, rfl⟩ := Prod.mk.inj (hstop.symm.trans h)
  have hplay : ∃ n, Station.play act ⟨{ desk with world := w }, some ⟨r, .ofRun o fuel r, false⟩, past⟩
      (List.replicate n .work) = ⟨desk', some ⟨r, .gone e, false⟩, past⟩ := by
    unfold desk' e
    rw [Run.alone_working o fuel (r.inWorld w)]
    exact exists_play_working act { desk with world := w } r (r.working o fuel) r.scene.sandbox false past
  obtain ⟨n, hn⟩ := hplay
  exact ⟨_, _, returns_stop (List.replicate n .work) nofun ⟨[], rfl⟩ hn rfl, rfl, rfl, rfl⟩

end Station
end ArmPilot
