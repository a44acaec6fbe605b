import ArmPilot.Proofs.Lifecycle.Effects

/-!
# The discipline of an interpreter

However calls, the steps of a worker and the acts of others follow each other, an interpreter runs one script at most, and
a call that does not fit is refused without harm (`Station.History.disciplined`).  What it lets go of has left before
(`Station.Sound`).
-/

namespace ArmPilot

variable {σ ι : Type}

namespace Station

variable {act : ι → World σ → World σ} {o : Outside σ} {fuel : Nat} {k k₀ k₁ k' : Station σ} {d : Held σ} {e : Ending σ}
  {c : Call} {r : Outcome σ}

/-! ## What holds at every moment -/

/-- Whether all threads have left that a station does not hold, and the worker that it holds has told what was noticed
of it. -/
structure Sound (k : Station σ) : Prop where
  past : ∀ t ∈ k.past, t.isGone = true
  noticed : ∀ d ∈ k.held, d.noticed = true → ∃ e, d.thread.end? = some e

theorem sound_of_none {i : Interpreter σ} {past : List (Thread σ)} (h : ∀ t ∈ past, t.isGone = true) :
    Sound ⟨i, none, past⟩ :=
  ⟨h, fun _ hd => by cases hd⟩

theorem Sound.of_leads (hk : k.Sound) (h : k.Leads k₁) : k₁.Sound := by
  refine ⟨h.past ▸ hk.past, fun d' hd' hnoticed => ?_⟩
  cases hd : k.held with
  | none => simp [h.idle hd] at hd'
  | some d =>
    obtain ⟨t, ht, hk₁⟩ := h.thread d hd
    obtain rfl := Option.some.inj (hd'.symm.trans hk₁)
    obtain ⟨e, he⟩ := hk.noticed d hd hnoticed
    exact ⟨e, ht.told e he⟩

/-- No thread is left behind when the one that is held has left. -/
theorem Sound.threads_gone (hk : k.Sound) (h : k.Leads k₁) (hgone : k₁.held = some { d with thread := .gone e }) :
    ∀ t ∈ k₁.threads, t.isGone = true := by
  intro t ht
  unfold threads at ht
  rw [hgone, h.past] at ht
  rcases List.mem_cons.1 ht with rfl | ht
  · rfl
  · exact hk.past t ht

theorem Sound.freed {ends : List (Ending σ)} (hk : k.Sound) (h : k.Freed k₀ ends) : k₀.Sound := by
  cases h with
  | idle => exact hk
  | collected hleads _ _ hgone => exact sound_of_none (hk.threads_gone hleads hgone)

theorem Sound.effect (hk : k.Sound) (h : Effect act o fuel k c r k') : k'.Sound := by
  cases h with
  | refused => exact hk.of_leads (leads_onWorld _ k)
  | broken _ hleads _ _ _ hgone => exact sound_of_none (hk.threads_gone hleads hgone)
  | loaded _ hfreed | roomless hfreed | ranHere _ hfreed | brokeHere _ hfreed =>
    exact sound_of_none (hk.freed hfreed).past
  | hired hfreed => exact ⟨(hk.freed hfreed).past, fun d hd hnoticed => by obtain rfl := Option.some.inj hd; cases hnoticed⟩
  | notStopped => exact hk
  | stopped _ hleads _ hgone => exact sound_of_none (hk.threads_gone hleads hgone)

theorem Sound.returns (hk : k.Sound) (h : Returns act o fuel k c r k') : k'.Sound := by
  by_cases hc : c = .stop ∨ c.refusal.isSome = true
  · exact hk.effect (h.effect hc)
  cases h with
  | load | start | notBegun | here | notStopped | stop => simp [Call.refusal] at hc
  | idle => exact hk
  | @wait forever ms d hd =>
    have hplay := hk.of_leads (leads_play act k ms)
    refine ⟨hplay.past, fun d' hd' hnoticed => ?_⟩
    obtain rfl := Option.some.inj hd'
    rcases Bool.or_eq_true_iff.1 hnoticed with hnoticed | hend
    · exact hplay.noticed d hd hnoticed
    · exact Option.isSome_iff_exists.1 hend
  | requestStop hrequests => exact hk.of_leads hrequests.leads
  | cancel => exact hk.of_leads (leads_onWorld _ k)
  | status => exact hk

/-- **At every moment all threads have left but the one that is held.** -/
theorem History.sound {conf : Config} {reg : Registry σ} {w : World σ} {past : List (Call × Outcome σ)}
    (h : History act o fuel (create conf reg w) past k) : k.Sound := by
  induction h with
  | start => exact sound_of_none nofun
  | move m _ ih => exact ih.of_leads (leads_play act _ [m])
  | call _ hreturns ih => exact ih.returns hreturns

/-! ## What calls promise -/

/-- What a stop leaves that has found a worker. -/
structure Stopped (r : Outcome σ) (k : Station σ) : Prop where
  absent : k.held = none
  arm : k.world.armInert = false
  vision : k.world.visionExiting = false
  events : k.desk.events = []
  board : k.world.board = []
  status : k.seen.status = .notRunning
  /-- The summary of the run is returned and kept, unless the run has broken down. -/
  reply : ∃ e, r.collected = [e] ∧
    match e with
    | .finished _ summary => r.reply = .summary summary ∧ k.desk.last = some summary
    | .broken _ | .unfinished => r.reply = .failed .workerPanicked

/-- What an interpreter promises at a moment, whatever its worker has come to. -/
structure Disciplined (act : ι → World σ → World σ) (o : Outside σ) (fuel : Nat) (k : Station σ) : Prop where
  /-- At most one thread has not left. -/
  single : (k.threads.filter fun t => !t.isGone).length ≤ 1
  /-- A worker is running from its start until its end, which is noticed when its thread has left at the latest. -/
  working : ∀ d ∈ k.held, d.thread.end? = none → k.Busy
  left : k.Left → ¬k.Busy
  returns : ∀ c, ∃ r k', Returns act o fuel k c r k'
  status : ∀ r k', Returns act o fuel k .status r k' →
    k' = k ∧ ∃ s, r.reply = .status s ∧ s = k.seen.status ∧ (s.isRunning = true ↔ k.Busy)
  /-- A script is loaded or started unless a worker is running. -/
  refused : ∀ c text r k', c.refusal = some text → Returns act o fuel k c r k' →
    (r.reply = .failed .alreadyRunning ↔ k.Busy)
  /-- What is refused leaves everything as it is, but for a record in the log. -/
  harmless : ∀ c text r k', c.refusal = some text → Returns act o fuel k c r k' → k.Busy →
    k' = k.onWorld (·.note .error Run.target text) ∧ r.run = none ∧ r.collected = []
  notStopped : ∀ r k', Returns act o fuel k .stop r k' →
    (r.reply = .failed .notRunning ↔ k.held = none) ∧ (k.held = none → k' = k)
  stopped : ∀ r k', Returns act o fuel k .stop r k' → k.held ≠ none → Stopped r k'
  /-- What was waited for stays so. -/
  waited : ∀ forever r k', Returns act o fuel k (.wait forever) r k' →
    ∃ b, r.reply = .ended b ∧ (forever = true → b = true) ∧
      (b = true → ∀ ms, (k'.play act ms).seen.status = .notRunning)

theorem isRunning_status (k : Station σ) : k.seen.status.isRunning = true ↔ k.Busy := by
  rw [busy_iff_isRunning]
  unfold Interpreter.status
  split <;> simp [RunStatus.isRunning, *]

theorem status_of_not_busy (h : ¬k.Busy) : k.seen.status = .notRunning := by
  rw [busy_iff_isRunning] at h
  exact if_neg h

theorem status_of_none (h : k.held = none) : k.seen.status = .notRunning := status_of_not_busy (not_busy_of_none h)

/-- A worker whose end was noticed is not running, however things go on. -/
theorem Leads.not_busy (hk : k.Sound) (h : k.Leads k₁) (hd : k.held = some d) (hnoticed : d.noticed = true) :
    ¬k₁.Busy := by
  rintro ⟨d', hd', he'⟩
  obtain ⟨e, he⟩ := hk.noticed d hd hnoticed
  obtain ⟨t, ht, hk₁⟩ := h.thread d hd
  obtain rfl := Option.some.inj (hd'.symm.trans hk₁)
  simp [Held.ending?, hnoticed, ht.told e he] at he'

theorem not_busy_of_ending? (hd : k.held = some d) (he : d.ending? = some e) : ¬k.Busy := by
  rintro ⟨d', hd', he'⟩
  obtain rfl := Option.some.inj (hd'.symm.trans hd)
  simp [he] at he'

theorem Freed.not_busy {ends : List (Ending σ)} (h : k.Freed k₀ ends) : ¬k.Busy := by
  cases h with
  | idle hnone => exact not_busy_of_none hnone
  | collected _ hd he => exact not_busy_of_ending? hd he

theorem Effect.alreadyRunning_iff {text : String} (hc : c.refusal = some text) (h : Effect act o fuel k c r k') :
    r.reply = .failed .alreadyRunning ↔ k.Busy := by
  cases h with
  | refused hbusy => exact iff_of_true rfl hbusy
  | broken _ _ hd he => exact iff_of_false nofun (not_busy_of_ending? hd he)
  | loaded _ hfreed | hired hfreed | roomless hfreed | ranHere _ hfreed | brokeHere _ hfreed =>
    exact iff_of_false nofun hfreed.not_busy
  | notStopped | stopped => cases hc

theorem Effect.eq_of_busy {text : String} (hc : c.refusal = some text) (hbusy : k.Busy)
    (h : Effect act o fuel k c r k') :
    k' = k.onWorld (·.note .error Run.target text) ∧ r.run = none ∧ r.collected = [] := by
  cases h with
  | refused _ hc' =>
    obtain rfl := Option.some.inj (hc.symm.trans hc')
    exact ⟨rfl, rfl, rfl⟩
  | broken _ _ hd he => exact absurd hbusy (not_busy_of_ending? hd he)
  | loaded _ hfreed | hired hfreed | roomless hfreed | ranHere _ hfreed | brokeHere _ hfreed =>
    exact absurd hbusy hfreed.not_busy
  | notStopped | stopped => cases hc

/-- A stop finds no worker, or ends it. -/
theorem Effect.stop_cases (h : Effect act o fuel k .stop r k') :
    (k.held = none ∧ r.reply = .failed .notRunning ∧ k' = k) ∨
      (k.held ≠ none ∧ r.reply ≠ .failed .notRunning ∧ Stopped r k') := by
  cases h with
  | refused _ hc | broken hc => cases hc
  | notStopped hnone => exact .inl ⟨hnone, rfl, rfl⟩
  | @stopped k₁ d e requested hleads hd hgone =>
    refine .inr ⟨by simp [hd], ?_⟩
    cases e with
    | finished events summary =>
      exact ⟨nofun, rfl, rfl, rfl, rfl, rfl, status_of_none rfl, _, rfl, rfl, rfl⟩
    | broken | unfinished =>
      exact ⟨nofun, rfl, rfl, rfl, rfl, rfl, status_of_none rfl, _, rfl, rfl⟩

/-- What was waited for is noticed. -/
theorem Sound.waited (hk : k.Sound) {forever : Bool} (h : Returns act o fuel k (.wait forever) r k') :
    ∃ b, r.reply = .ended b ∧ (forever = true → b = true) ∧
      (b = true → ∀ ms, (k'.play act ms).seen.status = .notRunning) := by
  have hk' : k'.Sound := hk.returns h
  cases h with
  | idle _ hnone =>
    exact ⟨true, rfl, fun _ => rfl, fun _ ms => status_of_none ((leads_play act k ms).idle hnone)⟩
  | @wait _ ms d hd hforever =>
    refine ⟨d.told, rfl, hforever, fun htold ms' => status_of_not_busy ?_⟩
    exact (leads_play act _ ms').not_busy hk' rfl htold

/-- At most one thread of a station has not left. -/
theorem Sound.single (hk : k.Sound) : (k.threads.filter fun t => !t.isGone).length ≤ 1 := by
  have hpast : k.past.filter (fun t => !t.isGone) = [] := by
    rw [List.filter_eq_nil_iff]
    intro t ht
    simp [hk.past t ht]
  unfold threads
  rw [List.filter_append, hpast, List.append_nil]
  refine (List.length_filter_le ..).trans ?_
  cases k.held <;> simp

/-- **An interpreter runs one script at most, and refuses without harm what does not fit**, in whatever order calls, the
steps of workers and the acts of others follow each other. -/
theorem History.disciplined {conf : Config} {reg : Registry σ} {w : World σ} {past : List (Call × Outcome σ)}
    (h : History act o fuel (create conf reg w) past k) : Disciplined act o fuel k where
  single := h.sound.single
  working d hd hworking := by
    refine ⟨d, hd, ?_⟩
    unfold Held.ending?
    split
    · exact hworking
    · rfl
  left := by
    rintro ⟨d, hd, hgone⟩
    cases ht : d.thread with
    | working | leaving => simp [ht, Thread.isGone] at hgone
    | gone e =>
      have he : d.ending? = some e := by simp [Held.ending?, ht, Thread.isGone, Thread.end?]
      exact not_busy_of_ending? hd he
  returns := exists_returns act o fuel k
  status r k' hreturns := by
    cases hreturns
    exact ⟨rfl, _, rfl, rfl, k.isRunning_status⟩
  refused c text r k' hc hreturns := (hreturns.effect (.inr (hc ▸ rfl))).alreadyRunning_iff hc
  harmless c text r k' hc hreturns hbusy := (hreturns.effect (.inr (hc ▸ rfl))).eq_of_busy hc hbusy
  notStopped r k' hreturns := by
    rcases (hreturns.effect (.inl rfl)).stop_cases with ⟨hnone, hreply, hk⟩ | ⟨hsome, hreply, -⟩
    · exact ⟨iff_of_true hreply hnone, fun _ => hk⟩
    · exact ⟨iff_of_false hreply hsome, fun hnone => absurd hnone hsome⟩
  stopped r k' hreturns hsome := by
    rcases (hreturns.effect (.inl rfl)).stop_cases with ⟨hnone, -⟩ | ⟨-, -, hstopped⟩
    · exact absurd hnone hsome
    · exact hstopped
  waited forever r k' hreturns := h.sound.waited hreturns

/-- The hypotheses of `History.disciplined` are satisfiable: a worker may have begun a run of a script. -/
theorem History.disciplined_endingScript :
    let act : Plea → World Unit → World Unit := Plea.act
    let o := Outside.nobody Unit
    ∃ past k, History act o 2 (create Config.default (Registry.builtin o) (World.initial ())) past k ∧
      past.length = 2 ∧ k.Busy ∧ Disciplined act o 2 k := by
  intro act o
  let k₀ := create Config.default (Registry.builtin o) (World.initial ())
  have hload : Returns act o 2 k₀ (.load Interpreter.endingScript) _ _ :=
    (replaces_of_none rfl).returns_load (joins_of_none rfl) Interpreter.endingScript
  have hstart : Returns act o 2 ⟨k₀.desk.loaded Interpreter.endingScript, none, []⟩ (.start true) _ _ :=
    (replaces_of_none rfl).returns_start (joins_of_none rfl) rfl
  have hhistory := ((History.start.call hload).call hstart).move .work
  exact ⟨_, _, hhistory, rfl, ⟨_, rfl, rfl⟩, hhistory.disciplined⟩

end Station
end ArmPilot
