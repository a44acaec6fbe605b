import ArmPilot.Proofs.Lifecycle.Effects
import ArmPilot.Proofs.Worker.Keeping

/-!
# The stock of events

The events of a script are loaded, handed over to a run, handed back at its end and kept for the next.  Through all calls
they are neither lost nor doubled: a start hands over the events that were loaded last, or none at all if a worker was
stopped or a run has broken down since (`Station.History.hands_over`).
-/

namespace ArmPilot

variable {σ ι : Type}

/-- The script that a call has loaded. -/
def loaded? : Call × Outcome σ → Option Script
  | (.load s, ⟨.report _, _, _⟩) => some s
  | _ => none

/-- Whether a call has stopped a worker or has learnt that a run has broken down. -/
def spoils (p : Call × Outcome σ) : Bool :=
  (match p.1 with
   | .stop => !p.2.collected.isEmpty
   | _ => false) || p.2.collected.any (!·.isFinished)

/-- The events that were made available by calls.  They may be those of a script that was loaded, but for what they
remember, or just as it was loaded if no run has begun since; or none at all. -/
structure Available (reg : Registry σ) (past : List (Call × Outcome σ)) (es : List (Event σ)) : Prop where
  loaded : ∀ before p since s, past = before ++ p :: since → loaded? p = some s →
    (∀ q ∈ since, loaded? q = none ∧ spoils q = false) →
      es.map Event.forget = (load reg s).events.map Event.forget ∧
        ((∀ q ∈ since, q.2.run = none) → es = (load reg s).events)
  spoilt : ∀ before p since, past = before ++ p :: since → spoils p = true →
    (∀ q ∈ p :: since, loaded? q = none) → es = []
  unloaded : (∀ q ∈ past, loaded? q = none) → es = []

/-! ## The stock -/

/-- What calls have made available. -/
structure Stock (σ : Type) where
  events : List (Event σ)
  /-- Whether no run of the events has begun. -/
  fresh : Bool

namespace Stock

/-- The stock behind a call. -/
def after (reg : Registry σ) (st : Stock σ) (p : Call × Outcome σ) : Stock σ :=
  match loaded? p with
  | some s => ⟨(load reg s).events, true⟩
  | none => if spoils p then ⟨[], st.fresh⟩ else ⟨st.events, st.fresh && p.2.run.isNone⟩

/-- The stock behind calls. -/
def behind (reg : Registry σ) (past : List (Call × Outcome σ)) : Stock σ := past.foldl (after reg) ⟨[], true⟩

variable {reg : Registry σ} {st : Stock σ} {p : Call × Outcome σ} {past since : List (Call × Outcome σ)}

theorem after_of_loaded {s : Script} (h : loaded? p = some s) : st.after reg p = ⟨(load reg s).events, true⟩ := by
  unfold after
  rw [h]

theorem after_of_spoils (hl : loaded? p = none) (hs : spoils p = true) : st.after reg p = ⟨[], st.fresh⟩ := by
  unfold after
  rw [hl, hs]
  rfl

theorem after_of_spares (hl : loaded? p = none) (hs : spoils p = false) :
    st.after reg p = ⟨st.events, st.fresh && p.2.run.isNone⟩ := by
  unfold after
  rw [hl, hs]
  rfl

/-- Calls that do not load and spoil nothing leave the events. -/
theorem foldl_spares (reg : Registry σ) (st : Stock σ) (h : ∀ q ∈ since, loaded? q = none ∧ spoils q = false) :
    (since.foldl (after reg) st).events = st.events ∧
      ((∀ q ∈ since, q.2.run = none) → (since.foldl (after reg) st).fresh = st.fresh) := by
  induction since generalizing st with
  | nil => exact ⟨rfl, fun _ => rfl⟩
  | cons p since ih =>
    obtain ⟨⟨hl, hs⟩, hrest⟩ := List.forall_mem_cons.1 h
    obtain ⟨hevents, hfresh⟩ := ih (st.after reg p) hrest
    rw [after_of_spares hl hs] at hevents hfresh
    rw [List.foldl_cons, after_of_spares hl hs]
    refine ⟨hevents, fun hrun => ?_⟩
    obtain ⟨hp, hrun⟩ := List.forall_mem_cons.1 hrun
    rw [hfresh hrun]
    simp [hp]

/-- Calls that do not load find nothing where nothing is left. -/
theorem foldl_empty (h : ∀ q ∈ since, loaded? q = none) (hst : st.events = []) :
    (since.foldl (after reg) st).events = [] := by
  induction since generalizing st with
  | nil => exact hst
  | cons p since ih =>
    obtain ⟨hl, hrest⟩ := List.forall_mem_cons.1 h
    refine ih hrest ?_
    cases hs : spoils p with
    | true => rw [after_of_spoils hl hs]
    | false => rw [after_of_spares hl hs, hst]

theorem available {es : List (Event σ)} (halike : es.map Event.forget = (behind reg past).events.map Event.forget)
    (hfresh : (behind reg past).fresh = true → es = (behind reg past).events) : Available reg past es where
  loaded before p since s hpast hp hsince := by
    obtain ⟨hevents, hfresh'⟩ := foldl_spares reg ((behind reg before).after reg p) hsince
    have hbehind : behind reg past = since.foldl (after reg) ((behind reg before).after reg p) := by
      rw [hpast, behind, List.foldl_append]
      rfl
    rw [← hbehind, after_of_loaded hp] at hevents hfresh'
    rw [hevents] at halike hfresh
    exact ⟨halike, fun hrun => hfresh (hfresh' hrun)⟩
  spoilt before p since hpast hp hsince := by
    obtain ⟨hl, hrest⟩ := List.forall_mem_cons.1 hsince
    have hempty : (behind reg past).events = [] := by
      rw [hpast, behind, List.foldl_append, List.foldl_cons, after_of_spoils hl hp]
      exact foldl_empty hrest rfl
    rw [hempty] at halike
    exact List.map_eq_nil_iff.1 halike
  unloaded hpast := by
    have hnone : (behind reg past).events = [] := foldl_empty hpast rfl
    rw [hnone] at halike
    exact List.map_eq_nil_iff.1 halike

end Stock

namespace Station

variable {act : ι → World σ → World σ} {o : Outside σ} {fuel : Nat} {reg : Registry σ} {st : Stock σ}
  {k k₀ k₁ k' : Station σ} {d : Held σ} {e : Ending σ} {c : Call} {r : Outcome σ} {ends : List (Ending σ)}

/-- The events that are loaded, or with which the run of the worker that is held has begun. -/
def kept (k : Station σ) : List (Event σ) :=
  match k.held with
  | none => k.desk.events
  | some d => d.run.events

/-- Whether a run hands back the events that it was given, in case of this end. -/
def HandsBack (r : Run σ) (e : Ending σ) : Prop :=
  ∀ events summary, e = .finished events summary → events.map Event.forget = r.events.map Event.forget

/-- Whether a station keeps a stock of events. -/
structure Stocked (reg : Registry σ) (st : Stock σ) (k : Station σ) : Prop where
  registry : k.desk.registry = reg
  alike : k.kept.map Event.forget = st.events.map Event.forget
  fresh : st.fresh = true → k.held = none ∧ k.kept = st.events
  /-- Nothing is loaded that was handed over. -/
  handedOver : k.held ≠ none → k.desk.events = []
  promises : ∀ d, k.held = some d → d.thread.Promises (HandsBack d.run)

theorem kept_of_none (h : k.held = none) : k.kept = k.desk.events := by
  unfold kept
  rw [h]

theorem kept_of_some (h : k.held = some d) : k.kept = d.run.events := by
  unfold kept
  rw [h]

theorem stocked_of_none {i : Interpreter σ} {past : List (Thread σ)} (hreg : i.registry = reg)
    (halike : i.events.map Event.forget = st.events.map Event.forget) (hfresh : st.fresh = true → i.events = st.events) :
    Stocked reg st ⟨i, none, past⟩ where
  registry := hreg
  alike := halike
  fresh h := ⟨rfl, hfresh h⟩
  handedOver h := absurd rfl h
  promises _ h := by cases h

theorem Leads.kept_eq (h : k.Leads k₁) : k₁.kept = k.kept := by
  cases hd : k.held with
  | none => rw [kept_of_none hd, kept_of_none (h.idle hd), h.desk]
  | some d =>
    obtain ⟨t, -, hk₁⟩ := h.thread d hd
    rw [kept_of_some hd, kept_of_some hk₁]

theorem Stocked.of_leads (hk : Stocked reg st k) (h : k.Leads k₁) : Stocked reg st k₁ where
  registry := by
    rw [h.desk]
    exact hk.registry
  alike := h.kept_eq ▸ hk.alike
  fresh hfresh := ⟨h.idle (hk.fresh hfresh).1, h.kept_eq.trans (hk.fresh hfresh).2⟩
  handedOver hsome := by
    rw [h.desk]
    exact hk.handedOver fun hnone => hsome (h.idle hnone)
  promises d₁ hd₁ := by
    cases hd : k.held with
    | none => simp [h.idle hd] at hd₁
    | some d =>
      obtain ⟨t, ht, hk₁⟩ := h.thread d hd
      obtain rfl := Option.some.inj (hd₁.symm.trans hk₁)
      exact ht.promises _ (hk.promises d hd)

theorem Stocked.listen (hk : Stocked reg st k) (hd : k.held = some d) :
    Stocked reg st { k with held := some d.listen } where
  registry := hk.registry
  alike := by
    have halike := hk.alike
    rw [kept_of_some hd] at halike
    exact halike
  fresh hfresh := by simp [(hk.fresh hfresh).1] at hd
  handedOver _ := hk.handedOver (by simp [hd])
  promises d' hd' := by
    obtain rfl := Option.some.inj hd'
    exact hk.promises d hd

/-- A worker that is collected hands back the stock. -/
theorem Stocked.freed (hk : Stocked reg st k) (h : k.Freed k₀ ends) :
    k₀.desk.registry = reg ∧ k₀.desk.events.map Event.forget = st.events.map Event.forget ∧
      (st.fresh = true → k₀.desk.events = st.events) ∧ ∀ e ∈ ends, e.isFinished = true := by
  cases h with
  | idle hnone =>
    rw [← kept_of_none hnone]
    exact ⟨hk.registry, hk.alike, fun hfresh => (hk.fresh hfresh).2, by simp⟩
  | @collected k₁ d events summary hleads hd he hgone =>
    have hback : HandsBack d.run (.finished events summary) := (hk.of_leads hleads).promises _ hgone
    refine ⟨(hk.of_leads hleads).registry, ?_, fun hfresh => ?_, by simp [Ending.isFinished]⟩
    · rw [← hk.alike, kept_of_some hd]
      exact hback events summary rfl
    · simp [(hk.fresh hfresh).1] at hd

theorem spoils_of_finished {reply : Session.Reply} {run : Option (Run σ)} (hc : c.refusal.isSome = true)
    (h : ∀ e ∈ ends, e.isFinished = true) : spoils (c, (⟨reply, run, ends⟩ : Outcome σ)) = false := by
  have hany : ends.any (!·.isFinished) = false := by
    rw [List.any_eq_false]
    intro e he
    simp [h e he]
  cases c with
  | load | start => exact hany
  | stop | wait | requestStop | cancel | status => cases hc

theorem spoils_of_broken {reply : Session.Reply} {run : Option (Run σ)} (he : e ∈ ends) (hbroken : e.isFinished = false) :
    spoils (c, (⟨reply, run, ends⟩ : Outcome σ)) = true := by
  have hany : ends.any (!·.isFinished) = true := List.any_eq_true.2 ⟨e, he, by simp [hbroken]⟩
  simp [spoils, hany]

theorem loaded?_of_ne {run : Option (Run σ)} {reply : Session.Reply} (h : ∀ report, reply ≠ .report report) :
    loaded? (c, (⟨reply, run, ends⟩ : Outcome σ)) = none := by
  unfold loaded?
  split
  · rename_i heq
    cases heq
    exact absurd rfl (h _)
  · rfl

/-- A call that hands over and collects nothing leaves the stock. -/
theorem after_of_quiet {reply : Session.Reply} (h : ∀ report, reply ≠ .report report) :
    st.after reg (c, (⟨reply, none, []⟩ : Outcome σ)) = st := by
  have hs : spoils (c, (⟨reply, none, []⟩ : Outcome σ)) = false := by cases c <;> rfl
  rw [Stock.after_of_spares (loaded?_of_ne h) hs]
  simp

theorem Stocked.effect (hk : Stocked reg st k) (h : Effect act o fuel k c r k') :
    Stocked reg (st.after reg (c, r)) k' := by
  cases h with
  | refused =>
    rw [after_of_quiet (by simp)]
    exact hk.of_leads (leads_onWorld _ k)
  | @broken _ text k₁ d e hc hleads hd he hbroken hgone =>
    rw [Stock.after_of_spoils (loaded?_of_ne (by simp)) (spoils_of_broken (List.mem_singleton_self e) hbroken)]
    have hempty : k₁.desk.events = [] := (hk.of_leads hleads).handedOver (by simp [hgone])
    refine stocked_of_none (hk.of_leads hleads).registry ?_ fun _ => hempty
    exact congrArg _ hempty
  | @loaded k₀ ends s hfreed =>
    obtain ⟨rfl, -⟩ := hk.freed hfreed
    rw [Stock.after_of_loaded rfl]
    exact stocked_of_none rfl rfl fun _ => rfl
  | @hired k₀ ends hfreed =>
    obtain ⟨hreg, halike, -, hends⟩ := hk.freed hfreed
    rw [Stock.after_of_spares rfl (spoils_of_finished rfl hends)]
    refine ⟨hreg, halike, fun hfresh => ?_, fun _ => rfl, fun d hd => ?_⟩
    · simp at hfresh
    · obtain rfl := Option.some.inj hd
      exact Run.working_gives o fuel k₀.next
  | @roomless k₀ ends hfreed =>
    obtain ⟨hreg, halike, hfresh, hends⟩ := hk.freed hfreed
    rw [Stock.after_of_spares rfl (spoils_of_finished rfl hends)]
    exact stocked_of_none hreg halike fun h => hfresh (by simpa using h)
  | @ranHere k₀ ends events summary ms s hfreed hplay =>
    obtain ⟨hreg, halike, -, hends⟩ := hk.freed hfreed
    have hback : HandsBack k₀.next (.finished events summary) := (Run.working_gives o fuel k₀.next).play hplay
    have hends' : ∀ e ∈ ends ++ [.finished events summary], e.isFinished = true := by
      intro e he
      rcases List.mem_append.1 he with he | he
      · exact hends e he
      · rw [List.mem_singleton.1 he]
        rfl
    rw [Stock.after_of_spares rfl (spoils_of_finished rfl hends')]
    refine stocked_of_none hreg ((hback events summary rfl).trans halike) fun hfresh => ?_
    simp at hfresh
  | @brokeHere k₀ ends e ms s b hfreed hplay hbroken =>
    have hmem : e ∈ ends ++ [e] := List.mem_append_right _ (List.mem_singleton_self e)
    rw [Stock.after_of_spoils rfl (spoils_of_broken hmem hbroken)]
    exact stocked_of_none (hk.freed hfreed).1 rfl fun _ => rfl
  | notStopped hnone =>
    rw [after_of_quiet (by simp)]
    exact hk
  | @stopped k₁ d e requested hleads hd hgone =>
    have hl : loaded? (Call.stop, (⟨.of .summary (k₁.desk.stopped requested e).1, none, [e]⟩ : Outcome σ)) = none := rfl
    rw [Stock.after_of_spoils hl rfl]
    have hreg : (k₁.desk.stopped requested e).2.registry = reg := by
      rw [← (hk.of_leads hleads).registry]
      cases e <;> rfl
    have hempty : (k₁.desk.stopped requested e).2.events = [] := by cases e <;> rfl
    exact stocked_of_none hreg (congrArg _ hempty) fun _ => hempty

theorem Stocked.returns (hk : Stocked reg st k) (h : Returns act o fuel k c r k') :
    Stocked reg (st.after reg (c, r)) k' := by
  by_cases hc : c = .stop ∨ c.refusal.isSome = true
  · exact hk.effect (h.effect hc)
  cases h with
  | load | start | notBegun | here | notStopped | stop => simp [Call.refusal] at hc
  | idle =>
    rw [after_of_quiet (by simp)]
    exact hk
  | @wait forever ms d hd =>
    rw [after_of_quiet (by simp)]
    exact (hk.of_leads (leads_play act k ms)).listen hd
  | requestStop hrequests =>
    rw [after_of_quiet (by simp)]
    exact hk.of_leads hrequests.leads
  | cancel =>
    rw [after_of_quiet (by simp)]
    exact hk.of_leads (leads_onWorld _ k)
  | status =>
    rw [after_of_quiet (by simp)]
    exact hk

theorem History.stocked {conf : Config} {w : World σ} {past : List (Call × Outcome σ)}
    (h : History act o fuel (create conf reg w) past k) : Stocked reg (Stock.behind reg past) k := by
  induction h with
  | start => exact stocked_of_none rfl rfl fun _ => rfl
  | move m _ ih => exact ih.of_leads (leads_play act _ [m])
  | call _ hreturns ih =>
    rw [Stock.behind, List.foldl_concat]
    exact ih.returns hreturns

/-- What a start begins with that holds no worker any more. -/
theorem Stocked.available {past : List (Call × Outcome σ)} (hk : Stocked reg (Stock.behind reg past) k)
    (h : k.Freed k₀ ends) : Available reg past k₀.desk.events :=
  have hfreed := hk.freed h
  Stock.available hfreed.2.1 hfreed.2.2.1

/-- **Through all calls events are neither lost nor doubled.**  What was handed over to a run is not loaded any more.  A
start hands over what the calls before have made available, and if there is no room for a worker, that stays loaded. -/
theorem History.hands_over {conf : Config} {w : World σ} {past : List (Call × Outcome σ)}
    (h : History act o fuel (create conf reg w) past k) :
    (k.held ≠ none → k.desk.events = []) ∧
      ∀ threaded r k', Returns act o fuel k (.start threaded) r k' →
        (r.reply = .done → ∃ run, r.run = some run) ∧
        (∀ run, r.run = some run → Available reg past run.events) ∧
        (r.reply = .failed .spawn → k'.held = none ∧ Available reg past k'.desk.events) := by
  have hk := h.stocked
  refine ⟨hk.handedOver, fun threaded r k' hreturns => ?_⟩
  cases hreturns.effect (.inr rfl) with
  | refused | broken => exact ⟨nofun, nofun, nofun⟩
  | hired hfreed | ranHere _ hfreed =>
    refine ⟨fun _ => ⟨_, rfl⟩, fun run hrun => ?_, nofun⟩
    obtain rfl := Option.some.inj hrun
    exact hk.available hfreed
  | brokeHere _ hfreed =>
    refine ⟨nofun, fun run hrun => ?_, nofun⟩
    obtain rfl := Option.some.inj hrun
    exact hk.available hfreed
  | @roomless k₀ ends hfreed =>
    have havailable : Available reg past k₀.desk.events := hk.available hfreed
    exact ⟨nofun, nofun, fun _ => ⟨rfl, havailable⟩⟩

/-- The hypotheses of `History.hands_over` are satisfiable: a script is loaded, and its events are handed over as they
were loaded. -/
theorem History.hands_over_endingScript :
    let act : Plea → World Unit → World Unit := Plea.act
    let o := Outside.nobody Unit
    let reg := Registry.builtin o
    ∃ past k, History act o 2 (create Config.default reg (World.initial ())) past k ∧ past.length = 1 ∧
      ∃ r k' run, Returns act o 2 k (.start true) r k' ∧ r.run = some run ∧
        run.events = (load reg Interpreter.endingScript).events ∧ run.events ≠ [] := by
  intro act o reg
  let k₀ := create Config.default reg (World.initial ())
  have hload : Returns act o 2 k₀ (.load Interpreter.endingScript) _ _ :=
    (replaces_of_none rfl).returns_load (joins_of_none rfl) Interpreter.endingScript
  have hstart : Returns act o 2 ⟨k₀.desk.loaded Interpreter.endingScript, none, []⟩ (.start true) _ _ :=
    (replaces_of_none rfl).returns_start (joins_of_none rfl) rfl
  have hhistory := History.start.call hload
  obtain ⟨-, havailable, -⟩ := hhistory.hands_over.2 true _ _ hstart
  obtain ⟨-, hevents⟩ := (havailable _ rfl).loaded [] _ [] Interpreter.endingScript rfl rfl (by simp)
  exact ⟨_, _, hhistory, rfl, _, _, _, hstart, rfl, hevents (by simp), by decide +kernel⟩

end Station
end ArmPilot
