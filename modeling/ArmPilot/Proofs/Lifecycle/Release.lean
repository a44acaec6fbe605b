import ArmPilot.Proofs.Lifecycle.Effects

/-!
# The release of the machines

A call that collects a worker lets the machines work again, so that they may be used between runs.  There is one
exception: a load or a start that finds that the worker has broken down leaves camera and arm as they are, and they stay
inert if a stop was requested (`Station.Returns.flag_of_taken`).
-/

namespace ArmPilot

variable {σ ι : Type} {flag : World σ → Bool}

/-- A flag of the devices is down when camera and arm are at work. -/
theorem World.OfDevices.down (hflag : World.OfDevices flag) {w : World σ} (hvision : w.visionExiting = false)
    (harm : w.armInert = false) : flag w = false :=
  (hflag.only w (w.setExiting false) hvision harm).trans (hflag.cleared w)

namespace Station

variable {act : ι → World σ → World σ} {o : Outside σ} {fuel : Nat} {k k₀ k' : Station σ} {d : Held σ} {c : Call}
  {r : Outcome σ}

/-- A station that has let go of a worker which has finished its run has cleared the flags of the devices. -/
theorem Freed.flag_eq (hflag : World.OfDevices flag) {ends : List (Ending σ)} (h : k.Freed k₀ ends)
    (hd : k.held = some d) : flag k₀.world = false := by
  cases h with
  | idle hnone => simp [hnone] at hd
  | collected => exact hflag.down rfl rfl

theorem Freed.exists_left {ends : List (Ending σ)} (h : k.Freed k₀ ends) (hd : k.held = some d) :
    ∃ k₁, k.Leads k₁ ∧ k₁.Left := by
  cases h with
  | idle hnone => simp [hnone] at hd
  | collected hleads _ _ hgone => exact ⟨_, hleads, _, hgone, rfl⟩

/-- **When a call has taken a worker and leaves none, camera and arm may work again, unless it is a load or a start that
finds that the worker has broken down**: then they are left as they were when its thread had left. -/
theorem Returns.flag_of_taken (hflag : World.OfDevices flag) (hc : c = .stop ∨ c.refusal.isSome = true)
    (h : Returns act o fuel k c r k') (hheld : k.held ≠ none) (hidle : k'.held = none)
    (hreply : ∀ b, r.reply ≠ .broken b) :
    ∃ k₁, k.Leads k₁ ∧ k₁.Left ∧
      (flag k'.world = true ↔ c ≠ .stop ∧ r.reply = .failed .workerPanicked ∧ flag k₁.world = true) := by
  obtain ⟨d, hd⟩ := Option.ne_none_iff_exists'.1 hheld
  -- the flags are down when the worker was collected, and the call leaves them so
  have hcollected {k₀ : Station σ} {ends : List (Ending σ)} (h₀ : k.Freed k₀ ends)
      (hkept : flag k₀.world = false → flag k'.world = false) {P : Station σ → Prop} (hP : ∀ k₁, ¬P k₁) :
      ∃ k₁, k.Leads k₁ ∧ k₁.Left ∧ (flag k'.world = true ↔ P k₁) := by
    obtain ⟨k₁, hleads, hleft⟩ := h₀.exists_left hd
    have hdown : flag k'.world = false := hkept (h₀.flag_eq hflag hd)
    exact ⟨k₁, hleads, hleft, iff_of_false (by simp [hdown]) (hP k₁)⟩
  cases h.effect hc with
  | refused => exact absurd hidle hheld
  | @broken _ text k₁ d e hc' hleads _ _ _ hgone =>
    refine ⟨k₁, hleads, ⟨_, hgone, rfl⟩, ?_⟩
    have hne : c ≠ .stop := by
      rintro rfl
      cases hc'
    have hkept : flag (k₁.desk.complaining Interpreter.brokenDown).world = flag k₁.world := hflag.only _ _ rfl rfl
    exact ⟨fun hup => ⟨hne, rfl, hkept ▸ hup⟩, fun h => hkept.trans h.2.2⟩
  | @loaded k₀ ends s h₀ =>
    have hkept : flag (k₀.desk.loaded s).world = flag k₀.world := hflag.only _ _ rfl rfl
    exact hcollected h₀ hkept.trans fun _ h => by cases h.2.1
  | hired => cases hidle
  | roomless h₀ => exact hcollected h₀ (fun _ => hflag.down rfl rfl) fun _ h => by cases h.2.1
  | ranHere ms h₀ => exact hcollected h₀ (fun _ => hflag.down rfl rfl) fun _ h => by cases h.2.1
  | brokeHere => exact absurd rfl (hreply _)
  | notStopped hnone => exact absurd hnone hheld
  | @stopped k₁ d e requested hleads _ hgone =>
    have hdown : flag (k₁.desk.stopped requested e).2.world = false := by
      cases e with
      | finished => exact hflag.down rfl rfl
      | broken | unfinished => exact hflag.down rfl rfl
    exact ⟨k₁, hleads, ⟨_, hgone, rfl⟩, iff_of_false (by rintro hup; cases hdown.symm.trans hup) fun h => h.1 rfl⟩

/-- A kind of events whose triggers break down. -/
def faulty : Event.Factory σ := fun _ => .ok (.sound (Event.regular fun _ => throw (.told "no answer")))

def faultyScript : Script := ⟨[⟨"FaultyEvent", [], []⟩]⟩

theorem History.play {k₀ k : Station σ} {past : List (Call × Outcome σ)} (h : History act o fuel k₀ past k)
    (ms : List (Move ι)) : History act o fuel k₀ past (k.play act ms) := by
  induction ms generalizing k with
  | nil => exact h
  | cons m ms ih => exact ih (h.move m)

/-- The hypotheses of `Returns.flag_of_taken` are satisfiable, and a worker may break down: a stop is requested behind its
end, and the next load leaves the arm inert. -/
theorem Returns.flag_of_taken_faultyScript :
    let act : Plea → World Unit → World Unit := Plea.act
    let o := Outside.nobody Unit
    let k₀ : Station Unit := create Config.default ⟨[], [("FaultyEvent", faulty)]⟩ (World.initial ())
    ∃ past k r k', History act o 1 k₀ past k ∧ Returns act o 1 k (.load faultyScript) r k' ∧ k.held ≠ none ∧
      k'.held = none ∧ r.reply = .failed .workerPanicked ∧ k'.world.armInert = true ∧
      ∃ k₁, k.Leads k₁ ∧ k₁.Left ∧
        (k'.world.armInert = true ↔
          Call.load faultyScript ≠ .stop ∧ r.reply = .failed .workerPanicked ∧ k₁.world.armInert = true) := by
  intro act o k₀
  let k₁ : Station Unit := ⟨k₀.desk.loaded faultyScript, none, []⟩
  have hload : Returns act o 1 k₀ (.load faultyScript) _ k₁ := (replaces_of_none rfl).returns_load (joins_of_none rfl) _
  have hstart : Returns act o 1 k₁ (.start true) _ _ := (replaces_of_none rfl).returns_start (joins_of_none rfl) rfl
  let q := (k₁.next.working o 1).alone ⟨k₁.next.scene.sandbox, k₁.desk.readied.world⟩
  have hbroken : q.1.isFinished = false := by decide +kernel
  let k₂ : Station Unit := ⟨{ k₁.desk.readied with world := q.2.world }, some ⟨k₁.next, .gone q.1, false⟩, []⟩
  have hplay : ∃ n, Station.play act ⟨k₁.desk.readied, some ⟨k₁.next, .ofRun o 1 k₁.next, false⟩, []⟩
      (List.replicate n .work) = k₂ :=
    exists_play_working act k₁.desk.readied k₁.next (k₁.next.working o 1) k₁.next.scene.sandbox false []
  obtain ⟨n, hn⟩ := hplay
  have hhistory := ((History.start.call hload).call hstart).play (List.replicate n .work)
  rw [hn] at hhistory
  let k₃ : Station Unit := (k₂.onWorld Plea.raise.act).onWorld Plea.cancel.act
  have hrequest : Returns act o 1 k₂ .requestStop _ k₃ := .requestStop ⟨[], rfl⟩
  have hreload : Returns act o 1 k₃ (.load faultyScript) _ _ :=
    returns_load_of_broken rfl hbroken (.left [] ⟨_, rfl, q.1, rfl⟩ ⟨_, rfl, rfl⟩) faultyScript
  exact ⟨_, k₃, _, _, hhistory.call hrequest, hreload, nofun, rfl, rfl, rfl,
    hreload.flag_of_taken World.ofDevices_armInert (.inr rfl) nofun rfl nofun⟩

end Station
end ArmPilot
