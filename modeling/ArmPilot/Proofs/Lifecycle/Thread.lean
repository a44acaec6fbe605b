import ArmPilot.Interpreter.Session
import ArmPilot.Proofs.Worker.Steps

/-!
# The threads of an interpreter

A worker follows its run in a thread.  The thread tells when the run has come to its end, also by a breakdown, and
leaves then.  The interpreter keeps a hold of the thread that it has started last, and takes the worker for ended when
the thread has left, or when it has noticed that the thread told so.  A thread only ever goes on
(`Station.leads_play`), and one that is left alone leaves in the end (`Station.exists_play_left`).
-/

namespace ArmPilot

variable {σ ι : Type}

/-- How far the thread of a worker has come. -/
inductive Thread (σ : Type) where
  /-- It follows its run, in a sandbox of its own. -/
  | working (rest : Routine σ (Ending σ)) (sandbox : Sandbox)
  /-- It has told that the run is over, and has not left. -/
  | leaving (e : Ending σ)
  | gone (e : Ending σ)

namespace Thread

/-- The thread of a worker that is about to begin a run. -/
def ofRun (o : Outside σ) (fuel : Nat) (r : Run σ) : Thread σ := .working (r.working o fuel) r.scene.sandbox

/-- The next step of a thread, and the world behind it. -/
def step (w : World σ) : Thread σ → Thread σ × World σ
  | .working (.done e) _ => (.leaving e, w)
  | .working (.step _ act next) b => (.working (next ⟨b, w⟩) (act ⟨b, w⟩).sandbox, (act ⟨b, w⟩).world)
  | .leaving e | .gone e => (.gone e, w)

/-- Whether a thread has left. -/
def isGone : Thread σ → Bool
  | .gone _ => true
  | .working _ _ | .leaving _ => false

/-- The end of the run, once the thread has told that it is over. -/
def end? : Thread σ → Option (Ending σ)
  | .working _ _ => none
  | .leaving e | .gone e => some e

/-- Whether something holds of the end that the run of a thread comes to, whatever others do meanwhile. -/
def Promises (P : Ending σ → Prop) : Thread σ → Prop
  | .working rest _ => rest.Always fun q => ∀ e, q = .done e → P e
  | .leaving e | .gone e => P e

/-- What is kept when a thread goes on. -/
structure Leads (t t' : Thread σ) : Prop where
  promises : ∀ P, t.Promises P → t'.Promises P
  told : ∀ e, t.end? = some e → t'.end? = some e
  gone : ∀ e, t = .gone e → t' = .gone e

theorem Leads.refl (t : Thread σ) : t.Leads t := ⟨fun _ h => h, fun _ h => h, fun _ h => h⟩

theorem Leads.trans {t t' t'' : Thread σ} (h : t.Leads t') (h' : t'.Leads t'') : t.Leads t'' :=
  ⟨fun P hP => h'.promises P (h.promises P hP), fun e he => h'.told e (h.told e he), fun e he => h'.gone e (h.gone e he)⟩

theorem leads_step (w : World σ) (t : Thread σ) : t.Leads (t.step w).1 := by
  rcases t with ⟨_ | ⟨d, act, next⟩, b⟩ | e | e
  · exact ⟨fun P h => h _ rfl, nofun, nofun⟩
  · exact ⟨fun P h => h.2 _, nofun, nofun⟩
  · exact ⟨fun P h => h, fun _ h => h, nofun⟩
  · exact ⟨fun P h => h, fun _ h => h, fun _ h => h⟩

theorem eq_gone_of_end? {t : Thread σ} {e : Ending σ} (he : t.end? = some e) (hgone : t.isGone = true) : t = .gone e := by
  cases t with
  | working | leaving => cases hgone
  | gone => exact congrArg gone (Option.some.inj he)

end Thread

/-- A worker of which an interpreter keeps a hold. -/
structure Held (σ : Type) where
  /-- The run as it was handed over. -/
  run : Run σ
  thread : Thread σ
  /-- Whether the interpreter has noticed that the run is over. -/
  noticed : Bool

namespace Held

/-- How the run has ended, as far as the interpreter knows. -/
def ending? (h : Held σ) : Option (Ending σ) := if h.noticed || h.thread.isGone then h.thread.end? else none

theorem end?_of_ending? {h : Held σ} {e : Ending σ} (he : h.ending? = some e) : h.thread.end? = some e := by
  unfold ending? at he
  split at he
  · exact he
  · cases he

/-- The worker as the interpreter takes it. -/
def seen (h : Held σ) : Worker σ :=
  match h.ending? with
  | none => .running h.run
  | some e => .atEnd e

/-- Whether the interpreter has been told that the run is over. -/
def told (h : Held σ) : Bool := h.noticed || h.thread.end?.isSome

/-- The worker once the interpreter has listened whether the run is over. -/
def listen (h : Held σ) : Held σ := { h with noticed := h.told }

end Held

/-- An interpreter with the threads that it has started. -/
structure Station (σ : Type) where
  /-- The interpreter, but for its worker. -/
  desk : Interpreter σ
  /-- The worker of which it keeps a hold. -/
  held : Option (Held σ)
  /-- The threads of the workers that it let go of, the latest first. -/
  past : List (Thread σ)

namespace Station

/-- An interpreter that has not been used. -/
def create (c : Config) (r : Registry σ) (w : World σ) : Station σ := ⟨.create c r w, none, []⟩

/-- The interpreter with its worker as it takes it. -/
def seen (k : Station σ) : Interpreter σ :=
  { k.desk with
    worker := match k.held with
      | none => .absent
      | some h => h.seen }

/-- The world of an interpreter. -/
def world (k : Station σ) : World σ := k.desk.world

/-- All threads that an interpreter has started, the latest first. -/
def threads (k : Station σ) : List (Thread σ) := k.held.toList.map Held.thread ++ k.past

/-- Whether a worker is held that is not taken for ended. -/
def Busy (k : Station σ) : Prop := ∃ h ∈ k.held, h.ending? = none

/-- Changes the world. -/
def onWorld (f : World σ → World σ) (k : Station σ) : Station σ :=
  { k with desk := { k.desk with world := f k.desk.world } }

/-- The next step of the thread that is held. -/
def step (k : Station σ) : Station σ :=
  match k.held with
  | none => k
  | some h =>
    let (t, w) := h.thread.step k.world
    { k with desk := { k.desk with world := w }, held := some { h with thread := t } }

variable (act : ι → World σ → World σ)

/-- A move: a step of the thread that is held, or what somebody else does. -/
def move (k : Station σ) : Move ι → Station σ
  | .work => k.step
  | .other i => k.onWorld (act i)

/-- What happens while nothing is asked of the interpreter, or while it waits. -/
def play (k : Station σ) (ms : List (Move ι)) : Station σ := ms.foldl (move act) k

/-- Whether the thread that is held has left. -/
def Left (k : Station σ) : Prop := ∃ h ∈ k.held, h.thread.isGone = true

/-- What is kept while nothing is asked of an interpreter. -/
structure Leads (k k' : Station σ) : Prop where
  desk : k'.desk = { k.desk with world := k'.world }
  past : k'.past = k.past
  idle : k.held = none → k'.held = none
  thread : ∀ h, k.held = some h → ∃ t, h.thread.Leads t ∧ k'.held = some { h with thread := t }

variable {k : Station σ}

theorem Leads.refl (k : Station σ) : k.Leads k := ⟨rfl, rfl, id, fun _ hh => ⟨_, .refl _, hh⟩⟩

theorem Leads.trans {k' k'' : Station σ} (h : k.Leads k') (h' : k'.Leads k'') : k.Leads k'' := by
  refine ⟨?_, h'.past.trans h.past, fun hn => h'.idle (h.idle hn), fun d hd => ?_⟩
  · rw [h'.desk, h.desk]
  · obtain ⟨t, ht, hk'⟩ := h.thread d hd
    obtain ⟨t', ht', hk''⟩ := h'.thread _ hk'
    exact ⟨t', ht.trans ht', hk''⟩

theorem leads_onWorld (f : World σ → World σ) (k : Station σ) : k.Leads (k.onWorld f) :=
  ⟨rfl, rfl, id, fun _ hh => ⟨_, .refl _, hh⟩⟩

theorem leads_step (k : Station σ) : k.Leads k.step := by
  obtain ⟨i, held, past⟩ := k
  cases held with
  | none => exact .refl _
  | some h =>
    refine ⟨rfl, rfl, nofun, fun d hd => ?_⟩
    obtain rfl := Option.some.inj hd
    exact ⟨_, h.thread.leads_step _, rfl⟩

/-- **While nothing is asked of an interpreter, only the world and the thread that it holds go on.** -/
theorem leads_play (k : Station σ) (ms : List (Move ι)) : k.Leads (k.play act ms) := by
  induction ms generalizing k with
  | nil => exact .refl k
  | cons m ms ih =>
    cases m with
    | work => exact (leads_step k).trans (ih k.step)
    | other i => exact (leads_onWorld (act i) k).trans (ih _)

/-- **A thread that is left alone comes to the end of its run**, and leaves. -/
theorem exists_play_working (i : Interpreter σ) (r : Run σ) (p : Routine σ (Ending σ)) (b : Sandbox) (noticed : Bool)
    (past : List (Thread σ)) :
    ∃ n, (Station.mk i (some ⟨r, .working p b, noticed⟩) past).play act (List.replicate n .work) =
      ⟨{ i with world := (p.alone ⟨b, i.world⟩).2.world }, some ⟨r, .gone (p.alone ⟨b, i.world⟩).1, noticed⟩, past⟩ := by
  induction p generalizing i b with
  | done e => exact ⟨2, rfl⟩
  | step d f next ih =>
    obtain ⟨n, hn⟩ := ih ⟨b, i.world⟩ { i with world := (f ⟨b, i.world⟩).world } (f ⟨b, i.world⟩).sandbox
    exact ⟨n + 1, hn⟩

theorem exists_play_left {d : Held σ} (hd : k.held = some d) : ∃ n, (k.play act (List.replicate n .work)).Left := by
  obtain ⟨i, held, past⟩ := k
  obtain rfl : held = some d := hd
  obtain ⟨r, t, noticed⟩ := d
  cases t with
  | working p b =>
    obtain ⟨n, hn⟩ := exists_play_working act i r p b noticed past
    exact ⟨n, hn ▸ ⟨_, rfl, rfl⟩⟩
  | leaving e => exact ⟨1, _, rfl, rfl⟩
  | gone e => exact ⟨0, _, rfl, rfl⟩

end Station
end ArmPilot
