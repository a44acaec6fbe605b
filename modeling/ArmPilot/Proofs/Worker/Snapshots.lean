import ArmPilot.Proofs.Lifecycle.Thread
import ArmPilot.Proofs.Run.Order
import ArmPilot.Proofs.Worker.Account
import ArmPilot.Proofs.Worker.Tied

/-!
# Looks at the board

Others may look at the board of a run at any moment, also while a command waits, and remember what it shows.  At every
moment it shows what the chronicle has of one tick: the events whose commands have been run in the latest tick, each with
the places of these commands, and once the program has ended also the event that is run then.  The chronicle only goes
on, so what is seen later is of the same tick or of a later one, and what has been seen stays as it is (`Run.snapshots`).
-/

namespace ArmPilot

variable {σ α β ι : Type}

/-! ## Looks -/

/-- Whether one world comes from another by nothing but looks at its board, which stays as it is; `seen` is what those
outside remember of the board, the latest look first. -/
structure World.Reads (seen : σ → List Status) (w w' : World σ) : Prop where
  board : w'.board = w.board
  looks : ∃ n, seen w'.outside = List.replicate n w.board ++ seen w.outside

namespace World.Reads

variable {seen : σ → List Status} {w w' w'' : World σ}

theorem of_eq (hboard : w'.board = w.board) (houtside : w'.outside = w.outside) : w.Reads seen w' :=
  ⟨hboard, 0, congrArg seen houtside⟩

theorem trans (h : w.Reads seen w') (h' : w'.Reads seen w'') : w.Reads seen w'' := by
  obtain ⟨n, hn⟩ := h.looks
  obtain ⟨n', hn'⟩ := h'.looks
  refine ⟨h'.board.trans h.board, n' + n, ?_⟩
  rw [hn', hn, h.board, List.replicate_add, List.append_assoc]

end World.Reads

/-- Whether those outside do nothing about the board but look at it. -/
structure Outside.Reads (seen : σ → List Status) (o : Outside σ) : Prop where
  turn : ∀ w : World σ, w.Reads seen (o.turn w)
  asked : ∀ name (w u : World σ), o.asked name w = .ok u → w.Reads seen u

variable {seen : σ → List Status} {o : Outside σ}

/-- A world is tied to itself as long as it comes from another by looks at the board. -/
def Tie.reading (ho : o.Reads seen) (w : World σ) : Tie o where
  holds v v' := v' = v ∧ w.Reads seen v
  machines := by
    rintro _ _ ⟨rfl, -⟩
    rfl
  rebuilt := by
    rintro _ _ ⟨rfl, h⟩ m told
    exact ⟨rfl, h.board, h.looks⟩
  called := by
    rintro _ _ ⟨rfl, h⟩ c
    exact ⟨rfl, h.board, h.looks⟩
  turn := by
    rintro _ _ ⟨rfl, h⟩
    exact ⟨rfl, h.trans (ho.turn _)⟩
  asked := by
    rintro _ v ⟨rfl, h⟩ name
    cases hasked : o.asked name v with
    | error e => rfl
    | ok u => exact ⟨rfl, h.trans (ho.asked _ _ _ hasked)⟩

theorem Behaviour.reads (ho : o.Reads seen) {b : Behaviour σ α} (h : ∀ T : Tie o, b.Tied T) (memory : Nat) (s : Scene σ) :
    s.world.Reads seen ((b.run.run memory).run s).2.world :=
  (h (Tie.reading ho s.world) memory s s ⟨rfl, rfl, .of_eq rfl rfl⟩).2.2.2

theorem Event.Tame.poll_reads {e : Event σ} (he : e.Tame o) (ho : o.Reads seen) (m : Moment) (s : Scene σ) :
    s.world.Reads seen (e.poll m s).2.2.world :=
  Behaviour.reads ho (fun T => he.trigger T m) _ s

theorem Run.runGuarded_reads {c : Command σ} (hc : c.action.Tame o) (ho : o.Reads seen) (m : Moment) (s : Scene σ) :
    s.world.Reads seen (runGuarded m c s).2.2.world := by
  have hreads : s.world.Reads seen (c.run m s).2.2.world := Behaviour.reads ho (fun T => hc T m) _ s
  unfold runGuarded
  split
  · rename_i hrun
    rw [hrun] at hreads
    exact hreads.trans (.of_eq rfl rfl)
  · rename_i hrun
    rw [hrun] at hreads
    exact hreads.trans (.of_eq rfl rfl)

/-- Whether nothing is done in a routine about the board but to look at it. -/
def Routine.Reads (seen : σ → List Status) : Routine σ α → Prop
  | .done _ => True
  | .step _ act next => ∀ s : Scene σ, s.world.Reads seen (act s).world ∧ (next s).Reads seen

theorem Run.look_reads {d : Deed} {stopped going : Routine σ α} (hstopped : stopped.Reads seen) (hgoing : going.Reads seen) :
    (look d stopped going).Reads seen := by
  refine fun s => ⟨.of_eq rfl rfl, ?_⟩
  dsimp only
  split
  · exact hstopped
  · exact hgoing

theorem World.advance_reads (ho : o.Reads seen) (d : Nat) (w : World σ) : w.Reads seen (w.advance o d) := by
  have hclock : w.Reads seen { w with clock := w.clock + d } := .of_eq rfl rfl
  exact hclock.trans (ho.turn _)

theorem Run.sleeping_reads (ho : o.Reads seen) (deadline poll fuel : Nat) :
    (sleeping o deadline poll fuel).Reads seen := by
  induction fuel with
  | zero => exact trivial
  | succ fuel ih =>
    refine look_reads trivial fun s => ⟨.of_eq rfl rfl, ?_⟩
    dsimp only
    split
    · exact trivial
    · exact fun s => ⟨World.advance_reads ho _ _, ih⟩

theorem Run.pausing_reads (ho : o.Reads seen) (schedule : Schedule) : (pausing o schedule).Reads seen := by
  refine fun s => ⟨.of_eq rfl rfl, ?_⟩
  dsimp only
  split
  · split
    · exact trivial
    · exact sleeping_reads ho ..
  · exact trivial

/-! ## What an account tells -/

namespace Account

/-- Whether an account that is at a chronicle goes on with it soundly, and the board shows what has been written down;
others may do what they like but for the board meanwhile. -/
def Tells (events : List (Event σ)) (seen : σ → List Status) (Q : α → Chronicle → Prop) : Account σ α → Chronicle → Prop
  | .done a, c => Q a c
  | .step _ note act next, c => ∀ s : Scene σ, s.world.board = c.shown →
    c.Extends (note s c) ∧ (note s c).Sound events ∧ (act s).world.board = (note s c).shown ∧
      (∃ n, seen (act s).world.outside = List.replicate n s.world.board ++ seen s.world.outside) ∧
      (next s).Tells events seen Q (note s c)

variable {events : List (Event σ)} {P : α → Chronicle → Prop} {Q : β → Chronicle → Prop} {c : Chronicle}

theorem Tells.bind {p : Account σ α} {f : α → Account σ β} (hp : p.Tells events seen P c)
    (hf : ∀ a c', P a c' → (f a).Tells events seen Q c') : (p.bind f).Tells events seen Q c := by
  induction p generalizing c with
  | done a => exact hf a c hp
  | step d note act next ih =>
    intro s hs
    obtain ⟨hextends, hsound, hboard, hlooks, hnext⟩ := hp s hs
    exact ⟨hextends, hsound, hboard, hlooks, ih s hnext⟩

theorem Tells.map {p : Account σ α} {f : α → β} (hp : p.Tells events seen P c) (hf : ∀ a c', P a c' → Q (f a) c') :
    (p.map f).Tells events seen Q c :=
  hp.bind hf

/-- What the routine of an account comes to holds of the account as well. -/
theorem Tells.gives {p : Account σ α} {R : α → Prop} (hp : p.Tells events seen P c) (h : p.routine.Gives R) :
    p.Tells events seen (fun a c' => P a c' ∧ R a) c := by
  induction p generalizing c with
  | done a => exact ⟨hp, h a rfl⟩
  | step d note act next ih =>
    intro s hs
    obtain ⟨hextends, hsound, hboard, hlooks, hnext⟩ := hp s hs
    exact ⟨hextends, hsound, hboard, hlooks, ih s hnext (h.2 s)⟩

theorem tells_still {d : Deed} {act : Scene σ → Scene σ} {next : Scene σ → Account σ α} (hc : c.Sound events)
    (hact : ∀ s : Scene σ, s.world.Reads seen (act s).world) (hnext : ∀ s, (next s).Tells events seen P c) :
    (still d act next).Tells events seen P c :=
  fun s hs => ⟨.refl c, hc, (hact s).board.trans hs, (hact s).looks, hnext s⟩

theorem tells_look {d : Deed} {stopped going : Account σ α} (hc : c.Sound events)
    (hstopped : stopped.Tells events seen P c) (hgoing : going.Tells events seen P c) :
    (look d stopped going).Tells events seen P c := by
  refine tells_still hc (fun s => .of_eq rfl rfl) fun s => ?_
  split
  · exact hstopped
  · exact hgoing

open Run (Pass Tick Ticked runGuarded guarded elseLength endProgram publish tell greeting)

theorem tells_passing (ho : o.Reads seen) {e : Event σ} {a : Nat} (he : events[a]? = some e) (responsive : Bool)
    (m : Moment) (i : Nat) (cs : List (Command σ)) (htame : ∀ c ∈ cs, c.action.Tame o)
    (hlength : ∀ k < cs.length, i + k < e.commands.length) {c : Chronicle} {js : List Nat} (hc : c.Sound events)
    (hcurrent : c.current = some (a, js)) (hclosing : c.closing = none) (hjs : ∀ j ∈ js, j < i) :
    (passing responsive m i cs).Tells events seen
      (fun p c' => c' = { c with current := some (a, js ++ p.executed) } ∧ c'.Sound events) c := by
  have hstays : c = { c with current := some (a, js ++ []) } := by
    rw [List.append_nil, ← hcurrent]
  match cs with
  | [] =>
    rw [passing]
    exact ⟨hstays, hc⟩
  | cmd :: rest =>
    have hi : i < e.commands.length := hlength 0 (Nat.zero_lt_succ _)
    have hrun := Chronicle.run_eq (j := i) hcurrent
    have hc' : (c.run i).Sound events := hc.run hcurrent he hjs hi
    -- behind the command some others are passed over
    have hbehind (n : Nat) (cmd' : Command σ) (rest' : List (Command σ)) :
        ((passing responsive m (i + 1 + n) (rest.drop n)).map (·.behind i cmd' rest')).Tells events seen
          (fun p c' => c' = { c with current := some (a, js ++ p.executed) } ∧ c'.Sound events) (c.run i) := by
      refine (tells_passing ho he responsive m (i + 1 + n) (rest.drop n)
        (fun x hx => htame x (List.mem_cons_of_mem _ (List.mem_of_mem_drop hx))) ?_ hc' (by rw [hrun])
        (by rw [hrun]; exact hclosing) ?_).map ?_
      · intro k hk
        have := hlength (1 + n + k) (by rw [List.length_drop] at hk; rw [List.length_cons]; omega)
        omega
      · intro j hj
        rcases List.mem_append.1 hj with hj | hj
        · exact (hjs j hj).trans_le (by omega)
        · obtain rfl := List.mem_singleton.1 hj
          omega
      · rintro p c' ⟨rfl, hsound⟩
        refine ⟨?_, hsound⟩
        rw [hrun, Pass.behind, List.append_assoc]
        rfl
    have hrunning : (running responsive m i cmd rest fun n => passing responsive m (i + 1 + n) (rest.drop n)).Tells
        events seen (fun p c' => c' = { c with current := some (a, js ++ p.executed) } ∧ c'.Sound events) c := by
      intro s hs
      have hreads := Run.runGuarded_reads (htame cmd List.mem_cons_self) ho m s
      have hshown : (c.run i).shown = c.shown := rfl
      refine ⟨Chronicle.extends_run hcurrent hclosing, hc', hreads.board.trans (hs.trans hshown.symm), hreads.looks, ?_⟩
      dsimp only
      split
      · exact tells_still hc' (fun s => .of_eq rfl rfl) fun _ => ⟨hrun, hc'⟩
      · exact ⟨hrun, hc'⟩
      · exact hbehind _ _ _
      · exact hbehind _ _ _
    rw [passing]
    split
    · exact tells_look hc ⟨hstays, hc⟩ hrunning
    · exact hrunning
termination_by cs.length
decreasing_by simp only [List.length_drop, List.length_cons]; omega

theorem head_of_forget {i : Nat} {e : Event σ} {rest : List (Event σ)}
    (h : (e :: rest).map Event.forget = (events.drop i).map Event.forget) :
    (∃ e', events[i]? = some e' ∧ e'.forget = e.forget) ∧
      rest.map Event.forget = (events.drop (i + 1)).map Event.forget := by
  cases hdrop : events.drop i with
  | nil =>
    rw [hdrop] at h
    cases h
  | cons e' rest' =>
    rw [hdrop, List.map_cons, List.map_cons] at h
    obtain ⟨he, hrest⟩ := List.cons.inj h
    have hget : events[i]? = some e' := by
      rw [← List.head?_drop, hdrop]
      rfl
    refine ⟨⟨e', hget, he.symm⟩, ?_⟩
    rw [← List.tail_drop, hdrop]
    exact hrest

/-- A visit of an active event: its commands are run, and the board shows it. -/
theorem tells_visit (ho : o.Reads seen) {e : Event σ} {i : Nat} (he : events[i]? = some e) (hrole : e.role ≠ .destroy)
    {cs : List (Command σ)} (hcs : ∀ c ∈ cs, c.action.Tame o) (hlength : cs.length = e.commands.length) (m : Moment)
    (hc : c.Sound events) (hclosing : c.closing = none) (htick : 0 < c.tick)
    (hlt : ∀ v ∈ c.visits c.tick, v.1 < i) {f : Pass σ → Status → Account σ β}
    (hnext : ∀ p c', c'.Sound events → c'.current = none → c'.closing = none → 0 < c'.tick →
      (∀ v ∈ c'.visits c'.tick, v.1 < i + 1) → (f p (c'.visits c'.tick)).Tells events seen Q c') :
    ((passing true m 0 cs).bind fun p =>
      .step (.publish true) (fun _ => Chronicle.leave) (publish (Status.insert i p.executed (c.visits c.tick))) fun _ =>
        f p (Status.insert i p.executed (c.visits c.tick))).Tells events seen Q (c.visit i) := by
  refine (tells_passing ho he true m 0 cs hcs (fun k hk => by omega) (hc.visit he) rfl hclosing (by simp)).bind ?_
  rintro p c' ⟨rfl, hsound⟩
  rw [List.nil_append] at hsound ⊢
  generalize hc' : ({ c.visit i with current := some (i, p.executed) } : Chronicle) = c' at hsound ⊢
  have hcurrent' : c'.current = some (i, p.executed) := hc' ▸ rfl
  have hclosing' : c'.closing = none := hc' ▸ hclosing
  have htick' : 0 < c'.tick := hc' ▸ htick
  have hvisits : c.visits c.tick = c'.visits c'.tick := hc' ▸ rfl
  rw [hvisits] at hlt ⊢
  have hleave : c'.leave.Sound events := hsound.leave hcurrent' htick' hlt fun e' he' => by
    obtain rfl : e' = e := Option.some.inj (he'.symm.trans he)
    exact hrole
  have hshown := Chronicle.shown_leave hcurrent' hclosing' hlt
  refine fun s _ => ⟨Chronicle.extends_leave hcurrent' hclosing', hleave, hshown.symm, ⟨0, rfl⟩, ?_⟩
  have hclosing'' : c'.leave.closing = none := hclosing'
  rw [← hshown, Chronicle.shown_of_open hclosing'']
  refine hnext p c'.leave hleave rfl hclosing' htick' ?_
  rw [Chronicle.visits_tick_leave hcurrent']
  intro v hv
  rcases List.mem_append.1 hv with hv | hv
  · exact (hlt v hv).trans (Nat.lt_succ_self i)
  · obtain rfl := List.mem_singleton.1 hv
    exact Nat.lt_succ_self i

theorem tells_touring (ho : o.Reads seen) (m : Moment) (i : Nat) (rest : List (Event σ)) (htame : ∀ e ∈ rest, e.Tame o)
    (hrest : rest.map Event.forget = (events.drop i).map Event.forget) (hc : c.Sound events) (hcurrent : c.current = none)
    (hclosing : c.closing = none) (htick : 0 < c.tick) (hlt : ∀ v ∈ c.visits c.tick, v.1 < i) :
    (touring m i (c.visits c.tick) rest).Tells events seen
      (fun _ c' => c'.Sound events ∧ c'.current = none ∧ c'.closing = none) c := by
  induction rest generalizing i c with
  | nil => exact ⟨hc, hcurrent, hclosing⟩
  | cons e rest ih =>
    obtain ⟨⟨e₀, he₀, hforget⟩, hrest'⟩ := head_of_forget hrest
    have htame' : ∀ e ∈ rest, e.Tame o := fun e' he' => htame e' (List.mem_cons_of_mem _ he')
    have hpassed (e' : Event σ) : ((touring m (i + 1) (c.visits c.tick) rest).map (·.behind e' false)).Tells events seen
        (fun _ c' => c'.Sound events ∧ c'.current = none ∧ c'.closing = none) c :=
      (ih (i + 1) htame' hrest' hc hcurrent hclosing htick fun v hv => (hlt v hv).trans (Nat.lt_succ_self i)).map
        fun _ _ h => h
    rw [touring]
    refine tells_look hc ⟨hc, hcurrent, hclosing⟩ ?_
    split
    · exact hpassed _
    rename_i hrole
    intro s hs
    have hreads := (htame e List.mem_cons_self).poll_reads ho m s
    have hcommands : (e.poll m s).2.1.commands = e.commands := rfl
    dsimp only
    rcases hpoll : e.poll m s with ⟨answer, e', s'⟩
    rw [hpoll] at hreads hcommands
    rcases answer with b | _ | _
    · exact ⟨.refl c, hc, hreads.board.trans hs, hreads.looks, hc, hcurrent, hclosing⟩
    · exact ⟨.refl c, hc, hreads.board.trans hs, hreads.looks, hpassed _⟩
    · have hlength : e'.commands.length = e₀.commands.length := by
        have := congrArg (fun e => e.commands.length) hforget
        simp only [Event.forget, List.length_map] at this
        rw [hcommands, this]
      refine ⟨Chronicle.extends_visit hcurrent hclosing, hc.visit he₀, hreads.board.trans hs, hreads.looks, ?_⟩
      refine tells_visit ho he₀ (e.role_eq_of_forget hforget.symm ▸ hrole)
        (hcommands ▸ (htame e List.mem_cons_self).commands) hlength m hc hclosing htick hlt
        (f := fun p status => (touring m (i + 1) status rest).map (·.behind { e' with commands := p.commands } p.killed))
        fun p c' hc' hcurrent' hclosing' htick' hlt' => Tells.map ?_ fun _ _ h => h
      exact ih (i + 1) htame' hrest' hc' hcurrent' hclosing' htick' hlt'

theorem tells_silent {p : Routine σ α} (hc : c.Sound events) (h : p.Reads seen) :
    (silent p).Tells events seen (fun _ c' => c' = c) c := by
  induction p with
  | done a => rfl
  | step d act next ih => exact tells_still hc (fun s => (h s).1) fun s => ih s (h s).2

theorem tells_ticking (ho : o.Reads seen) (htame : ∀ e ∈ events, e.Tame o) (started fuel n : Nat) (schedule : Schedule)
    (events' : List (Event σ)) (killed : Bool) (hevents : events'.map Event.forget = events.map Event.forget)
    (hc : c.Sound events) (hcurrent : c.current = none) (hclosing : c.closing = none) :
    (ticking o started fuel n schedule events' killed).Tells events seen
      (fun t c' => (c'.Sound events ∧ c'.current = none ∧ c'.closing = none) ∧
        t.events.map Event.forget = events.map Event.forget) c := by
  induction fuel generalizing n schedule events' killed c with
  | zero => exact ⟨⟨hc, hcurrent, hclosing⟩, hevents⟩
  | succ fuel ih =>
    have htame' : ∀ e ∈ events', e.Tame o :=
      forall_mem_of_map_eq (fun _ _ => Event.Tame.of_forget) hevents htame
    have hticked : (look .wait (.done ⟨some (.ok n), events', killed⟩) <|
        .step .tick (fun _ => Chronicle.enter) (publish []) fun _ => (touring ⟨n + 1, started⟩ 0 [] events').bind fun t =>
          behindTick t killed
            (ticking o started fuel (n + 1) schedule.advance t.events (killed || t.killed))).Tells events seen
        (fun t c' => (c'.Sound events ∧ c'.current = none ∧ c'.closing = none) ∧
          t.events.map Event.forget = events.map Event.forget) c := by
      refine tells_look hc ⟨⟨hc, hcurrent, hclosing⟩, hevents⟩ fun s _ => ?_
      have hvisits : c.enter.visits c.enter.tick = [] := hc.unmade _ (.inr (Nat.lt_succ_self _))
      refine ⟨Chronicle.extends_enter hcurrent hclosing, hc.enter, (Chronicle.shown_enter hc hclosing).symm, ⟨0, rfl⟩, ?_⟩
      have htouring := tells_touring ho ⟨n + 1, started⟩ 0 events' htame' hevents hc.enter hcurrent hclosing
        (Nat.zero_lt_succ _) (by simp [hvisits])
      rw [hvisits] at htouring
      have hgives := Run.touring_gives ⟨n + 1, started⟩ 0 [] events'
      rw [← routine_touring] at hgives
      refine (htouring.gives hgives).bind fun t c' h => ?_
      obtain ⟨⟨hc', hcurrent', hclosing'⟩, hleft⟩ := h
      unfold behindTick
      split
      · exact ⟨⟨hc', hcurrent', hclosing'⟩, hleft.trans hevents⟩
      · exact ih _ _ _ _ (hleft.trans hevents) hc' hcurrent' hclosing'
    rw [ticking]
    refine tells_look hc ⟨⟨hc, hcurrent, hclosing⟩, hevents⟩ ((tells_silent hc (Run.pausing_reads ho schedule)).bind ?_)
    rintro slept _ rfl
    cases slept with
    | cut => exact ⟨⟨hc, hcurrent, hclosing⟩, hevents⟩
    | full | overflow => exact hticked

theorem tells_closing (ho : o.Reads seen) {e e₀ : Event σ} {i : Nat} (he : events[i]? = some e₀)
    (hforget : e₀.forget = e.forget) (htame : e.Tame o) (hrole : e.role = .destroy)
    (hfirst : ∀ j < i, ∀ e', events[j]? = some e' → e'.role ≠ .destroy) (started : Nat) (hc : c.Sound events)
    (hcurrent : c.current = none) (hclosing : c.closing = none) :
    (closing started i e).Tells events seen (fun _ c' => c'.Sound events) c := by
  have hlength : e.commands.length = e₀.commands.length := by
    have := congrArg (fun e => e.commands.length) hforget
    simp only [Event.forget, List.length_map] at this
    exact this.symm
  have hvisit : (c.visit i).Sound events := hc.visit he
  refine fun s hs => ⟨Chronicle.extends_visit hcurrent hclosing, hvisit, hs, ⟨0, rfl⟩, ?_⟩
  refine tells_still hvisit (fun s => .of_eq rfl rfl) fun s => ?_
  refine (tells_passing ho he false _ 0 e.commands htame.commands (fun k hk => by omega) hvisit rfl hclosing (by simp)).bind ?_
  rintro p c' ⟨rfl, hsound⟩
  rw [List.nil_append] at hsound ⊢
  generalize hc' : ({ c.visit i with current := some (i, p.executed) } : Chronicle) = c' at hsound ⊢
  have hcurrent' : c'.current = some (i, p.executed) := hc' ▸ rfl
  have hclosing' : c'.closing = none := hc' ▸ hclosing
  have hclose : c'.close.Sound events := hsound.close hcurrent'
    (fun e' he' => by
      obtain rfl : e' = e₀ := Option.some.inj (he'.symm.trans he)
      exact (e'.role_eq_of_forget hforget).trans hrole) hfirst
  refine fun s hs => ⟨Chronicle.extends_close hcurrent' hclosing', hclose, ?_, ⟨0, rfl⟩, ?_⟩
  · rw [Chronicle.shown_close hcurrent', ← Chronicle.shown_of_open hclosing', ← hs]
    rfl
  · exact tells_still hclose (fun s => .of_eq rfl rfl) fun s => tells_still hclose (fun s => .of_eq rfl rfl) fun _ => hclose

theorem tells_shutting (ho : o.Reads seen) (htame : ∀ e ∈ events, e.Tame o) (events' : List (Event σ))
    (hevents : events'.map Event.forget = events.map Event.forget) (started : Nat) (hc : c.Sound events)
    (hcurrent : c.current = none) (hclosing : c.closing = none) :
    (shutting started events').Tells events seen (fun _ c' => c'.Sound events) c := by
  have hforget (j : Nat) (e : Event σ) (he : events'[j]? = some e) : ∃ e₀, events[j]? = some e₀ ∧ e₀.forget = e.forget := by
    have hmap : (events.map Event.forget)[j]? = some e.forget := by
      rw [← hevents, List.getElem?_map, he]
      rfl
    simpa using hmap
  have hforget' (j : Nat) (e₀ : Event σ) (he : events[j]? = some e₀) : ∃ e, events'[j]? = some e ∧ e.forget = e₀.forget := by
    have hmap : (events'.map Event.forget)[j]? = some e₀.forget := by
      rw [hevents, List.getElem?_map, he]
      rfl
    simpa using hmap
  unfold shutting
  cases hi : events'.findIdx? (·.role = .destroy) with
  | none => exact hc
  | some i =>
    obtain ⟨hlt, hrole, hfirst⟩ := List.findIdx?_eq_some_iff_getElem.1 hi
    have he := List.getElem?_eq_getElem hlt
    obtain ⟨e₀, he₀, h₀⟩ := hforget i _ he
    simp only [he]
    refine (tells_closing ho he₀ h₀ (Event.Tame.of_forget h₀ (htame e₀ (List.mem_of_getElem? he₀)))
      (of_decide_eq_true hrole) (fun j hj e' he' => ?_) started hc hcurrent hclosing).map fun _ _ h => h
    obtain ⟨e, he, h⟩ := hforget' j e' he'
    obtain ⟨_, hget⟩ := List.getElem?_eq_some_iff.1 he
    have hj' := hfirst j hj
    rw [hget] at hj'
    exact fun hd => hj' (decide_eq_true ((e.role_eq_of_forget h).trans hd))

/-- **The account of a run tells what the board shows.** -/
theorem tells_working (ho : o.Reads seen) (fuel : Nat) (r : Run σ) (htame : ∀ e ∈ r.events, e.Tame o) :
    (working o fuel r).Tells r.events seen (fun _ _ => True) .blank := by
  have hblank := Chronicle.sound_blank r.events
  refine tells_still hblank (fun s => .of_eq rfl rfl) fun s => ?_
  refine (tells_ticking ho htame s.world.clock fuel 0 _ r.events r.killed rfl hblank rfl rfl).bind fun t c' h => ?_
  obtain ⟨⟨hc', hcurrent', hclosing'⟩, hleft⟩ := h
  unfold ending
  split
  · exact trivial
  · exact trivial
  · refine tells_still hc' (fun s => .of_eq rfl rfl) fun _ =>
      (tells_shutting ho htame t.events hleft s.world.clock hc' hcurrent' hclosing').bind fun events c'' hc'' => ?_
    exact tells_still hc'' (fun s => .of_eq rfl rfl) fun _ => trivial

end Account

/-! ## Plays -/

namespace Telling

variable {act : ι → World σ → World σ} {events : List (Event σ)} {t : Telling σ α}

/-- Whether what is under way tells what the board shows. -/
structure Truthful (events : List (Event σ)) (seen : σ → List Status) (t : Telling σ α) : Prop where
  sound : t.chronicle.Sound events
  board : t.scene.world.board = t.chronicle.shown
  rest : t.rest.Tells events seen (fun _ _ => True) t.chronicle

theorem Truthful.move (h : t.Truthful events seen) (hact : ∀ i (w : World σ), w.Reads seen (act i w)) (m : Move ι) :
    (t.move act m).Truthful events seen ∧ t.chronicle.Extends (t.move act m).chronicle ∧
      ∃ n, seen (t.move act m).scene.world.outside =
        List.replicate n t.chronicle.shown ++ seen t.scene.world.outside := by
  obtain ⟨p, s, c⟩ := t
  obtain ⟨hsound, hboard, hrest⟩ := h
  dsimp only at hboard
  cases m with
  | other i =>
    obtain ⟨hstays, hlooks⟩ := hact i s.world
    rw [hboard] at hlooks
    exact ⟨⟨hsound, hstays.trans hboard, hrest⟩, .refl c, hlooks⟩
  | work =>
    cases p with
    | done a => exact ⟨⟨hsound, hboard, hrest⟩, .refl c, 0, rfl⟩
    | step d note act next =>
      obtain ⟨hextends, hsound', hboard', hlooks, hnext⟩ := hrest s hboard
      rw [hboard] at hlooks
      exact ⟨⟨hsound', hboard', hnext⟩, hextends, hlooks⟩

theorem Truthful.play (h : t.Truthful events seen) (hact : ∀ i (w : World σ), w.Reads seen (act i w)) (ms : List (Move ι)) :
    (t.play act ms).Truthful events seen ∧ t.chronicle.Extends (t.play act ms).chronicle := by
  induction ms generalizing t with
  | nil => exact ⟨h, .refl _⟩
  | cons m ms ih =>
    obtain ⟨hmove, hextends, -⟩ := h.move hact m
    obtain ⟨hplay, hextends'⟩ := ih hmove
    exact ⟨hplay, hextends.trans hextends'⟩

/-- What is remembered at the end of a play has been seen at moments of it, one after the other. -/
theorem Truthful.exists_moments (h : t.Truthful events seen) (hact : ∀ i (w : World σ), w.Reads seen (act i w))
    (ms : List (Move ι)) :
    ∃ moments : List (List (Move ι)), (∀ front ∈ moments, front <+: ms) ∧
      moments.Pairwise (fun later earlier => earlier <+: later) ∧
      seen (t.play act ms).scene.world.outside =
        moments.map (fun front => (t.play act front).chronicle.shown) ++ seen t.scene.world.outside := by
  induction ms using List.reverseRecOn with
  | nil => exact ⟨[], nofun, .nil, rfl⟩
  | append_singleton ms m ih =>
    obtain ⟨moments, hmoments, hpairwise, hseen⟩ := ih
    obtain ⟨-, -, n, hn⟩ := (h.play hact ms).1.move hact m
    have hplay : t.play act (ms ++ [m]) = (t.play act ms).move act m := List.foldl_concat ..
    refine ⟨List.replicate n ms ++ moments, fun front hfront => ?_, ?_, ?_⟩
    · rcases List.mem_append.1 hfront with hfront | hfront
      · obtain rfl := List.eq_of_mem_replicate hfront
        exact List.prefix_append ..
      · exact (hmoments front hfront).trans (List.prefix_append ..)
    · refine List.pairwise_append.2 ⟨?_, hpairwise, fun later hlater earlier hearlier => ?_⟩
      · exact List.pairwise_replicate.2 (.inr (List.prefix_refl ms))
      · obtain rfl := List.eq_of_mem_replicate hlater
        exact hmoments earlier hearlier
    · rw [hplay, hn, hseen, List.map_append, List.map_replicate, List.append_assoc]

end Telling

namespace Station

variable {act : ι → World σ → World σ}

/-- Whether the thread that an interpreter holds follows a routine. -/
def Follows (k : Station σ) (t : Activity σ (Ending σ)) : Prop :=
  k.world = t.scene.world ∧ ∃ h, k.held = some h ∧
    (h.thread = .working t.rest t.scene.sandbox ∨ ∃ e, t.rest = .done e ∧ h.thread.end? = some e)

theorem Follows.move {k : Station σ} {t : Activity σ (Ending σ)} (h : k.Follows t) (m : Move ι) :
    (k.move act m).Follows (t.move act m) := by
  obtain ⟨p, b, w⟩ := t
  obtain ⟨hworld, d, hd, hthread⟩ := h
  obtain ⟨i, held, past⟩ := k
  obtain rfl : held = some d := hd
  cases m with
  | other x => exact ⟨congrArg (act x) hworld, d, rfl, hthread⟩
  | work =>
    obtain ⟨r, thread, noticed⟩ := d
    rcases hthread with rfl | ⟨e, rfl, he⟩
    · cases p with
      | done e => exact ⟨hworld, _, rfl, .inr ⟨e, rfl, rfl⟩⟩
      | step d act' next =>
        have hscene : Scene.mk b i.world = ⟨b, w⟩ := congrArg (Scene.mk b) hworld
        refine ⟨congrArg (fun s => (act' s).world) hscene, _, rfl, .inl ?_⟩
        exact congrArg (fun s => Thread.working (next s) (act' s).sandbox) hscene
    · cases thread with
      | working => cases he
      | leaving | gone => exact ⟨hworld, _, rfl, .inr ⟨e, rfl, he⟩⟩

theorem Follows.play {k : Station σ} {t : Activity σ (Ending σ)} (h : k.Follows t) (ms : List (Move ι)) :
    (k.play act ms).Follows (t.play act ms) := by
  induction ms generalizing k t with
  | nil => exact h
  | cons m ms ih => exact ih (h.move m)

end Station

namespace Run

/-- The account of a run that is about to begin. -/
def told (o : Outside σ) (fuel : Nat) (r : Run σ) : Telling σ (Ending σ) := ⟨.working o fuel r, r.scene, .blank⟩

/-- **Every look at the board is a look at one tick.**  A run that begins with an empty board, whose events and whose
surroundings do nothing about the board but look at it, shows at every moment what its chronicle has of the latest tick,
and the interpreter reports that as long as the run is under way.  The chronicle is sound, and it only goes on: what it
has of a tick is not changed by later ticks, and nothing is added to the last one but the event that is run at the end.
What is remembered of the board has been seen at moments that follow each other, and what was remembered before stays. -/
theorem snapshots (ho : o.Reads seen) {act : ι → World σ → World σ} (hact : ∀ i (w : World σ), w.Reads seen (act i w)) (fuel : Nat)
    {r : Run σ} (htame : ∀ e ∈ r.events, e.Tame o) (hboard : r.scene.world.board = []) (front rest : List (Move ι)) :
    let t (ms : List (Move ι)) := (r.told o fuel).play act ms
    (t front).activity = (worker o fuel r).play act front ∧
      (t front).scene.world.board = (t front).chronicle.shown ∧
      (t front).chronicle.Sound r.events ∧
      (t front).chronicle.Extends (t (front ++ rest)).chronicle ∧
      (t (front ++ rest)).chronicle.Shows (t front).chronicle.tick (t front).scene.world.board ∧
      (∀ k : Station σ, k.world = r.scene.world → k.held = some ⟨r, .ofRun o fuel r, false⟩ →
        (k.play act front).seen.isRunning = true →
          (k.play act front).seen.status = .running (t front).chronicle.shown) ∧
      ∃ moments : List (List (Move ι)), (∀ ms ∈ moments, ms <+: rest) ∧
        moments.Pairwise (fun later earlier => earlier <+: later) ∧
        seen (t (front ++ rest)).scene.world.outside =
          moments.map (fun ms => (t (front ++ ms)).chronicle.shown) ++ seen (t front).scene.world.outside := by
  intro t
  have hstart : (r.told o fuel).Truthful r.events seen :=
    ⟨Chronicle.sound_blank _, hboard, Account.tells_working ho fuel r htame⟩
  have htold : (r.told o fuel).activity = worker o fuel r :=
    congrArg (Activity.mk · r.scene) (Account.routine_working o fuel r)
  have hfront := (hstart.play hact front).1
  have happend (ms : List (Move ι)) : t (front ++ ms) = (t front).play act ms := List.foldl_append
  have hextends : (t front).chronicle.Extends (t (front ++ rest)).chronicle := by
    rw [happend]
    exact (hfront.play hact rest).2
  have hactivity : (t front).activity = (worker o fuel r).play act front := by
    rw [Telling.activity_play, htold]
  refine ⟨hactivity, hfront.board, hfront.sound, hextends, hfront.board ▸ hextends.shows, fun k hworld hheld hrunning => ?_, ?_⟩
  · have hfollows : k.Follows (worker o fuel r) := ⟨hworld, _, hheld, .inl rfl⟩
    have hshown : (k.play act front).world.board = (t front).chronicle.shown := by
      rw [(hfollows.play front).1, ← hactivity]
      exact hfront.board
    unfold Interpreter.status
    rw [if_pos hrunning]
    exact congrArg RunStatus.running hshown
  · simp only [happend]
    exact hfront.exists_moments hact rest

/-- A script whose only event ends the program, and with an event for its end. -/
def closingScript : Script :=
  ⟨[⟨"StepEvent", [], [⟨"StartBlockCommand", []⟩, ⟨"EndProgramCommand", []⟩]⟩,
    ⟨"DestroyEvent", [], [⟨"StartBlockCommand", []⟩]⟩]⟩

/-- The hypotheses of `snapshots` are satisfiable: somebody looks twice at the board of a run of the program's own kinds,
in its only tick and at the end. -/
theorem snapshots_closingScript :
    let o := Outside.nobody (List Status)
    let act : Unit → World (List Status) → World (List Status) := fun _ w => { w with outside := w.board :: w.outside }
    let r := create Config.default (load (Registry.builtin o) closingScript).events (World.initial [])
    let front := List.replicate 14 .work ++ [.other ()]
    let rest := List.replicate 9 .work ++ [.other ()]
    let t (ms : List (Move Unit)) := (r.told o 2).play act ms
    (∀ e ∈ r.events, e.Tame o) ∧ r.scene.world.board = [] ∧
      (t (front ++ rest)).scene.world.outside = [[(0, [0, 1]), (1, [0])], [(0, [0, 1])]] ∧
      (t front).chronicle.Sound r.events ∧ (t front).chronicle.Extends (t (front ++ rest)).chronicle := by
  intro o act r front rest t
  have ho : o.Reads id := ⟨fun _ => .of_eq rfl rfl, fun _ _ _ h => Except.ok.inj h ▸ .of_eq rfl rfl⟩
  have hact : ∀ i (w : World (List Status)), w.Reads id (act i w) := fun _ _ => ⟨rfl, 1, rfl⟩
  have htame : ∀ e ∈ r.events, e.Tame o := fun e he => (Registry.tame_builtin o).events he
  obtain ⟨-, -, hsound, hextends, -⟩ := snapshots ho hact 2 htame rfl front rest
  exact ⟨htame, rfl, by decide +kernel, hsound, hextends⟩

end Run
end ArmPilot
