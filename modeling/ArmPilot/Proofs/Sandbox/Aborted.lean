import ArmPilot.Load.Program
import ArmPilot.Proofs.Lang.Eval.Watch
import ArmPilot.Proofs.Load.Checked
import ArmPilot.Proofs.Memory.Kinds
import ArmPilot.Proofs.Pass.Steps

/-!
# Scripts of a run that is asked to stop

Every step of a script looks first whether the run is asked to stop.  Once it is, no script gets beyond its first step:
it changes no variable, reaches no machine and prints nothing.  The commands that depend on the value of an expression
then count as conditions that do not hold.
-/

namespace ArmPilot

variable {σ : Type}

/-! ## Scripts that may not begin -/

namespace Lang

/-- How a script ends that may not take its first step. -/
def Program.barred (p : Program) : Except Interrupt Value :=
  match p.body with
  | [] => .ok .unit
  | s :: _ => .error (.failure (.mk .terminated s.place))

/-- The state in which a script ends that may not take its first step. -/
def Store.barred (s : Store σ) (p : Program) : Store σ :=
  { s with operations := min 1 p.body.length, this := none, globals := [] }

section

variable {env : Env σ} {s : Store σ} (hfirst : s.operations = 0)
  (hhost : env.host.progress s.outer = (false, s.outer))

include hfirst hhost

/-- The first step is not taken if the host does not let it. -/
theorem Eval.tick_of_barred (p : Place) :
    (tick env p).run.run s = (.error (.failure (.mk .terminated p)), { s with operations := 1 }) := by
  have hlimit : ¬(env.limits.maxOperations > 0 ∧ s.operations + 1 > env.limits.maxOperations) := by omega
  have hget : ((get : Eval σ (Store σ)).run.run s) = (.ok s, s) := rfl
  rw [tick, Failing.run_bind, hget]
  simp only [hhost, hfirst]
  rw [hfirst] at hlimit
  rw [if_neg hlimit]
  rfl

/-- The first statement of a script is not run if the host does not let it. -/
theorem Eval.topLevel_of_barred (depth : Nat) (st : Stmt) (rest : List Stmt) :
    (topLevel (machine σ (depth + 1)) env (st :: rest)).run.run s =
      (.error (.failure (.mk .terminated st.place)), { s with operations := 1 }) := by
  have hexec : ((machine σ (depth + 1)).exec env st).run.run s =
      (.error (.failure (.mk .terminated st.place)), { s with operations := 1 }) := by
    show (execWith (machine σ depth) env st).run.run s = _
    unfold execWith
    rw [Failing.run_bind, tick_of_barred hfirst hhost]
  cases rest with
  | nil => exact hexec
  | cons next rest =>
    rw [topLevel, Failing.run_bind, hexec]
    exact List.cons_ne_nil next rest

end

/-- **A script that may not take its first step does nothing**, whatever the host could do for it. -/
theorem Program.eval_of_barred {host : Host σ} {s : Store σ} (h : host.progress s.outer = (false, s.outer))
    (limits : Limits) (p : Program) :
    (p.eval host limits Eval.endless).run.run s = (p.barred, s.barred p) := by
  obtain ⟨depth, hdepth⟩ : ∃ depth, Eval.endless = depth + 1 := ⟨Word.count - 1, rfl⟩
  let start : Store σ := { s with operations := 0, this := none, globals := [] }
  let env : Env σ := ⟨host, limits, p.first, p.routines.toArray, 0, s.scope.length⟩
  have hstart : (modify fun s => { s with operations := 0, this := none, globals := [] } : Eval σ Unit).run.run s =
      (.ok (), start) := rfl
  have hget : (get : Eval σ (Store σ)).run.run start = (.ok start, start) := rfl
  unfold eval barred Store.barred
  rw [hdepth, Failing.run_bind, hstart]
  dsimp only
  rw [Failing.run_bind, hget]
  dsimp only
  rw [Failing.run_bind, Eval.attempt_run]
  match hbody : p.body with
  | [] => rfl
  | st :: rest =>
    have hmin : min 1 (st :: rest).length = 1 := Nat.min_eq_left (Nat.succ_pos _)
    have hhost : env.host.progress start.outer = (false, start.outer) := h
    rw [Eval.topLevel_of_barred (show start.operations = 0 from rfl) hhost, hmin]
    rfl

end Lang

/-! ## Acts that do nothing -/

/-- Whether a scene differs from another at most in records that no script has printed, and in how many functions the
scripts so far have had. -/
structure Scene.Spares (s s' : Scene σ) : Prop where
  scope : s'.sandbox.scope = s.sandbox.scope
  cells : s'.sandbox.cells = s.sandbox.cells
  limits : s'.sandbox.limits = s.sandbox.limits
  sleepPoll : s'.sandbox.sleepPoll = s.sandbox.sleepPoll
  world : ∃ told, s'.world = { s.world with records := told ++ s.world.records } ∧
    ∀ r ∈ told, r.target ≠ Devices.scriptTarget

namespace Scene.Spares

variable {s s' s'' : Scene σ}

theorem refl (s : Scene σ) : s.Spares s := ⟨rfl, rfl, rfl, rfl, [], rfl, fun _ h => absurd h List.not_mem_nil⟩

theorem trans (h : s.Spares s') (h' : s'.Spares s'') : s.Spares s'' where
  scope := h'.scope.trans h.scope
  cells := h'.cells.trans h.cells
  limits := h'.limits.trans h.limits
  sleepPoll := h'.sleepPoll.trans h.sleepPoll
  world := by
    obtain ⟨told, hworld, htold⟩ := h.world
    obtain ⟨told', hworld', htold'⟩ := h'.world
    refine ⟨told' ++ told, by rw [hworld', hworld, List.append_assoc], fun r hr => ?_⟩
    exact (List.mem_append.1 hr).elim (htold' r) (htold r)

theorem note (h : s.Spares s') {level : Log.Level} {target : String} (htarget : target ≠ Devices.scriptTarget)
    (text : String) : s.Spares (s'.onWorld (·.note level target text)) := by
  refine h.trans ⟨rfl, rfl, rfl, rfl, [⟨level, target, text⟩], rfl, fun r hr => ?_⟩
  obtain rfl := List.mem_singleton.1 hr
  exact htarget

theorem cancelled (h : s.Spares s') : s'.world.cancelled = s.world.cancelled := by
  obtain ⟨told, hworld, -⟩ := h.world
  rw [hworld]

/-- The variables that are listed keep their values. -/
theorem values (h : s.Spares s') : s'.sandbox.values = s.sandbox.values := by
  unfold Sandbox.values Sandbox.flat
  rw [h.scope, h.cells]

/-- Every name keeps its value. -/
theorem get? (h : s.Spares s') (name : String) : s'.sandbox.get? name = s.sandbox.get? name := by
  unfold Sandbox.get? Sandbox.flat
  rw [h.scope, h.cells]

end Scene.Spares

namespace Act

variable {α : Type}

/-- Whether an act spares every scene in which the run is asked to stop, and gives a value of some kind there. -/
def Idles (a : Act σ α) (P : α → Prop) : Prop :=
  ∀ s : Scene σ, s.world.cancelled = true → ∃ v s', a.run.run s = (.ok v, s') ∧ P v ∧ s.Spares s'

namespace Idles

variable {P : α → Prop}

theorem pure {v : α} (h : P v) : (Pure.pure v : Act σ α).Idles P := fun s _ => ⟨v, s, rfl, h, .refl s⟩

theorem get : (MonadState.get : Act σ (Scene σ)).Idles fun _ => True := fun s _ => ⟨s, s, rfl, trivial, .refl s⟩

theorem note (level : Log.Level) {target : String} (htarget : target ≠ Devices.scriptTarget) (text : String) :
    (Act.note level target text : Act σ Unit).Idles fun _ => True := fun s _ =>
  ⟨(), _, rfl, trivial, (Scene.Spares.refl s).note htarget text⟩

theorem bind {β : Type} {Q : β → Prop} {a : Act σ α} {f : α → Act σ β} (ha : a.Idles P)
    (hf : ∀ v, P v → (f v).Idles Q) : (a >>= f).Idles Q := by
  intro s hs
  obtain ⟨v, s', hv, hP, hs'⟩ := ha s hs
  obtain ⟨u, s'', hu, hQ, hs''⟩ := hf v hP s' (hs'.cancelled.trans hs)
  refine ⟨u, s'', ?_, hQ, hs'.trans hs''⟩
  rw [Failing.run_bind, hv]
  exact hu

end Idles

theorem evalProgram_idles (o : Outside σ) (p : Lang.Program) :
    (evalProgram o p).Idles fun r => ∀ v, r = .ok v → v = .unit := by
  intro s hs
  have heval := Lang.Program.eval_of_barred (s := s.store)
    (Devices.progress_of_cancelled o s.sandbox.sleepPoll s.world hs) s.sandbox.limits p
  have hspares : s.Spares (s.leave p (s.store.barred p)) :=
    ⟨rfl, rfl, rfl, rfl, [], rfl, fun _ h => absurd h List.not_mem_nil⟩
  unfold evalProgram
  dsimp only [ExceptT.run, ExceptT.mk, StateT.run] at heval ⊢
  rw [heval]
  unfold Lang.Program.barred
  match p.body with
  | [] => exact ⟨_, _, rfl, fun v hv => (Except.ok.inj hv).symm, hspares⟩
  | st :: _ => exact ⟨_, _, rfl, nofun, hspares⟩

theorem tryEvaluate_idles (o : Outside σ) (text : String) : (tryEvaluate o text).Idles fun r => ∀ v, r ≠ .ok v := by
  refine Idles.get.bind fun s _ => ?_
  dsimp only
  split
  · exact .pure nofun
  · refine (evalProgram_idles o _).bind fun r hr => ?_
    split
    · exact .pure nofun
    · rename_i hvalue
      refine .pure fun v hv => hvalue ?_
      rw [hv, hr v hv]

/-- **An evaluation has no value**, and no effect but a record of its failure. -/
theorem evaluate_idles (o : Outside σ) (text : String) : (evaluate o text).Idles (· = none) := by
  refine (tryEvaluate_idles o text).bind fun r hr => ?_
  match r with
  | .ok v => exact absurd rfl (hr v)
  | .error e => exact (Idles.note .warn (by decide) _).bind fun _ _ => .pure rfl

/-- **The run of a script** has no effect but a record of its failure. -/
theorem execute_idles (o : Outside σ) (text : String) : (execute o text).Idles fun _ => True := by
  have htry : (tryExecute o text).Idles fun _ => True := by
    refine Idles.get.bind fun s _ => ?_
    dsimp only
    split
    · exact .pure trivial
    · exact (evalProgram_idles o _).bind fun r _ => .pure trivial
  refine htry.bind fun r _ => ?_
  match r with
  | .ok _ => exact .pure trivial
  | .error e => exact (Idles.note .warn (by decide) _).bind fun _ _ => .pure trivial

end Act

/-! ## Commands -/

/-- Whether an action leaves a run asked to stop. -/
def Action.Heeds (a : Action σ) : Prop :=
  ∀ m memory s, s.world.cancelled = true → (((a.run m).run.run memory).run s).2.world.cancelled = true

/-- Whether an action only skips, with its memory and the scene left as they are, once the run is asked to stop. -/
def Action.Skips (a : Action σ) : Prop :=
  ∀ m memory s, s.world.cancelled = true →
    ∃ s', ((a.run m).run.run memory).run s = ((.ok .skip, memory), s') ∧ s.Spares s'

namespace Action

theorem Skips.heeds {a : Action σ} (h : a.Skips) : a.Heeds := by
  intro m memory s hs
  obtain ⟨s', hrun, hs'⟩ := h m memory s hs
  rw [hrun]
  exact hs'.cancelled.trans hs

theorem heeds_signal (part : Part) (signal : Signal) : (Action.signal (σ := σ) part signal).Heeds := fun _ _ _ hs => hs

theorem heeds_plain {a : Act σ Signal}
    (h : ∀ s : Scene σ, s.world.cancelled = true → (a.run.run s).2.world.cancelled = true) : (plain a).Heeds :=
  fun _ _ s hs => h s hs

theorem heeds_idle {a : Act σ Signal} {P : Signal → Prop} (h : a.Idles P) : (plain a).Heeds := by
  refine heeds_plain fun s hs => ?_
  obtain ⟨v, s', hrun, -, hs'⟩ := h s hs
  rw [hrun]
  exact hs'.cancelled.trans hs

theorem skips_plain {a : Act σ Signal} (h : a.Idles (· = .skip)) : (plain a).Skips := by
  intro m memory s hs
  obtain ⟨_, s', hrun, rfl, hs'⟩ := h s hs
  have hact : (((plain a).run m).run.run memory).run s = (((a.run.run s).1, memory), (a.run.run s).2) := rfl
  exact ⟨s', by rw [hact, hrun], hs'⟩

end Action

namespace Command

open Act

theorem holds_idles (o : Outside σ) (text : String) : (holds o text).Idles (· = false) := by
  refine (evaluate_idles o text).bind fun v hv => ?_
  subst hv
  exact .pure rfl

theorem coordinate_idles (o : Outside σ) (text : String) : (coordinate o text).Idles (· = none) := by
  refine (evaluate_idles o text).bind fun v hv => ?_
  subst hv
  exact .pure rfl

/-- A sleep is cut short at once, unless it cannot even begin. -/
theorem heeds_pause (o : Outside σ) (duration : Nat) : (Action.plain (pause o duration)).Heeds := by
  refine Action.heeds_plain fun s hs => ?_
  have hsleep : (s.world.sleep o duration s.sandbox.sleepPoll).2 = s.world := by
    unfold World.sleep
    dsimp only
    split
    · rfl
    · rw [World.sleepUntil, if_pos hs]
  have hrun : ((pause o duration).run.run s).2.world = (s.world.sleep o duration s.sandbox.sleepPoll).2 := by
    unfold pause
    rw [Failing.run_get_bind]
    rcases s.world.sleep o duration s.sandbox.sleepPoll with ⟨_ | _ | _, w⟩
    · rfl
    · rfl
    · rfl
  rw [hrun, hsleep]
  exact hs

theorem heeds_repeated (times : Nat) : (repeated times : Action σ).Heeds := by
  intro m memory s hs
  rw [run_repeated]
  exact hs

/-- The kinds of commands that depend on the value of an expression. -/
def asking : List String :=
  ["SetVariableCommand", "TestVariableCommand", "ExpressionCommand", "MoveXYZCommand", "SpeedCommand"]

/-- What the commands of the program's own kinds do once the run is asked to stop. -/
theorem heeds_of_mem_kinds {o : Outside σ} {kind : String} {f : Factory σ} (hf : (kind, f) ∈ kinds o)
    (ps : Parameters) : Makes (fun a => a.Heeds ∧ (kind ∈ asking → a.Skips)) (f ps) := by
  have hsignal (part : Part) (signal : Signal) {kind : String} (hkind : kind ∉ asking) :
      Makes (fun a => a.Heeds ∧ (kind ∈ asking → a.Skips)) (fixed (σ := σ) part signal ps) :=
    .of_ok ⟨Action.heeds_signal _ _, fun h => absurd h hkind⟩
  have hskips {a : Act σ Signal} (h : a.Idles (· = .skip)) {kind : String} :
      (Action.plain a).Heeds ∧ (kind ∈ asking → (Action.plain a).Skips) :=
    ⟨(Action.skips_plain h).heeds, fun _ => Action.skips_plain h⟩
  have hheeds {a : Action σ} (h : a.Heeds) {kind : String} (hkind : kind ∉ asking) :
      a.Heeds ∧ (kind ∈ asking → a.Skips) := ⟨h, fun h => absurd h hkind⟩
  simp only [kinds, List.mem_cons, List.not_mem_nil, or_false, Prod.mk.injEq] at hf
  rcases hf with ⟨rfl, rfl⟩ | ⟨rfl, rfl⟩ | ⟨rfl, rfl⟩ | ⟨rfl, rfl⟩ | ⟨rfl, rfl⟩ | ⟨rfl, rfl⟩ | ⟨rfl, rfl⟩ | ⟨rfl, rfl⟩ |
    ⟨rfl, rfl⟩ | ⟨rfl, rfl⟩ | ⟨rfl, rfl⟩ | ⟨rfl, rfl⟩ | ⟨rfl, rfl⟩ | ⟨rfl, rfl⟩ | ⟨rfl, rfl⟩
  -- startBlock, endBlock, elseMark
  · exact hsignal _ _ (by decide)
  · exact hsignal _ _ (by decide)
  · exact hsignal _ _ (by decide)
  -- setVariable
  · refine .bind fun name => .bind fun e => .of_ok (hskips ?_)
    refine (evaluate_idles o e.value).bind fun v hv => ?_
    subst hv
    exact .pure rfl
  -- testVariable
  · refine .bind fun name => .bind fun sign => ?_
    cases Comparison.parse? sign with
    | none => exact .of_error _
    | some c =>
      refine .bind fun e => .of_ok (hskips ?_)
      refine (holds_idles o _).bind fun b hb => ?_
      subst hb
      exact .pure rfl
  -- expressionTest
  · refine .bind fun e => .of_ok (hskips ?_)
    refine (holds_idles o _).bind fun b hb => ?_
    subst hb
    exact .pure rfl
  -- runScript
  · refine .bind fun text => .of_ok (hheeds (Action.heeds_idle (P := fun _ => True) ?_) (by decide))
    exact (execute_idles o _).bind fun _ _ => .pure trivial
  -- sleep
  · refine .bind fun seconds => ?_
    cases duration? seconds with
    | none => exact .of_error _
    | some d => exact .of_ok (hheeds (heeds_pause o d) (by decide))
  -- print
  · refine .bind fun e => .of_ok (hheeds (Action.heeds_idle (P := fun _ => True) ?_) (by decide))
    refine (evaluate_idles o e.value).bind fun v hv => ?_
    subst hv
    exact .pure trivial
  -- repeatTimes
  · refine .bind fun times => ?_
    dsimp only
    split
    · exact .of_error _
    · exact .of_ok (hheeds (heeds_repeated _) (by decide))
  -- moveXyz
  · refine .bind fun x => .bind fun y => .bind fun z => .bind fun relative => .of_ok (hskips ?_)
    refine (coordinate_idles o _).bind fun cx hx => (coordinate_idles o _).bind fun cy _ =>
      (coordinate_idles o _).bind fun cz _ => ?_
    subst hx
    exact .pure rfl
  -- speed
  · refine .bind fun e => .of_ok (hskips ?_)
    refine (evaluate_idles o e.value).bind fun v hv => ?_
    subst hv
    exact .pure rfl
  -- gripper
  · refine .bind fun on => .of_ok (hheeds ?_ (by decide))
    exact Action.heeds_plain fun _ hs => hs
  -- exit, kill
  · exact hsignal _ _ (by decide)
  · exact hsignal _ _ (by decide)

/-- Whether a command is one of the program's own kinds, with whatever it remembers by now. -/
def BuiltIn (o : Outside σ) (c : Command σ) : Prop :=
  ∃ d c₀, (Loading.command (Registry.builtin o) d).result = some c₀ ∧ c.forget = c₀.forget

/-- A placeholder skips anyway. -/
theorem skips_rejected (kind : String) (ps : Parameters) : (rejected (σ := σ) kind ps).action.Skips := fun _ _ s _ =>
  ⟨s, rfl, .refl s⟩

theorem BuiltIn.heeds {o : Outside σ} {c : Command σ} (h : c.BuiltIn o) :
    c.action.Heeds ∧ (c.kind ∈ asking → c.action.Skips) := by
  obtain ⟨d, c₀, hc₀, hforget⟩ := h
  have hrun : c.action.run = c₀.action.run := by
    have hrun := congrArg (fun c : Command σ => c.action.run) hforget
    exact hrun
  have hkind : c.kind = c₀.kind := by
    have hkind := congrArg Command.kind hforget
    exact hkind
  unfold Action.Heeds Action.Skips
  rw [hrun, hkind]
  obtain ⟨f, hf, ⟨b, hb, rfl⟩ | ⟨e, -, rfl⟩⟩ := loading_cases hc₀
  · exact heeds_of_mem_kinds hf d.parameters b hb
  · exact ⟨(skips_rejected _ _).heeds, fun _ => skips_rejected _ _⟩

end Command

/-! ## Passes -/

namespace Run

variable {m : Moment} {i : Nat} {c : Command σ} {s : Scene σ}

/-- A command leaves a run asked to stop if its action does. -/
theorem cancelled_after (h : c.action.Heeds) (hs : s.world.cancelled = true) :
    (stepAt m i c s).after.world.cancelled = true := by
  have hrun : (c.run m s).2.2.world.cancelled = true := h m c.action.memory s hs
  have hguarded : (runGuarded m c s).2.2.world.cancelled = true := by
    unfold runGuarded
    rcases hr : c.run m s with ⟨_ | _, _, s'⟩
    all_goals
      rw [hr] at hrun
      exact hrun
  unfold stepAt
  rcases hg : runGuarded m c s with ⟨signal, _, s'⟩
  rw [hg] at hguarded
  cases signal with
  | kill => rfl
  | proceed | skip | exit => exact hguarded

/-- A command that only skips has no effect but the record of its signal. -/
theorem stepAt_of_skips (h : c.action.Skips) (hs : s.world.cancelled = true) :
    (stepAt m i c s).signal = .skip ∧ (stepAt m i c s).command = c ∧ s.Spares (stepAt m i c s).after := by
  obtain ⟨s', hact, hs'⟩ := h m c.action.memory s hs
  have hrun : c.run m s = (.ok .skip, c, s') := by
    unfold Command.run
    rw [hact]
  have hstep : stepAt m i c s =
      ⟨i, s, .skip, c, s'.onWorld (·.note .trace target (c.kind ++ " -> " ++ Signal.skip.name))⟩ := by
    unfold stepAt runGuarded
    rw [hrun]
  rw [hstep]
  exact ⟨rfl, rfl, hs'.note (by decide) _⟩

/-- Once a run is asked to stop, it stays so in all steps of a pass. -/
theorem cancelled_of_mem_stepsFrom {responsive : Bool} {cs : List (Command σ)} (h : ∀ c ∈ cs, c.action.Heeds)
    (hs : s.world.cancelled = true) {st : Step σ} (hst : st ∈ stepsFrom responsive m i cs s) :
    st.before.world.cancelled = true := by
  fun_induction stepsFrom responsive m i cs s with
  | case1 => cases hst
  | case2 => cases hst
  | case3 i s c rest =>
    obtain rfl := List.mem_singleton.1 hst
    exact hs
  | case4 i s c rest _ first n _ ih =>
    rcases List.mem_cons.1 hst with rfl | hst
    · exact hs
    · refine ih (fun c hc => h c (List.mem_cons_of_mem _ (List.mem_of_mem_drop hc))) ?_ hst
      exact cancelled_after (h c (List.mem_cons_self ..)) hs

/-- **Nothing is done once a run is asked to stop.**  Then an evaluation has no value and a script comes to its end at
once; both leave all variables and the world as they are, but for records that no script has printed, and ask the host
for nothing but whether to go on.  In a pass that goes on all the same, the commands that depend on the value of an
expression skip, and do nothing else. -/
theorem spares_of_cancelled (o : Outside σ) (s : Scene σ) (hs : s.world.cancelled = true) :
    (∀ s', s.Spares s' →
      s'.sandbox.values = s.sandbox.values ∧ ∀ name, s'.sandbox.get? name = s.sandbox.get? name) ∧
    (∀ text, ∃ s', (Act.evaluate o text).run.run s = (.ok none, s') ∧ s.Spares s') ∧
    (∀ text, ∃ ran s', (Act.execute o text).run.run s = (.ok ran, s') ∧ s.Spares s') ∧
    (∀ (host : Lang.Host (World σ)) (limits : Limits) (p : Lang.Program),
      host.progress s.world = (Devices.host o s.sandbox.sleepPoll).progress s.world →
      (p.eval host limits Lang.Eval.endless).run.run s.store =
        (p.eval (Devices.host o s.sandbox.sleepPoll) limits Lang.Eval.endless).run.run s.store) ∧
    ∀ (m : Moment) (cs : List (Command σ)), (∀ c ∈ cs, c.BuiltIn o) →
      (interpret false m cs s).1.executed = (steps false m cs s).map Step.place ∧
      ∀ st ∈ steps false m cs s, st.before.world.cancelled = true ∧
        ∃ c, cs[st.place]? = some c ∧
          (c.kind ∈ Command.asking → st.signal = .skip ∧ st.command = c ∧ st.before.Spares st.after) := by
  have hprogress := Devices.progress_of_cancelled o s.sandbox.sleepPoll s.world hs
  refine ⟨fun s' h => ⟨h.values, h.get?⟩, fun text => ?_, fun text => ?_, fun host limits p hhost => ?_,
    fun m cs hcs => ⟨?_, fun st hst => ?_⟩⟩
  · obtain ⟨_, s', hrun, rfl, hs'⟩ := Act.evaluate_idles o text s hs
    exact ⟨s', hrun, hs'⟩
  · obtain ⟨ran, s', hrun, -, hs'⟩ := Act.execute_idles o text s hs
    exact ⟨ran, s', hrun, hs'⟩
  · rw [hprogress] at hhost
    rw [Lang.Program.eval_of_barred hhost, Lang.Program.eval_of_barred hprogress]
  · exact congrArg (fun r => r.1.executed) (interpretFrom_eq false m 0 cs s)
  · have hbefore : st.before.world.cancelled = true :=
      cancelled_of_mem_stepsFrom (fun c hc => (hcs c hc).heeds.1) hs hst
    obtain ⟨c, hc, heq⟩ := eq_stepAt hst
    refine ⟨hbefore, c, hc, fun hkind => ?_⟩
    have hskips := (hcs c (List.mem_of_getElem? hc)).heeds.2 hkind
    obtain ⟨hsignal, hcommand, hspares⟩ := stepAt_of_skips (m := m) (i := st.place) hskips hbefore
    rw [heq]
    exact ⟨hsignal, hcommand, hspares⟩

/-- A new scene whose run is asked to stop. -/
def stoppedScene : Scene Unit := ⟨.create .default (.obj []), (World.initial ()).cancel⟩

/-- The hypotheses of `spares_of_cancelled` are satisfiable: a script does not move the arm, and a variable is not set. -/
theorem spares_of_cancelled_stoppedScene :
    stoppedScene.world.cancelled = true ∧
      (∃ ran s', (Act.execute (Outside.nobody Unit) "robot.set_speed(0.5)").run.run stoppedScene = (.ok ran, s') ∧
        stoppedScene.Spares s') ∧
      ∃ c, (Loading.command (Registry.builtin (Outside.nobody Unit))
          ⟨"SetVariableCommand", [("expression", .str "1"), ("variable", .str "x")]⟩).result = some c ∧
        ∀ st ∈ steps false ⟨1, 0⟩ [c] stoppedScene, st.signal = .skip := by
  obtain ⟨-, -, hscript, -, hpass⟩ := spares_of_cancelled (Outside.nobody Unit) stoppedScene rfl
  obtain ⟨c, hc⟩ : ∃ c, (Loading.command (Registry.builtin (Outside.nobody Unit))
      ⟨"SetVariableCommand", [("expression", .str "1"), ("variable", .str "x")]⟩).result = some c :=
    ⟨_, rfl⟩
  have hkind : c.kind = "SetVariableCommand" := by
    obtain ⟨_, -, ⟨b, -, rfl⟩ | ⟨e, -, rfl⟩⟩ := Command.loading_cases hc
    · rfl
    · rfl
  have hbuilt : ∀ c' ∈ [c], c'.BuiltIn (Outside.nobody Unit) := by
    intro c' hc'
    obtain rfl := List.mem_singleton.1 hc'
    exact ⟨_, _, hc, rfl⟩
  refine ⟨rfl, hscript _, c, hc, fun st hst => ?_⟩
  obtain ⟨-, c', hc', hskip⟩ := (hpass ⟨1, 0⟩ [c] hbuilt).2 st hst
  obtain rfl := List.mem_singleton.1 (List.mem_of_getElem? hc')
  exact (hskip (by rw [hkind]; decide)).1

end Run
end ArmPilot
