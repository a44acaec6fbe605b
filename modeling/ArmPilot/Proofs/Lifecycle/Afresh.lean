import ArmPilot.Proofs.Lifecycle.Alike
import ArmPilot.Proofs.Lifecycle.Stock

/-!
# Starts

A start begins a run in a state that does not depend on what the interpreter has done before: the events are those of the
script as it was loaded, the sandbox holds the constants only, and flags, board, servos and speed are set.  So two
interpreters with different pasts and the same surroundings do the same from their starts on, and their worlds differ only
in what their logs had before (`Station.History.starts_afresh`).
-/

namespace ArmPilot

variable {σ ι : Type} {o : Outside σ}

namespace World

/-- A world with more in its logs from before. -/
def logged (told : List Log.Record) (called : List Robot.Call) (w : World σ) : World σ :=
  { w with records := w.records ++ told, robot := { w.robot with calls := called ++ w.robot.calls } }

/-- Whether something is done without regard to what the logs have from before. -/
def IgnoresLogs (f : World σ → World σ) : Prop := ∀ told called w, f (w.logged told called) = (f w).logged told called

/-- Whether the machines and those outside are as they are in another world, but for what a start sets. -/
structure Peers (w w' : World σ) : Prop where
  clock : w'.clock = w.clock
  position : w'.robot.position = w.robot.position
  gripper : w'.robot.gripper = w.robot.gripper
  moving : w'.robot.moving = w.robot.moving
  tracked : w'.tracked = w.tracked
  objects : w'.objects = w.objects
  frames : w'.frames = w.frames
  settings : w'.settings = w.settings
  moveTime : w'.moveTime = w.moveTime
  outside : w'.outside = w.outside

/-- A world in which a run begins, without what was in its logs before. -/
def ready (c : Config) (w : World σ) : World σ :=
  { w with
    cancelled := false
    visionExiting := false
    board := []
    records := []
    robot := { w.robot with
      exiting := false
      servos := true
      speed := c.defaultSpeed
      calls := [.servos true, .speed c.defaultSpeed] } }

theorem Peers.ready_eq {w w' : World σ} (h : w.Peers w') (c : Config) : w'.ready c = w.ready c := by
  obtain ⟨clock, cancelled, ⟨position, speed, gripper, servos, exiting, moving, calls⟩, visionExiting, tracked, objects,
    frames, settings, moveTime, board, records, outside⟩ := w
  obtain ⟨clock', cancelled', ⟨position', speed', gripper', servos', exiting', moving', calls'⟩, visionExiting', tracked',
    objects', frames', settings', moveTime', board', records', outside'⟩ := w'
  obtain ⟨rfl, rfl, rfl, rfl, rfl, rfl, rfl, rfl, rfl, rfl⟩ := h
  rfl

theorem startSteps_eq (c : Config) (w : World σ) :
    (Interpreter.startSteps c).foldl (fun w step => step w) w = (w.ready c).logged w.records w.robot.calls := by
  have hcalls : (w.robot.calls ++ [.servos true]) ++ [.speed c.defaultSpeed] =
      w.robot.calls ++ [.servos true, .speed c.defaultSpeed] := List.append_assoc ..
  unfold ready logged
  rw [← hcalls]
  rfl

end World

/-- Whether those outside have no regard to what the logs have from before. -/
structure Outside.IgnoresLogs (o : Outside σ) : Prop where
  turn : World.IgnoresLogs o.turn
  asked : ∀ name told called w, o.asked name (w.logged told called) = (o.asked name w).map (·.logged told called)

theorem Outside.ignoresLogs_nobody : (Outside.nobody σ).IgnoresLogs where
  turn _ _ _ := rfl
  asked _ _ _ _ := rfl

theorem Plea.ignoresLogs_act (p : Plea) : World.IgnoresLogs (σ := σ) p.act := by
  intro told called w
  cases p <;> rfl

/-- Worlds are tied that differ only in what their logs have from before. -/
def Tie.logs (ho : o.IgnoresLogs) (told told' : List Log.Record) (called called' : List Robot.Call) : Tie o where
  holds w w' := ∃ v : World σ, w = v.logged told called ∧ w' = v.logged told' called'
  machines := by
    rintro _ _ ⟨v, rfl, rfl⟩
    rfl
  rebuilt := by
    rintro _ _ ⟨v, rfl, rfl⟩ m more
    refine ⟨v.rebuilt m more, ?_, ?_⟩
    all_goals
      unfold World.rebuilt World.logged
      rw [List.append_assoc]
  called := by
    rintro _ _ ⟨v, rfl, rfl⟩ c
    refine ⟨v.called c, ?_, ?_⟩
    all_goals
      unfold World.called World.logged Robot.record
      rw [← List.append_assoc]
  turn := by
    rintro _ _ ⟨v, rfl, rfl⟩
    exact ⟨o.turn v, ho.turn .., ho.turn ..⟩
  asked := by
    rintro _ _ ⟨v, rfl, rfl⟩ name
    rw [ho.asked, ho.asked]
    cases o.asked name v with
    | error e => rfl
    | ok u => exact ⟨u, rfl, rfl⟩

theorem Tie.boards_logs (ho : o.IgnoresLogs) (told told' : List Log.Record) (called called' : List Robot.Call) :
    (Tie.logs ho told told' called called').Boards where
  shown := by
    rintro _ _ ⟨v, rfl, rfl⟩
    rfl
  written := by
    rintro _ _ ⟨v, rfl, rfl⟩ status
    exact ⟨{ v with board := status }, rfl, rfl⟩

/-! ## What an interpreter keeps -/

/-- Whether calls have loaded a script, and then have loaded nothing else, begun no run and lost no events. -/
def Loads (s : Script) (past : List (Call × Outcome σ)) : Prop :=
  ∃ before p since, past = before ++ p :: since ∧ loaded? p = some s ∧
    ∀ q ∈ since, (loaded? q = none ∧ spoils q = false) ∧ q.2.run = none

theorem loads_concat {s : Script} {past : List (Call × Outcome σ)} {report : Report} {run : Option (Run σ)}
    {ends : List (Ending σ)} : Loads s (past ++ [(.load s, ⟨.report report, run, ends⟩)]) :=
  ⟨past, _, [], rfl, rfl, by simp⟩

namespace Station

variable {act : ι → World σ → World σ} {fuel : Nat} {reg : Registry σ} {conf : Config} {k k₀ k₁ k' : Station σ} {c : Call}
  {r : Outcome σ} {past : List (Call × Outcome σ)}

/-- Whether an interpreter has a configuration, and its worker is kept beside it. -/
structure Configured (conf : Config) (k : Station σ) : Prop where
  config : k.desk.config = conf
  worker : k.desk.worker = .absent

theorem Configured.of_leads (hk : k.Configured conf) (h : k.Leads k₁) : k₁.Configured conf := by
  refine ⟨?_, ?_⟩
  · rw [h.desk]
    exact hk.config
  · rw [h.desk]
    exact hk.worker

theorem Configured.freed {ends : List (Ending σ)} (hk : k.Configured conf) (h : k.Freed k₀ ends) : k₀.Configured conf := by
  cases h with
  | idle => exact hk
  | collected hleads =>
    have hk₁ := hk.of_leads hleads
    exact ⟨hk₁.config, hk₁.worker⟩

theorem Configured.effect (hk : k.Configured conf) (h : Effect act o fuel k c r k') : k'.Configured conf := by
  cases h with
  | refused => exact hk.of_leads (leads_onWorld _ k)
  | broken _ hleads =>
    have hk₁ := hk.of_leads hleads
    exact ⟨hk₁.config, hk₁.worker⟩
  | loaded _ hfreed | hired hfreed | roomless hfreed | ranHere _ hfreed | brokeHere _ hfreed =>
    have hk₀ := hk.freed hfreed
    exact ⟨hk₀.config, hk₀.worker⟩
  | notStopped => exact hk
  | @stopped k₁ d e requested hleads =>
    have hk₁ := hk.of_leads hleads
    refine ⟨Eq.trans ?_ hk₁.config, hk₁.worker⟩
    cases e <;> rfl

theorem Configured.returns (hk : k.Configured conf) (h : Returns act o fuel k c r k') : k'.Configured conf := by
  by_cases hc : c = .stop ∨ c.refusal.isSome = true
  · exact hk.effect (h.effect hc)
  cases h with
  | load | start | notBegun | here | notStopped | stop => simp [Call.refusal] at hc
  | idle | status => exact hk
  | @wait forever ms d hd =>
    have hplay := hk.of_leads (leads_play act k ms)
    exact ⟨hplay.config, hplay.worker⟩
  | requestStop hrequests => exact hk.of_leads hrequests.leads
  | cancel => exact hk.of_leads (leads_onWorld _ k)

theorem History.configured {w : World σ} (h : History act o fuel (create conf reg w) past k) : k.Configured conf := by
  induction h with
  | start => exact ⟨rfl, rfl⟩
  | move m _ ih => exact ih.of_leads (leads_play act _ [m])
  | call _ hreturns ih => exact ih.returns hreturns

/-- Once a script has been loaded, its events are at hand and no worker is held. -/
theorem History.loaded {w : World σ} (h : History act o fuel (create conf reg w) past k) {s : Script}
    (hloads : Loads s past) : k.held = none ∧ k.desk.events = (load reg s).events ∧ k.desk.registry = reg := by
  obtain ⟨before, p, since, rfl, hp, hsince⟩ := hloads
  have hk := h.stocked
  have hbehind : Stock.behind reg (before ++ p :: since) =
      since.foldl (Stock.after reg) ((Stock.behind reg before).after reg p) := by
    unfold Stock.behind
    rw [List.foldl_append, List.foldl_cons]
  obtain ⟨hevents, hfresh⟩ := Stock.foldl_spares reg ((Stock.behind reg before).after reg p) fun q hq => (hsince q hq).1
  rw [Stock.after_of_loaded hp] at hbehind hevents hfresh
  rw [hbehind] at hk
  obtain ⟨hnone, hkept⟩ := hk.fresh (hfresh fun q hq => (hsince q hq).2)
  rw [kept_of_none hnone, hevents] at hkept
  exact ⟨hnone, hkept, hk.registry⟩

/-! ## What a start begins with -/

theorem Joins.eq_of_none (h : k.Joins act k₁) (hnone : k.held = none) : k₁ = k := by
  cases h with
  | now => rfl
  | left ms hfinished =>
    obtain ⟨d, hd, -⟩ := hfinished
    simp [hnone] at hd

theorem world_readied (k : Station σ) :
    k.desk.readied.world = (k.world.ready k.desk.config).logged k.world.records k.world.robot.calls :=
  World.startSteps_eq ..

theorem next_eq (k : Station σ) :
    k.next = ⟨k.desk.events, ⟨Sandbox.create k.desk.config k.world.settings,
      (k.world.ready k.desk.config).logged k.world.records k.world.robot.calls⟩, k.desk.config.tickPeriod, false⟩ := by
  unfold next Run.create
  rw [world_readied]
  rfl

theorem Returns.run_eq {threaded : Bool} {run : Run σ} (h : Returns act o fuel k (.start threaded) r k₁)
    (hnone : k.held = none) (hrun : r.run = some run) :
    run = k.next ∧ (threaded = true → k₁.desk.last = none ∧ k₁.world = run.scene.world) := by
  have hfreed {k₀ : Station σ} {ends : List (Ending σ)} (hfreed : k.Freed k₀ ends) : k₀ = k := by
    cases hfreed with
    | idle => rfl
    | collected _ hd => simp [hnone] at hd
  cases h.effect (.inr rfl) with
  | refused | broken | roomless => cases hrun
  | hired hf =>
    obtain rfl := hfreed hf
    obtain rfl := Option.some.inj hrun
    exact ⟨rfl, fun _ => ⟨rfl, rfl⟩⟩
  | ranHere _ hf | brokeHere _ hf =>
    obtain rfl := hfreed hf
    exact ⟨(Option.some.inj hrun).symm, nofun⟩

/-- An interpreter that holds no worker, as it is when a run begins. -/
def readied (k : Station σ) : Interpreter σ := { k.desk.readied with worker := .absent }

theorem run_prepare_of_none (hnone : k.held = none) :
    Interpreter.prepare.run.run k.seen = (.ok k.next, k.readied) :=
  (Interpreter.run_prepare _).trans ((replaces_of_none hnone).entering _ _)

theorem run_start_of_none (hnone : k.held = none) :
    Interpreter.start.run.run k.seen = (Interpreter.hire k.next).run.run k.readied :=
  (Interpreter.run_start _).trans ((replaces_of_none hnone).entering _ _)

/-- Interpreters that hold no worker begin the same run when they start, if they are ready in tied worlds. -/
theorem returns_start_alike {T : Tie o} (hT : T.Boards) (hact : ∀ i w w', T.holds w w' → T.holds (act i w) (act i w'))
    {threaded : Bool} (hnone : k.held = none) (hnone' : k'.held = none) (hworker : k.desk.worker.Alike T k'.desk.worker)
    (hready : k.readied.Alike T k'.readied) (hnext : k.next.Alike T k'.next)
    (hreturns : Returns act o fuel k (.start threaded) r k₁) :
    ∃ r' k₁', Returns act o fuel k' (.start threaded) r' k₁' ∧ r.Alike T r' ∧ k₁.Alike T k₁' := by
  have hheld : Option.Rel (Held.Alike T) k.held k'.held := by
    rw [hnone, hnone']
    exact .none
  have hrunning : k'.seen.isRunning = k.seen.isRunning := by
    rw [seen_of_none hnone, seen_of_none hnone']
    rfl
  have hended : k'.ended = k.ended := by rw [ended_of_none hnone, ended_of_none hnone']
  cases hreturns with
  | start hjoin hrun =>
    obtain rfl := hjoin.eq_of_none hnone
    obtain ⟨hresult, hleft⟩ := hready.hire hnext
    rw [run_start_of_none hnone] at hrun
    rcases hrun' : (Interpreter.hire k'.next).run.run k'.readied with ⟨r', i'⟩
    rw [hrun, hrun'] at hresult hleft
    exact ⟨_, _, .start (joins_of_none hnone') ((run_start_of_none hnone').trans hrun'),
      ⟨congrArg (Session.Reply.of _) hresult, handed_alike hrunning hleft, hended⟩,
      settle_alike hT fuel hworker hheld hrunning hleft⟩
  | notBegun hjoin hrun =>
    obtain rfl := hjoin.eq_of_none hnone
    rw [run_prepare_of_none hnone] at hrun
    cases hrun
  | here ms hjoin hrun hplay hback =>
    obtain rfl := hjoin.eq_of_none hnone
    rw [run_prepare_of_none hnone] at hrun
    obtain ⟨hr, rfl⟩ := Prod.mk.inj hrun
    obtain rfl := Except.ok.inj hr
    obtain ⟨htame, s', hplay', hworld⟩ := exists_returns_here hT hact hnext hplay
    obtain ⟨hresult, hleft⟩ := (hready.withWorld hworld).handBack htame
    rw [hback] at hresult hleft
    generalize hback' : (Interpreter.handBack _).run.run _ = back at hresult hleft
    obtain ⟨answer', j'⟩ := back
    obtain rfl : answer' = .ok _ := hresult
    refine ⟨_, _, .here ms (joins_of_none hnone') (run_prepare_of_none hnone') hplay' hback', ⟨rfl, .some hnext, ?_⟩, ?_⟩
    · exact congrArg (· ++ _) hended
    · exact settle_alike hT fuel hworker hheld hrunning hleft

/-- Interpreters that have loaded the same script are alike when they begin a run, in tied worlds. -/
theorem ready_alike {T : Tie o} {s : Script} (hk : k.Configured conf) (hk' : k'.Configured conf)
    (hreg : k.desk.registry = reg) (hreg' : k'.desk.registry = reg) (htame : reg.Tame o)
    (hevents : k.desk.events = (load reg s).events) (hevents' : k'.desk.events = (load reg s).events)
    (hworlds : T.holds k.desk.readied.world k'.desk.readied.world) :
    k.readied.Alike T k'.readied ∧ k.next.Alike T k'.next := by
  refine ⟨?_, ?_⟩
  · exact {
      config := hk'.config.trans hk.config.symm
      registry := hreg'.trans hreg.symm
      kinds := hreg ▸ htame
      events := rfl
      tame := by simp [readied, Interpreter.readied]
      worker := .absent
      last := rfl
      world := hworlds }
  · unfold next
    rw [hk.config, hk'.config, hevents, hevents']
    exact Interpreter.alike_create (fun e he => htame.events he) hworlds

/-- **A start begins afresh.**  Whatever has been called before, once a script has been loaded, a start begins a run of its
events as they were loaded, with a sandbox that holds the constants only, in a world in which nothing of the past is left
but the logs.  Another interpreter with another past does the same from its start on, if the machines and those outside
are as they are here: what this one can come to by calls, that one comes to by the same calls with the same replies, and
their worlds differ in what the logs have from before. -/
theorem History.starts_afresh {s : Script} {w : World σ} {threaded : Bool}
    (h : History act o fuel (create conf reg w) past k) (hloads : Loads s past)
    (hstart : Returns act o fuel k (.start threaded) r k₁) :
    (r.reply = .done → ∃ run, r.run = some run) ∧
    (∀ run, r.run = some run →
      run = ⟨(load reg s).events, ⟨Sandbox.create conf k.world.settings,
        (k.world.ready conf).logged k.world.records k.world.robot.calls⟩, conf.tickPeriod, false⟩ ∧
      (threaded = true → k₁.desk.last = none ∧ k₁.world = run.scene.world)) ∧
    ∀ (ho : o.IgnoresLogs), (∀ i, World.IgnoresLogs (act i)) → reg.Tame o →
      ∀ w' past' k', History act o fuel (create conf reg w') past' k' → Loads s past' → k.world.Peers k'.world →
        let T := Tie.logs ho k.world.records k'.world.records k.world.robot.calls k'.world.robot.calls
        ∃ r' k₁', Returns act o fuel k' (.start threaded) r' k₁' ∧ r.Alike T r' ∧ k₁.Alike T k₁' ∧
          ∀ later k₂, History act o fuel k₁ later k₂ →
            ∃ later' k₂', History act o fuel k₁' later' k₂' ∧
              List.Forall₂ (fun p p' => p'.1 = p.1 ∧ p.2.Alike T p'.2) later later' ∧ k₂.Alike T k₂' := by
  obtain ⟨hnone, hevents, hkinds⟩ := h.loaded hloads
  have hk := h.configured
  refine ⟨fun hdone => ?_, fun run hrun => ?_, ?_⟩
  · cases hstart.effect (.inr rfl) with
    | refused | broken | roomless | brokeHere => cases hdone
    | hired | ranHere => exact ⟨_, rfl⟩
  · obtain ⟨rfl, hlast⟩ := hstart.run_eq hnone hrun
    rw [← hevents, ← hk.config]
    exact ⟨next_eq k, hlast⟩
  intro ho hact htame w' past' k' h' hloads' hpeers T
  obtain ⟨hnone', hevents', hkinds'⟩ := h'.loaded hloads'
  have hk' := h'.configured
  have hT : T.Boards := Tie.boards_logs ..
  have hacts : ∀ i w w', T.holds w w' → T.holds (act i w) (act i w') := by
    rintro i _ _ ⟨v, rfl, rfl⟩
    exact ⟨act i v, hact i .., hact i ..⟩
  -- what a start does not set is the same in both worlds
  have hworlds : T.holds k.desk.readied.world k'.desk.readied.world := by
    rw [world_readied, world_readied, hk.config, hk'.config, hpeers.ready_eq]
    exact ⟨k.world.ready conf, rfl, rfl⟩
  obtain ⟨hready, hnext⟩ := ready_alike hk hk' hkinds hkinds' htame hevents hevents' hworlds
  have hworker : k.desk.worker.Alike T k'.desk.worker := by
    rw [hk.worker, hk'.worker]
    exact .absent
  obtain ⟨r', k₁', hstart', hr, halike⟩ := returns_start_alike hT hacts hnone hnone' hworker hready hnext hstart
  exact ⟨r', k₁', hstart', hr, halike, fun later k₂ hlater => halike.history hT hacts hlater⟩

/-- The hypotheses of `History.starts_afresh` are satisfiable: a script is loaded and started at once, and elsewhere after
another script was loaded and a stop was asked for, which is still to be seen. -/
theorem History.starts_afresh_endingScript :
    let act : Plea → World Unit → World Unit := Plea.act
    let o := Outside.nobody Unit
    let reg := Registry.builtin o
    let k₀ := create Config.default reg (World.initial ())
    ∃ past k past' k', History act o 2 k₀ past k ∧ Loads Interpreter.endingScript past ∧
      History act o 2 k₀ past' k' ∧ Loads Interpreter.endingScript past' ∧
      k'.world.cancelled = true ∧ k'.world.robot.exiting = true ∧
      ∃ r k₁ run, Returns act o 2 k (.start true) r k₁ ∧ r.run = some run ∧
        run.events = (load reg Interpreter.endingScript).events ∧ run.events ≠ [] ∧
        ∃ (T : Tie o) (r' : Outcome Unit) (k₁' : Station Unit), Returns act o 2 k' (.start true) r' k₁' ∧
          r.Alike T r' ∧ k₁.Alike T k₁' := by
  intro act o reg k₀
  have hload : Returns act o 2 k₀ (.load Interpreter.endingScript) _ _ :=
    (replaces_of_none rfl).returns_load (joins_of_none rfl) Interpreter.endingScript
  have hstart : Returns act o 2 ⟨k₀.desk.loaded Interpreter.endingScript, none, []⟩ (.start true) _ _ :=
    (replaces_of_none rfl).returns_start (joins_of_none rfl) rfl
  have hhistory := History.start.call hload
  let k₁ : Station Unit := ⟨k₀.desk.loaded ⟨[]⟩, none, []⟩
  let k₂ : Station Unit := (k₁.onWorld Plea.raise.act).onWorld Plea.cancel.act
  have hother : Returns act o 2 k₀ (.load ⟨[]⟩) _ k₁ := (replaces_of_none rfl).returns_load (joins_of_none rfl) ⟨[]⟩
  have hrequest : Returns act o 2 k₁ .requestStop _ k₂ := .requestStop ⟨[], rfl⟩
  have hload' : Returns act o 2 k₂ (.load Interpreter.endingScript) _ _ :=
    (replaces_of_none rfl).returns_load (joins_of_none rfl) Interpreter.endingScript
  have hhistory' := ((History.start.call hother).call hrequest).call hload'
  obtain ⟨-, hbegins, hothers⟩ := hhistory.starts_afresh loads_concat hstart
  obtain ⟨hrun, -⟩ := hbegins _ rfl
  obtain ⟨r', k₁', hstart', hr, halike, -⟩ := hothers Outside.ignoresLogs_nobody Plea.ignoresLogs_act
    (Registry.tame_builtin o) _ _ _ hhistory' loads_concat ⟨rfl, rfl, rfl, rfl, rfl, rfl, rfl, rfl, rfl, rfl⟩
  exact ⟨_, _, _, _, hhistory, loads_concat, hhistory', loads_concat, rfl, rfl, _, _, _, hstart, rfl, congrArg Run.events hrun,
    by decide +kernel, _, r', k₁', hstart', hr, halike⟩

end Station
end ArmPilot
