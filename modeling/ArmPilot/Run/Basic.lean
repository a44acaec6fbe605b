import ArmPilot.Event.Basic
import ArmPilot.Run.Pass
import ArmPilot.Run.Schedule

/-!
# Running a script

In every tick the events are asked in turn whether they are active, and the commands of those that are get
run, until the run is asked to stop.  Then the first event of the role `destroy` is run once, with the request
withdrawn and the machines at work.
-/

namespace ArmPilot

/-- What a run has done. -/
structure Summary where
  ticks : Nat
  /-- The commands that ran in the last tick. -/
  status : Status
  values : List (String × Lang.Value)
  /-- Whether a command ended the program. -/
  killed : Bool

/-- A status as a document value. -/
def Status.toJson (s : Status) : Json :=
  .obj (s.map fun (i, executed) => (toString i, .arr (executed.map fun (n : Nat) => Json.ofInt n)))

/-- A summary as a document value. -/
def Summary.toJson (s : Summary) : Json :=
  .obj [("ticks", .ofInt s.ticks), ("status", s.status.toJson),
    ("variables", .obj (s.values.map fun (k, v) => (k, v.toJson))), ("killed", .bool s.killed)]

/-- A run of events in a scene. -/
structure Run (σ : Type) where
  events : List (Event σ)
  scene : Scene σ
  period : Nat
  killed : Bool

/-- How a run ends. -/
inductive Ending (σ : Type) where
  | finished (events : List (Event σ)) (summary : Summary)
  /-- A trigger broke down. -/
  | broken (b : Breakdown)
  /-- The run was not followed to its end. -/
  | unfinished

/-- Sets the commands that ran for an event, in the order of the events. -/
def Status.insert (i : Nat) (executed : List Nat) : Status → Status
  | [] => [(i, executed)]
  | (j, es) :: rest =>
    if i < j then (i, executed) :: (j, es) :: rest
    else if i = j then (i, executed) :: rest
    else (j, es) :: Status.insert i executed rest

namespace Run

variable {σ : Type}

/-- A run of events in a world, with a sandbox of its own. -/
def create (c : Config) (events : List (Event σ)) (w : World σ) : Run σ :=
  ⟨events, ⟨Sandbox.create c w.settings, w⟩, c.tickPeriod, false⟩

/-- What a tick did. -/
structure Tick (σ : Type) where
  /-- The events with their memories after the tick. -/
  events : List (Event σ)
  killed : Bool
  /-- Why the tick broke off, if it did. -/
  breakdown : Option Breakdown

/-- A tick after an event was visited before. -/
def Tick.behind (t : Tick σ) (e : Event σ) (killed : Bool) : Tick σ :=
  { t with events := e :: t.events, killed := killed || t.killed }

/-- Shows on the board what ran in the tick. -/
def publish (status : Status) (s : Scene σ) : Scene σ := s.onWorld fun w => { w with board := status }

/-- The events of a tick from a place on, after those that ran before. -/
def tickFrom (m : Moment) : Nat → Status → List (Event σ) → Scene σ → Tick σ × Scene σ
  | _, _, [], s => (⟨[], false, none⟩, s)
  | i, status, e :: rest, s =>
    if s.world.cancelled then (⟨e :: rest, false, none⟩, s)
    else if e.role = .destroy then
      let (t, s) := tickFrom m (i + 1) status rest s
      (t.behind e false, s)
    else
      match e.poll m s with
      | (.error b, e, s) => (⟨e :: rest, false, some b⟩, s)
      | (.ok false, e, s) =>
        let (t, s) := tickFrom m (i + 1) status rest s
        (t.behind e false, s)
      | (.ok true, e, s) =>
        let (p, s) := interpret true m e.commands s
        let status := Status.insert i p.executed status
        let (t, s) := tickFrom m (i + 1) status rest (publish status s)
        (t.behind { e with commands := p.commands } p.killed, s)

/-- One tick: the board is cleared, then the events are visited. -/
def tick (m : Moment) (events : List (Event σ)) (s : Scene σ) : Tick σ × Scene σ :=
  tickFrom m 0 [] events (publish [] s)

/-- Tells something about the run. -/
def tell (text : String) (s : Scene σ) : Scene σ := s.onWorld (·.note .info target text)

/-- Runs the commands of an event when the program ends: the machines are at work meanwhile, and the run is asked
to stop again afterwards. -/
def runDestroy (started i : Nat) (e : Event σ) (s : Scene σ) : Event σ × Scene σ :=
  let s := (tell "Running destroy event" s).onWorld fun w => w.reset.setExiting false
  let (p, s) := interpret false ⟨0, started⟩ e.commands s
  let s := publish (Status.insert i p.executed s.world.board) s
  ({ e with commands := p.commands }, s.onWorld fun w => (w.setExiting true).cancel)

/-- Runs the first event of the role `destroy`, if there is one. -/
def shutdown (started : Nat) (events : List (Event σ)) (s : Scene σ) : List (Event σ) × Scene σ :=
  match events.findIdx? (·.role = .destroy) with
  | none => (events, s)
  | some i =>
    match events[i]? with
    | none => (events, s)
    | some e =>
      let (e, s) := runDestroy started i e s
      (events.set i e, s)

/-- The ticks of a run, at most `fuel` more after the first `n`: how many there were in all, or why they broke off. -/
def ticks (o : Outside σ) (started : Nat) :
    Nat → Nat → Schedule → Run σ → Option (Except Breakdown Nat) × Run σ
  | 0, _, _, r => (none, r)
  | fuel + 1, n, schedule, r =>
    if r.scene.world.cancelled then (some (.ok n), r)
    else
      match schedule.wait o r.scene.sandbox.sleepPoll r.scene.world with
      | (false, _, w) => (some (.ok n), { r with scene := { r.scene with world := w } })
      | (true, schedule, w) =>
        let (t, s) := tick ⟨n + 1, started⟩ r.events { r.scene with world := w }
        let r := { r with events := t.events, scene := s, killed := r.killed || t.killed }
        match t.breakdown with
        | some b => (some (.error b), r)
        | none => ticks o started fuel (n + 1) schedule r

/-- What a run tells at its start. -/
def greeting (r : Run σ) : String :=
  "Starting program: " ++ toString r.events.length ++ " event(s), tick period " ++ durationText r.period

/-- A run from its start to its end, in at most `fuel` ticks. -/
def execute (o : Outside σ) (fuel : Nat) (r : Run σ) : Ending σ × World σ :=
  let r := { r with scene := tell (greeting r) r.scene }
  let started := r.scene.world.clock
  match ticks o started fuel 0 (.start r.period started) r with
  | (none, r) => (.unfinished, r.scene.world)
  | (some (.error b), r) => (.broken b, r.scene.world)
  | (some (.ok n), r) =>
    let s := tell ("Program stopping after " ++ toString n ++ " tick(s)") r.scene
    let (events, s) := shutdown started r.events s
    (.finished events ⟨n, s.world.board, s.sandbox.values, r.killed⟩, s.world)

end Run
end ArmPilot
