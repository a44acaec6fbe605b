import ArmPilot.Interpreter.Basic

/-!
# A session with the interpreter

A user gives orders to an interpreter, one after the other.  An order takes no time unless it waits.  A worker
begins when the user first waits, and from then on the user acts as soon as what is waited for happens: what
the user still wants to do during the run is an agenda, and what was seen is noted for the replies.
-/

namespace ArmPilot

/-- What the user of an interpreter does while a worker is running. -/
inductive Errand where
  /-- Looks at the world. -/
  | look
  /-- Tells something about the run. -/
  | tell (level : Log.Level) (text : String)
  | requestStop
  | cancel
  /-- Waits for the end of the run, for at most a time. -/
  | wait (time : Nat)
  /-- Waits until a call reaches the arm, for at most a time. -/
  | awaitCall (text : String) (time : Nat)
  /-- Stops the run and waits for its end. -/
  | stop

/-- What is seen of the world at the end of an errand. -/
structure Sighting where
  board : Status
  robot : Robot
  visionExiting : Bool
  cancelled : Bool
  /-- Whether what was waited for has happened. -/
  happened : Bool

/-- How an errand stands that is under way. -/
structure Progress where
  /-- When it began. -/
  since : Nat
  /-- When the user last looked for what is waited for. -/
  looked : Nat
deriving Repr, DecidableEq

/-- The user during a run. -/
structure Attendant where
  agenda : List Errand
  /-- How the first errand of the agenda stands, if it is under way. -/
  progress : Option Progress
  /-- What was seen at the ends of the errands so far, the latest first. -/
  sightings : List Sighting

/-- A user with nothing to do. -/
def Attendant.idle : Attendant := ⟨[], none, []⟩

namespace Session

/-- Whether a call has reached the arm. -/
def hasCall (r : Robot) (text : String) : Bool := r.calls.any (·.text = text)

/-- What can be seen of the world now. -/
def sight (w : World Attendant) (happened : Bool) : Sighting :=
  ⟨w.board, w.robot, w.visionExiting, w.cancelled, happened⟩

/-- The time between two looks for a call. -/
def lookTime : Nat := 1000000

/-- Whether what an errand waits for has happened when the errand is done, and `none` while it is under way.  A call
is seen only when the user `looks`. -/
def Errand.outcome? (since : Nat) (looks : Bool) (w : World Attendant) : Errand → Option Bool
  | .look | .tell _ _ | .requestStop | .cancel => some true
  | .wait time => if since + time ≤ w.clock then some false else none
  | .awaitCall text time =>
    if looks && hasCall w.robot text then some true
    else if since + time ≤ w.clock then some false
    else none
  | .stop => none

/-- What an errand does to the world when it begins. -/
def Errand.enter (w : World Attendant) : Errand → World Attendant
  | .tell level text => w.note level Run.target text
  | .requestStop | .stop => w.requestStop
  | .cancel => w.cancel
  | .look | .wait _ | .awaitCall _ _ => w

/-- Does the errands of an agenda as far as they can be done now, the first of them as it stands. -/
def attendTo : List Errand → Option Progress → World Attendant → World Attendant
  | [], _, w => { w with outside := { w.outside with agenda := [], progress := none } }
  | e :: rest, begun, w =>
    let w := if begun.isNone then Errand.enter w e else w
    let p := begun.getD ⟨w.clock, w.clock⟩
    let looks := begun.isNone || p.looked + lookTime ≤ w.clock
    match Errand.outcome? p.since looks w e with
    | none =>
      let p := if looks then { p with looked := w.clock } else p
      { w with outside := { w.outside with agenda := e :: rest, progress := some p } }
    | some happened =>
      attendTo rest none { w with outside := { w.outside with sightings := sight w happened :: w.outside.sightings } }

/-- The user's turn. -/
def attend (w : World Attendant) : World Attendant := attendTo w.outside.agenda w.outside.progress w

/-- A camera by its answer to a question. -/
abbrev Camera := String → World Attendant → Except String (World Attendant)

/-- The user and a camera as those outside of a run. -/
def outside (camera : Camera) : Outside Attendant := ⟨attend, camera⟩

/-- An order to the interpreter. -/
inductive Order where
  | load (s : Script)
  | registerCommand (tag : String) (f : Command.Factory Attendant)
  | registerEvent (tag : String) (f : Event.Factory Attendant)
  | start (threaded : Bool)
  | wait (time : Nat)
  | awaitCall (text : String) (time : Nat)
  | stop
  | requestStop
  | cancel
  | status
  | state
  | robot
  /-- Tells something about the run if it is still under way. -/
  | remark (text : String)

/-- The state of an interpreter as its user sees it. -/
structure Overview where
  running : Bool
  exiting : Bool
  cancelled : Bool
  /-- How many events are loaded. -/
  events : Nat
  last : Option Summary

/-- A reply to an order. -/
inductive Reply where
  | done
  | report (r : Report)
  | ended (b : Bool)
  | seen (b : Bool)
  | summary (s : Summary)
  | status (s : RunStatus)
  | state (o : Overview)
  | robot (s : Sighting)
  | failed (e : LifecycleError)
  | refused (e : RegistryError)
  | broken (b : Breakdown)

/-- The errand of an order that is given while a worker is running. -/
def Order.errand : Order → Errand
  | .load _ => .tell .error Interpreter.loadRefused
  | .start _ => .tell .error Interpreter.startRefused
  | .registerCommand _ _ | .registerEvent _ _ | .status | .state | .robot => .look
  | .wait time => .wait time
  | .awaitCall text time => .awaitCall text time
  | .stop => .stop
  | .requestStop => .requestStop
  | .cancel => .cancel
  | .remark text => .tell .info text

/-- The reply to a registration, which is told if it is made. -/
def registered (i : Interpreter Attendant) (category : Category) (tag : String)
    (r : Except RegistryError (Registry Attendant)) : Reply × Interpreter Attendant :=
  match r with
  | .ok r =>
    let record := Registry.registered category tag
    (.done, { i with registry := r, world := i.world.note record.level record.target record.text })
  | .error e => (.refused e, i)

/-- The reply to an order of which an errand was made that is done, by what was seen at its end. -/
def replyDuring (i : Interpreter Attendant) (s : Sighting) : Order → Reply × Interpreter Attendant
  | .load _ | .start _ => (.failed .alreadyRunning, i)
  | .registerCommand tag f => registered i .command tag (i.registry.registerCommand tag f)
  | .registerEvent tag f => registered i .event tag (i.registry.registerEvent tag f)
  | .wait _ => (.ended s.happened, i)
  | .awaitCall _ _ => (.seen s.happened, i)
  | .status => (.status (.running s.board), i)
  | .state => (.state ⟨true, s.cancelled, s.cancelled, 0, i.last⟩, i)
  | .robot => (.robot s, i)
  | .stop | .requestStop | .cancel | .remark _ => (.done, i)

/-- The reply to each of the orders whose errands were done. -/
def repliesDuring : List Order → List Sighting → Interpreter Attendant → List Reply × Interpreter Attendant
  | o :: orders, s :: sightings, i =>
    let (r, i) := replyDuring i s o
    let (rs, i) := repliesDuring orders sightings i
    (r :: rs, i)
  | _, _, i => ([], i)

/-- The reply of a control. -/
def replyOf {α : Type} (f : α → Reply) (c : Interpreter.Control Attendant α) (i : Interpreter Attendant) :
    Reply × Interpreter Attendant :=
  let (r, i) := c.run.run i
  (match r with
   | .ok a => f a
   | .error e => .failed e, i)

/-- The reply to an order while no run is under way, with at most `fuel` ticks for a run that it makes.  A stop
was requested at `requested`. -/
def replyNow (camera : Camera) (fuel requested : Nat) (i : Interpreter Attendant) :
    Order → Reply × Interpreter Attendant
  | .load s => replyOf .report (Interpreter.load s) i
  | .registerCommand tag f => registered i .command tag (i.registry.registerCommand tag f)
  | .registerEvent tag f => registered i .event tag (i.registry.registerEvent tag f)
  | .start true => replyOf (fun _ => .done) Interpreter.start i
  | .start false =>
    replyOf (fun r => match r with | .ok _ => .done | .error b => .broken b)
      (Interpreter.runHere (outside camera) fuel) i
  | .wait _ => (.ended true, i)
  | .awaitCall text _ => (.seen (hasCall i.world.robot text), i)
  | .stop =>
    if i.hasWorker then replyOf .summary (Interpreter.finishStop requested) i else (.failed .notRunning, i)
  | .requestStop => (.done, { i with world := i.world.requestStop })
  | .cancel => (.done, { i with world := i.world.cancel })
  | .status => (.status i.status, i)
  | .state => (.state ⟨i.isRunning, i.isExiting, i.world.cancelled, i.events.length, i.last⟩, i)
  | .robot => (.robot (sight i.world true), i)
  | .remark text =>
    (.done, if i.isRunning then { i with world := i.world.note .info Run.target text } else i)

/-- Whether an order makes its user wait for a worker. -/
def Order.waits : Order → Bool
  | .wait _ | .awaitCall _ _ | .stop => true
  | _ => false

/-- Follows a worker to its end while the user does errands: what was seen, and since when the errand at the end of
the run is under way. -/
def followDuring (camera : Camera) (fuel : Nat) (orders : List Order) (i : Interpreter Attendant) :
    List Sighting × Option Nat × Interpreter Attendant :=
  let w := { i.world with outside := ⟨orders.map Order.errand ++ [.stop], none, []⟩ }
  let i := Interpreter.follow (outside camera) fuel { i with world := attend w }
  let a := i.world.outside
  (a.sightings.reverse, a.progress.map (·.since), { i with world := { i.world with outside := .idle } })

/-- The replies to orders, in at most `fuel` rounds of which each replies to some of them, and with at most
`ticks` ticks for every run.  `requested` says since when a stop is under way. -/
def replies (camera : Camera) (ticks : Nat) :
    Nat → Option Nat → List Order → Interpreter Attendant → List Reply × Interpreter Attendant
  | _, _, [], i => ([], i)
  | 0, _, _, i => ([], i)
  | fuel + 1, requested, o :: rest, i =>
    if i.isRunning && o.waits then
      let (sightings, since, i) := followDuring camera ticks (o :: rest) i
      let (rs, i) := repliesDuring (o :: rest) sightings i
      let (more, i) := replies camera ticks fuel since ((o :: rest).drop rs.length) i
      (rs ++ more, i)
    else
      -- a stop that finds a worker at its end makes the machines inert for a moment
      let i := match o, requested with
        | .stop, none => if i.hasWorker then { i with world := i.world.requestStop } else i
        | _, _ => i
      let (r, i) := replyNow camera ticks (requested.getD i.world.clock) i o
      let (more, i) := replies camera ticks fuel none rest i
      (r :: more, i)

/-- The replies to the orders of a session. -/
def play (camera : Camera) (ticks : Nat) (orders : List Order) (i : Interpreter Attendant) :
    List Reply × Interpreter Attendant :=
  replies camera ticks (2 * orders.length + 1) none orders i

end Session
end ArmPilot
