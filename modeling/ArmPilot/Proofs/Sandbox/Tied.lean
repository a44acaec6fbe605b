import ArmPilot.Command.Kinds
import ArmPilot.Proofs.Arm
import ArmPilot.Proofs.Lang.Tied.Statement

/-!
# Scenes side by side

A `Tie` relates worlds with the same machines, whose boards, logs and outsiders may differ, and so may the calls that have
reached the arm.  Scripts reach a world through its machines, its logs and those outside: from tied worlds they come to the
same end, and leave tied worlds (`Act.evalProgram_tied`).
-/

namespace ArmPilot

open Lang (Value AlikeOn)

variable {σ α β : Type}

namespace World

/-- A world without its board, its logs and what those outside remember. -/
def machines (w : World σ) : World Unit :=
  { clock := w.clock, cancelled := w.cancelled, robot := { w.robot with calls := [] }, visionExiting := w.visionExiting,
    tracked := w.tracked, objects := w.objects, frames := w.frames, settings := w.settings, moveTime := w.moveTime,
    board := [], records := [], outside := () }

/-- A world with other machines, and with more in its log. -/
def rebuilt (w : World σ) (m : World Unit) (told : List Log.Record) : World σ :=
  { clock := m.clock, cancelled := m.cancelled, robot := { m.robot with calls := w.robot.calls },
    visionExiting := m.visionExiting, tracked := m.tracked, objects := m.objects, frames := m.frames,
    settings := m.settings, moveTime := m.moveTime, board := w.board, records := told ++ w.records, outside := w.outside }

/-- A world in which a call has reached the arm. -/
def called (c : Robot.Call) (w : World σ) : World σ := { w with robot := w.robot.record c }

end World

/-- A relation of worlds with the same machines, which stays whatever is done with them, and which those outside keep. -/
structure Tie (o : Outside σ) where
  holds : World σ → World σ → Prop
  machines : ∀ {w w'}, holds w w' → w'.machines = w.machines
  rebuilt : ∀ {w w'}, holds w w' → ∀ m told, holds (w.rebuilt m told) (w'.rebuilt m told)
  called : ∀ {w w'}, holds w w' → ∀ c, holds (w.called c) (w'.called c)
  turn : ∀ {w w'}, holds w w' → holds (o.turn w) (o.turn w')
  asked : ∀ {w w'}, holds w w' → ∀ name,
    match o.asked name w, o.asked name w' with
    | .ok u, .ok u' => holds u u'
    | .error e, .error e' => e = e'
    | _, _ => False

namespace Tie

variable {o : Outside σ} (T : Tie o)

/-- Whether two scenes have the same sandbox in tied worlds. -/
def Scenes (s s' : Scene σ) : Prop := s'.sandbox = s.sandbox ∧ T.holds s.world s'.world

variable {T} {w w' : World σ}

/-- What is done with the machines by what they are like. -/
theorem change (h : T.holds w w') (f : World Unit → World Unit) (told : World Unit → List Log.Record) :
    T.holds (w.rebuilt (f w.machines) (told w.machines)) (w'.rebuilt (f w'.machines) (told w'.machines)) := by
  rw [T.machines h]
  exact T.rebuilt h _ _

theorem note (h : T.holds w w') (level : Log.Level) (target text : String) :
    T.holds (w.note level target text) (w'.note level target text) :=
  T.change h id fun _ => [⟨level, target, text⟩]

theorem advance (h : T.holds w w') (d : Nat) : T.holds (w.advance o d) (w'.advance o d) :=
  T.turn (T.change h (fun m => { m with clock := m.clock + d }) fun _ => [])

theorem clock (h : T.holds w w') : w'.clock = w.clock := (congrArg World.clock (T.machines h) :)

theorem cancelled (h : T.holds w w') : w'.cancelled = w.cancelled := (congrArg World.cancelled (T.machines h) :)

theorem exiting (h : T.holds w w') : w'.robot.exiting = w.robot.exiting :=
  (congrArg (fun m => m.robot.exiting) (T.machines h) :)

/-- What is done with the arm but for its calls. -/
theorem onArm (h : T.holds w w') {f : Robot → Robot} (hf : ∀ r cs, f { r with calls := cs } = { f r with calls := cs }) :
    T.holds { w with robot := f w.robot } { w' with robot := f w'.robot } := by
  have hrobot (v : World σ) : v.rebuilt { v.machines with robot := f v.machines.robot } [] = { v with robot := f v.robot } := by
    have hcalls := hf v.machines.robot v.robot.calls
    exact congrArg (fun r => { v with robot := r }) hcalls.symm
  rw [← hrobot w, ← hrobot w']
  exact T.change h (fun m => { m with robot := f m.robot }) fun _ => []

/-- A call that the arm obeys unless a stop is under way. -/
theorem obeyed (h : T.holds w w') (c : Robot.Call) {f : Robot → Robot}
    (hf : ∀ r cs, f { r with calls := cs } = { f r with calls := cs }) :
    T.holds { w with robot := if w.robot.exiting then w.robot else f (w.robot.record c) }
      { w' with robot := if w'.robot.exiting then w'.robot else f (w'.robot.record c) } := by
  rw [T.exiting h]
  split
  · exact h
  · exact T.onArm (T.called h c) hf

theorem setServos (h : T.holds w w') (on : Bool) :
    T.holds { w with robot := w.robot.setServos on } { w' with robot := w'.robot.setServos on } :=
  T.obeyed h (.servos on) (f := fun r => { r with servos := on }) fun _ _ => rfl

theorem setSpeed (h : T.holds w w') (x : Float) :
    T.holds { w with robot := w.robot.setSpeed x } { w' with robot := w'.robot.setSpeed x } :=
  T.obeyed h (.speed x) (f := fun r => { r with speed := x }) fun _ _ => rfl

theorem setGripper (h : T.holds w w') (on : Bool) :
    T.holds { w with robot := w.robot.setGripper on } { w' with robot := w'.robot.setGripper on } :=
  T.obeyed h (.gripper on) (f := fun r => { r with gripper := on }) fun _ _ => rfl

theorem sleepUntil_alike (deadline poll : Nat) : ∀ fuel,
    AlikeOn T.holds (World.sleepUntil o deadline poll fuel) (World.sleepUntil o deadline poll fuel)
  | 0, _, _, h => ⟨rfl, h⟩
  | fuel + 1, w, w', h => by
    unfold World.sleepUntil
    rw [T.cancelled h, T.clock h]
    split
    · exact ⟨rfl, h⟩
    · split
      · exact ⟨rfl, h⟩
      · exact sleepUntil_alike deadline poll fuel _ _ (T.advance h _)

theorem sleep_alike (duration poll : Nat) :
    AlikeOn T.holds (World.sleep o duration poll) (World.sleep o duration poll) := by
  intro w w' h
  unfold World.sleep
  rw [T.clock h]
  dsimp only
  split
  · exact ⟨rfl, h⟩
  · exact sleepUntil_alike _ _ _ _ _ h

theorem awaitMove_alike (deadline : Nat) : ∀ fuel,
    AlikeOn T.holds (World.awaitMove o deadline fuel) (World.awaitMove o deadline fuel)
  | 0, _, _, h => ⟨rfl, h⟩
  | fuel + 1, w, w', h => by
    unfold World.awaitMove
    rw [T.clock h, T.exiting h]
    split
    · exact ⟨rfl, h⟩
    · split
      · exact ⟨rfl, h⟩
      · exact awaitMove_alike deadline fuel _ _ (T.advance h _)

theorem endMove_alike (target : Point) (relative : Bool) {r r' : Bool × World σ} (hdone : r.1 = r'.1)
    (hleft : T.holds r.2 r'.2) :
    (World.endMove target relative r).1 = (World.endMove target relative r').1 ∧
      T.holds (World.endMove target relative r).2 (World.endMove target relative r').2 := by
  unfold World.endMove
  rw [← hdone]
  split
  · exact ⟨rfl, T.onArm hleft (f := (·.arrive target relative)) fun _ _ => rfl⟩
  · exact ⟨rfl, T.note (T.onArm hleft (f := Robot.halt) fun _ _ => rfl) _ _ _⟩

theorem move_alike (target : Point) (relative wait : Bool) :
    AlikeOn T.holds (World.move o target relative wait) (World.move o target relative wait) := by
  intro w w' h
  have hmoving : T.holds (w.moving target relative) (w'.moving target relative) :=
    T.onArm (T.called h (.move target relative)) (f := fun r => { r with moving := true }) fun _ _ => rfl
  have htime : w'.moveTime = w.moveTime := (congrArg World.moveTime (T.machines h) :)
  cases hexiting : w.robot.exiting with
  | true =>
    have hexiting' : w'.robot.exiting = true := (T.exiting h).trans hexiting
    rw [World.move_of_inert hexiting, World.move_of_inert hexiting']
    exact ⟨rfl, h⟩
  | false =>
    have hexiting' : w'.robot.exiting = false := (T.exiting h).trans hexiting
    rw [World.move_of_working hexiting, World.move_of_working hexiting', T.clock h, htime]
    cases wait with
    | false => exact T.endMove_alike target relative rfl hmoving
    | true =>
      obtain ⟨hdone, hleft⟩ := awaitMove_alike (w.clock + w.moveTime) (w.moveTime + 1) _ _ hmoving
      exact T.endMove_alike target relative hdone hleft

end Tie

namespace Devices

variable {o : Outside σ} {T : Tie o}

theorem answer_alike {f : World σ → Value × World σ} (h : AlikeOn T.holds f f) :
    AlikeOn T.holds (answer f) (answer f) := by
  intro w w' hw
  obtain ⟨hv, hleft⟩ := h w w' hw
  exact ⟨congrArg (fun v => Except.ok (Except.ok v)) hv, hleft⟩

theorem checked_alike (args : Except Lang.Cause α) {f : α → Deed σ} (h : ∀ a, AlikeOn T.holds (f a) (f a)) :
    AlikeOn T.holds (checked args f) (checked args f) := by
  intro w w' hw
  cases args with
  | ok a => exact h a w w' hw
  | error c => exact ⟨rfl, hw⟩

theorem onRobot_alike {f : Robot → Robot}
    (hf : ∀ w w', T.holds w w' → T.holds { w with robot := f w.robot } { w' with robot := f w'.robot }) :
    AlikeOn T.holds (onRobot f) (onRobot f) :=
  answer_alike fun _ _ h => ⟨rfl, hf _ _ h⟩

/-- What the machines are asked about themselves. -/
theorem seen_alike (f : World Unit → Value) :
    AlikeOn T.holds (answer fun w => (f w.machines, w)) (answer fun w => (f w.machines, w)) :=
  answer_alike fun _ _ h => ⟨congrArg f (T.machines h).symm, h⟩

theorem moveTo_alike (x y z : Value) (relative : Bool) :
    AlikeOn T.holds (moveTo o x y z relative) (moveTo o x y z relative) := by
  refine checked_alike _ fun p => answer_alike fun w w' h => ?_
  obtain ⟨hdone, hleft⟩ := T.move_alike p relative true w w' h
  exact ⟨congrArg Value.bool hdone, hleft⟩

theorem sleep_alike (poll : Nat) (seconds : Float) : AlikeOn T.holds (sleep o poll seconds) (sleep o poll seconds) := by
  intro w w' h
  unfold sleep
  split
  · exact ⟨rfl, h⟩
  · rename_i n _
    obtain ⟨hslept, hleft⟩ := T.sleep_alike n poll w w' h
    match hw : w.sleep o n poll, hw' : w'.sleep o n poll with
    | (slept, u), (slept', u') =>
      rw [hw, hw'] at hslept hleft
      obtain rfl : slept = slept' := hslept
      cases slept with
      | full | cut => exact ⟨rfl, hleft⟩
      | overflow => exact ⟨congrArg (fun c => Except.error (Breakdown.overslept c n)) (T.clock hleft).symm, hleft⟩

theorem isTracking_alike (name : String) : AlikeOn T.holds (isTracking o name) (isTracking o name) := by
  intro w w' h
  have hasked := T.asked h name
  unfold isTracking
  match hw : o.asked name w, hw' : o.asked name w' with
  | .error e, .error e' =>
    rw [hw, hw'] at hasked
    obtain rfl : e = e' := hasked
    exact ⟨rfl, h⟩
  | .ok u, .ok u' =>
    rw [hw, hw'] at hasked
    have hsees : u'.sees name = u.sees name := (congrArg (World.sees · name) (T.machines hasked) :)
    exact ⟨congrArg (fun b => Except.ok (Except.ok (Value.bool b))) hsees.symm, hasked⟩
  | .ok _, .error _ | .error _, .ok _ =>
    rw [hw, hw'] at hasked
    exact hasked.elim

theorem call_alike (poll : Nat) (name : String) (args : List Value) :
    Option.Rel (AlikeOn T.holds) (call o poll name args) (call o poll name args) := by
  unfold call
  split
  · exact .some (checked_alike _ fun x => onRobot_alike fun _ _ h => T.setSpeed h x)
  · exact .some (moveTo_alike _ _ _ _)
  · exact .some (moveTo_alike _ _ _ _)
  · exact .some (onRobot_alike fun _ _ h => T.setGripper h _)
  · exact .some (onRobot_alike fun _ _ h => T.setServos h _)
  · exact .some (seen_alike fun m => .bool m.robot.moving)
  · exact .some (isTracking_alike _)
  · exact .some (seen_alike fun m => .array (m.objects.map .string))
  · refine .some (answer_alike fun w w' h => ?_)
    have hframes : w'.frames = w.frames := (congrArg World.frames (T.machines h) :)
    exact ⟨congrArg (fun n => Value.int (n + 1 : Nat)) hframes.symm,
      T.change h (fun m => { m with frames := m.frames + 1 }) fun _ => []⟩
  · exact .some (sleep_alike _ _)
  · exact .some (sleep_alike _ _)
  · exact .some (seen_alike fun m => .bool m.cancelled)
  · exact .none

/-- The machines are tied to themselves by every tie. -/
theorem host_tied (T : Tie o) (poll : Nat) : (host o poll).Tied T.holds (host o poll) where
  progress w w' h := by
    unfold host
    dsimp only
    rw [T.cancelled h]
    split
    · exact ⟨rfl, h⟩
    · exact ⟨rfl, T.advance h _⟩
  print _ _ _ h := T.note h _ _ _
  debug _ _ _ _ h := T.note h _ _ _
  call := call_alike poll

end Devices

/-! ## Acts -/

namespace Act

variable {o : Outside σ}

/-- Whether an act does the same in tied scenes. -/
abbrev Tied (T : Tie o) (a : Act σ α) : Prop := Failing.Tied T.Scenes a a

variable {T : Tie o}

theorem onWorld_tied {f : World σ → World σ} (h : ∀ w w', T.holds w w' → T.holds (f w) (f w')) :
    Tied T (onWorld f) := .modify fun _ _ hs => ⟨hs.1, h _ _ hs.2⟩

theorem note_tied (level : Log.Level) (target text : String) : Tied T (note level target text) :=
  onWorld_tied fun _ _ h => T.note h _ _ _

/-- A script does the same in tied scenes. -/
theorem evalProgram_tied (p : Lang.Program) : Tied T (evalProgram o p) := by
  intro s s' hs
  obtain ⟨b, w⟩ := s
  obtain ⟨b', w'⟩ := s'
  obtain ⟨rfl, hw⟩ : b' = b ∧ T.holds w w' := hs
  have hhost := Devices.host_tied T b'.sleepPoll
  have hstore : Lang.Store.Beside T.holds (Scene.store ⟨b', w⟩) (Scene.store ⟨b', w'⟩) := ⟨w', hw, rfl⟩
  have heval := Lang.Program.eval_tied hhost b'.limits Lang.Eval.endless p _ _ hstore
  unfold evalProgram
  dsimp only [ExceptT.run, ExceptT.mk, StateT.run] at heval ⊢
  generalize (p.eval (Devices.host o b'.sleepPoll) b'.limits Lang.Eval.endless) (Scene.store ⟨b', w⟩) = x,
    (p.eval (Devices.host o b'.sleepPoll) b'.limits Lang.Eval.endless) (Scene.store ⟨b', w'⟩) = y at heval
  obtain ⟨r, t⟩ := x
  obtain ⟨r', t'⟩ := y
  obtain ⟨rfl, u, hu, rfl⟩ : r' = r ∧ Lang.Store.Beside T.holds t t' := heval
  rcases r' with (_ | _ | _ | _ | _) | _ <;> exact ⟨rfl, rfl, hu⟩

theorem tryEvaluate_tied (text : String) : Tied T (tryEvaluate o text) := by
  refine .get_bind fun s s' hs => ?_
  rw [hs.1]
  dsimp only
  split
  · exact .pure _
  · refine (evalProgram_tied _).bind fun r => ?_
    split <;> exact .pure _

theorem evaluate_tied (text : String) : Tied T (evaluate o text) := by
  refine (tryEvaluate_tied text).bind fun r => ?_
  split
  · exact .pure _
  · exact (note_tied _ _ _).bind fun _ => .pure _

theorem tryExecute_tied (text : String) : Tied T (tryExecute o text) := by
  refine .get_bind fun s s' hs => ?_
  rw [hs.1]
  dsimp only
  split
  · exact .pure _
  · exact (evalProgram_tied _).bind fun _ => .pure _

theorem execute_tied (text : String) : Tied T (execute o text) := by
  refine (tryExecute_tied text).bind fun r => ?_
  split
  · exact .pure _
  · exact (note_tied _ _ _).bind fun _ => .pure _

theorem setVariable_tied (name : String) (v : Value) : Tied T (setVariable name v) := by
  refine .get_bind fun s s' hs => ?_
  rw [hs.1]
  split
  · exact .bind (.set ⟨rfl, hs.2⟩) fun _ => .pure _
  · exact .pure _

end Act

namespace Command

variable {o : Outside σ} {T : Tie o}

theorem holds_tied (text : String) : Act.Tied T (holds o text) := by
  refine (Act.evaluate_tied text).bind fun r => ?_
  split <;> exact .pure _

theorem pause_tied (duration : Nat) : Act.Tied T (pause o duration) := by
  refine .get_bind fun s s' hs => ?_
  obtain ⟨hslept, hleft⟩ := T.sleep_alike duration s.sandbox.sleepPoll _ _ hs.2
  rw [hs.1]
  match hw : s.world.sleep o duration s.sandbox.sleepPoll, hw' : s'.world.sleep o duration s.sandbox.sleepPoll with
  | (slept, u), (slept', u') =>
    rw [hw, hw'] at hslept hleft
    obtain rfl : slept = slept' := hslept
    refine .bind (.set ⟨rfl, hleft⟩) fun _ => ?_
    rw [T.clock hs.2]
    split
    · exact .throw _
    · exact .pure _
    · exact .pure _

theorem coordinate_tied (e : String) : Act.Tied T (coordinate o e) := by
  refine (Act.evaluate_tied e).bind fun r => ?_
  split
  · exact .pure _
  · split
    · exact .pure _
    · exact (Act.note_tied _ _ _).bind fun _ => .pure _

theorem move_tied (p : Point) (relative : Bool) : Act.Tied T (move o p relative) := by
  refine .get_bind fun s s' hs => ?_
  obtain ⟨hmoved, hleft⟩ := T.move_alike p relative true _ _ hs.2
  match hw : s.world.move o p relative true, hw' : s'.world.move o p relative true with
  | (moved, u), (moved', u') =>
    rw [hw, hw'] at hmoved hleft
    obtain rfl : moved = moved' := hmoved
    exact .bind (.set ⟨hs.1, hleft⟩) fun _ => .pure _

end Command

end ArmPilot
