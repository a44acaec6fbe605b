import ArmPilot.World

/-!
# What the arm heeds

Calls reach the arm one after the other: those of a run, and in the rounds of a move that is waited for those of others.
While it is inert the arm heeds none of them, and it cuts such a move short when it is found inert at a look.  Nothing
else is lost: whatever is issued, and whenever the arm is made inert, what it stands at is what the calls say that came
while it was not inert, without the moves that were cut short (`World.obeyAll_heeds`).
-/

namespace ArmPilot
namespace Robot

/-- What calls set. -/
structure Pose where
  position : Point
  speed : Float
  gripper : Bool
  servos : Bool
deriving Repr, BEq

/-- What the arm stands at. -/
def pose (r : Robot) : Pose := ⟨r.position, r.speed, r.gripper, r.servos⟩

/-- What a call sets. -/
def Pose.after (p : Pose) : Call → Pose
  | .servos on => { p with servos := on }
  | .speed x => { p with speed := x }
  | .gripper on => { p with gripper := on }
  | .move target relative => { p with position := if relative then p.position.add target else target }

/-- What is issued to the arm. -/
inductive Issue where
  /-- It is to be inert, or not any more. -/
  | exiting (on : Bool)
  /-- A call, and whether it was carried out if the arm heeds it. -/
  | call (c : Call) (done : Bool)
deriving Repr, BEq

/-- The calls that are issued while the arm is not inert, each with whether it was carried out. -/
def heeded : Bool → List Issue → List (Call × Bool)
  | _, [] => []
  | _, .exiting on :: es => heeded on es
  | true, .call _ _ :: es => heeded true es
  | false, .call c done :: es => (c, done) :: heeded false es

/-- Those of them that were carried out. -/
def carried (inert : Bool) (es : List Issue) : List Call := ((heeded inert es).filter Prod.snd).map Prod.fst

/-- Whether the arm is inert behind what is issued. -/
def inertAfter : Bool → List Issue → Bool
  | inert, [] => inert
  | _, .exiting on :: es => inertAfter on es
  | inert, .call _ _ :: es => inertAfter inert es

theorem heeded_append (inert : Bool) (es es' : List Issue) :
    heeded inert (es ++ es') = heeded inert es ++ heeded (inertAfter inert es) es' := by
  fun_induction heeded inert es with
  | case1 => rfl
  | case2 _ on es ih => exact ih
  | case3 _ _ es ih => exact ih
  | case4 c done es ih => exact congrArg (_ :: ·) ih

theorem inertAfter_append (inert : Bool) (es es' : List Issue) :
    inertAfter inert (es ++ es') = inertAfter (inertAfter inert es) es' := by
  fun_induction inertAfter inert es with
  | case1 => rfl
  | case2 _ on es ih => exact ih
  | case3 inert _ _ es ih => exact ih

theorem carried_append (inert : Bool) (es es' : List Issue) :
    carried inert (es ++ es') = carried inert es ++ carried (inertAfter inert es) es' := by
  rw [carried, heeded_append, List.filter_append, List.map_append]
  rfl

/-- Whether an arm becomes another by what is issued to it, with no move begun or ended that is not among it. -/
structure Follows (r : Robot) (es : List Issue) (r' : Robot) : Prop where
  pose : r'.pose = (carried r.exiting es).foldl Pose.after r.pose
  calls : r'.calls = r.calls ++ (heeded r.exiting es).map Prod.fst
  exiting : r'.exiting = inertAfter r.exiting es
  moving : r'.moving = r.moving

section

variable {r r' r'' : Robot} {es es' : List Issue}

theorem Follows.refl (r : Robot) : Follows r [] r := ⟨rfl, (List.append_nil _).symm, rfl, rfl⟩

theorem Follows.trans (h : Follows r es r') (h' : Follows r' es' r'') : Follows r (es ++ es') r'' where
  pose := by rw [h'.pose, h.pose, h.exiting, carried_append, List.foldl_append]
  calls := by rw [h'.calls, h.calls, h.exiting, heeded_append, List.map_append, List.append_assoc]
  exiting := by rw [h'.exiting, h.exiting, inertAfter_append]
  moving := h'.moving.trans h.moving

/-- A call that the arm notes and carries out at once, unless it is inert. -/
theorem follows_set (c : Call) (f : Robot → Robot) (r : Robot)
    (hf : ∀ r, (f r).pose = r.pose.after c ∧ (f r).calls = r.calls ∧ (f r).exiting = r.exiting ∧
      (f r).moving = r.moving) :
    Follows r [.call c true] (if r.exiting then r else f (r.record c)) := by
  obtain ⟨hpose, hcalls, hexiting, hmoving⟩ := hf (r.record c)
  obtain ⟨position, speed, gripper, servos, inert, moving, calls⟩ := r
  cases inert with
  | true => exact ⟨rfl, (List.append_nil calls).symm, rfl, rfl⟩
  | false => exact ⟨hpose, hcalls, hexiting, hmoving⟩

end

/-! ## Demands -/

/-- What is issued to the arm and takes no time. -/
inductive Demand where
  | exiting (on : Bool)
  | servos (on : Bool)
  | speed (x : Float)
  | gripper (on : Bool)
deriving Repr, BEq

namespace Demand

/-- What a demand does to the arm. -/
def act : Demand → Robot → Robot
  | .exiting on, r => { r with exiting := on }
  | .servos on, r => r.setServos on
  | .speed x, r => r.setSpeed x
  | .gripper on, r => r.setGripper on

/-- What is issued with a demand. -/
def issue : Demand → Issue
  | .exiting on => .exiting on
  | .servos on => .call (.servos on) true
  | .speed x => .call (.speed x) true
  | .gripper on => .call (.gripper on) true

theorem follows_act (d : Demand) (r : Robot) : Follows r [d.issue] (d.act r) := by
  cases d with
  | exiting on => exact ⟨rfl, (List.append_nil _).symm, rfl, rfl⟩
  | servos on => exact follows_set _ (fun r => { r with servos := on }) r fun _ => ⟨rfl, rfl, rfl, rfl⟩
  | speed x => exact follows_set _ (fun r => { r with speed := x }) r fun _ => ⟨rfl, rfl, rfl, rfl⟩
  | gripper on => exact follows_set _ (fun r => { r with gripper := on }) r fun _ => ⟨rfl, rfl, rfl, rfl⟩

/-- What demands do to the arm, one after the other. -/
def actAll (ds : List Demand) (r : Robot) : Robot := ds.foldl (fun r d => d.act r) r

theorem follows_actAll (ds : List Demand) (r : Robot) : Follows r (ds.map issue) (actAll ds r) := by
  induction ds generalizing r with
  | nil => exact .refl r
  | cons d ds ih => exact (d.follows_act r).trans (ih (d.act r))

end Demand

/-! ## The place of the arm -/

theorem mem_of_mem_carried {inert : Bool} {es : List Issue} {c : Call} (h : c ∈ carried inert es) :
    .call c true ∈ es := by
  obtain ⟨⟨c, done⟩, hmem, rfl⟩ := List.mem_map.1 h
  obtain ⟨hheeded, rfl : done = true⟩ := List.mem_filter.1 hmem
  clear h hmem
  fun_induction heeded inert es with
  | case1 => cases hheeded
  | case2 _ on es ih => exact List.mem_cons_of_mem _ (ih hheeded)
  | case3 _ _ es ih => exact List.mem_cons_of_mem _ (ih hheeded)
  | case4 _ _ es ih =>
    rcases List.mem_cons.1 hheeded with heq | hheeded
    · obtain ⟨rfl, rfl⟩ := Prod.mk.inj heq
      exact List.mem_cons_self ..
    · exact List.mem_cons_of_mem _ (ih hheeded)

theorem Demand.issue_ne_move (d : Demand) (target : Point) (relative done : Bool) :
    d.issue ≠ .call (.move target relative) done := by
  cases d <;> nofun

theorem Pose.after_position {c : Call} (hc : ∀ target relative, c ≠ .move target relative) (p : Pose) (q : Point) :
    Pose.after { p with position := q } c = { p.after c with position := q } := by
  cases c with
  | move target relative => exact absurd rfl (hc target relative)
  | servos | speed | gripper => rfl

/-- What demands set does not depend on the place of the arm, which they leave alone. -/
theorem foldl_after_position (inert : Bool) (ds : List Demand) (p : Pose) (q : Point) :
    (carried inert (ds.map Demand.issue)).foldl Pose.after { p with position := q } =
      { (carried inert (ds.map Demand.issue)).foldl Pose.after p with position := q } := by
  have hcalls : ∀ c ∈ carried inert (ds.map Demand.issue), ∀ target relative, c ≠ .move target relative := by
    rintro c hc target relative rfl
    obtain ⟨d, -, hd⟩ := List.mem_map.1 (mem_of_mem_carried hc)
    exact d.issue_ne_move target relative true hd
  generalize carried inert (ds.map Demand.issue) = cs at hcalls
  induction cs generalizing p with
  | nil => rfl
  | cons c cs ih =>
    obtain ⟨hc, hcs⟩ := List.forall_mem_cons.1 hcalls
    rw [List.foldl_cons, Pose.after_position hc, ih _ hcs, List.foldl_cons]

theorem position_foldl_after (inert : Bool) (ds : List Demand) (p : Pose) :
    ((carried inert (ds.map Demand.issue)).foldl Pose.after p).position = p.position :=
  (congrArg Pose.position (foldl_after_position inert ds p p.position) :)

/-- A move sets the same before demands and behind them. -/
theorem foldl_after_move (inert : Bool) (ds : List Demand) (p : Pose) (target : Point) (relative : Bool) :
    (carried inert (ds.map Demand.issue)).foldl Pose.after (p.after (.move target relative)) =
      ((carried inert (ds.map Demand.issue)).foldl Pose.after p).after (.move target relative) := by
  rw [Pose.after, foldl_after_position, Pose.after, position_foldl_after]

section

variable {r r' : Robot} {ds : List Demand} {target : Point} {relative : Bool}

/-- What becomes of an arm that has begun a move. -/
theorem of_follows_beginMove {es : List Issue} (hinert : r.exiting = false)
    (h : Follows (r.beginMove target relative) es r') :
    r'.pose = (carried false es).foldl Pose.after r.pose ∧
      r'.calls = r.calls ++ .move target relative :: (heeded false es).map Prod.fst ∧
      r'.exiting = inertAfter false es := by
  obtain ⟨hpose, hcalls, hexiting, -⟩ := h
  rw [show (r.beginMove target relative).exiting = false from hinert] at hpose hcalls hexiting
  exact ⟨hpose, hcalls.trans (List.append_assoc ..), hexiting⟩

/-- A move that was carried out, with what was asked of the arm meanwhile. -/
theorem follows_arrive (hinert : r.exiting = false) (hmoving : r.moving = false)
    (h : Follows (r.beginMove target relative) (ds.map Demand.issue) r') :
    Follows r (.call (.move target relative) true :: ds.map Demand.issue) (r'.arrive target relative) := by
  obtain ⟨hpose, hcalls, hexiting⟩ := of_follows_beginMove hinert h
  refine ⟨?_, ?_, ?_, hmoving.symm⟩ <;> rw [hinert]
  · calc r'.pose.after (.move target relative)
        = ((carried false (ds.map Demand.issue)).foldl Pose.after r.pose).after (.move target relative) := by rw [hpose]
      _ = (carried false (ds.map Demand.issue)).foldl Pose.after (r.pose.after (.move target relative)) :=
          (foldl_after_move ..).symm
  · exact hcalls
  · exact hexiting

/-- A move that was cut short, with what was asked of the arm meanwhile. -/
theorem follows_halt (hinert : r.exiting = false) (hmoving : r.moving = false)
    (h : Follows (r.beginMove target relative) (ds.map Demand.issue) r') :
    Follows r (.call (.move target relative) false :: ds.map Demand.issue) r'.halt := by
  obtain ⟨hpose, hcalls, hexiting⟩ := of_follows_beginMove hinert h
  refine ⟨?_, ?_, ?_, hmoving.symm⟩ <;> rw [hinert]
  · exact hpose
  · exact hcalls
  · exact hexiting

end

end Robot

/-! ## A move -/

/-- Whether those outside act on the arm, whenever it is their turn, by what they ask of it. -/
def Outside.Asks {σ : Type} (o : Outside σ) (asked : World σ → List Robot.Demand) : Prop :=
  ∀ w, (o.turn w).robot = Robot.Demand.actAll (asked w) w.robot

namespace World

open Robot (Call Issue Demand Follows Pose carried heeded inertAfter)

variable {σ : Type} {o : Outside σ} {asked : World σ → List Demand}

/-- A move that has begun. -/
def moving (target : Point) (relative : Bool) (w : World σ) : World σ :=
  { w with robot := w.robot.beginMove target relative }

/-- The end of a move that was waited for, or was not to be. -/
def endMove (target : Point) (relative : Bool) (r : Bool × World σ) : Bool × World σ :=
  if r.1 then (true, { r.2 with robot := r.2.robot.arrive target relative })
  else (false, { r.2 with robot := r.2.robot.halt }.note .debug "armscript::sim" "Move interrupted by fast-abort")

theorem move_of_working {o : Outside σ} {w : World σ} (h : w.robot.exiting = false) (target : Point)
    (relative wait : Bool) :
    w.move o target relative wait =
      endMove target relative
        (if wait then awaitMove o (w.clock + w.moveTime) (w.moveTime + 1) (w.moving target relative)
          else (true, w.moving target relative)) := by
  unfold move
  rw [h]
  rfl

theorem move_of_inert {o : Outside σ} {w : World σ} (h : w.robot.exiting = true) (target : Point)
    (relative wait : Bool) : w.move o target relative wait = (false, w) := if_pos h

theorem endMove_fst (target : Point) (relative : Bool) (r : Bool × World σ) : (endMove target relative r).1 = r.1 := by
  obtain ⟨done, w⟩ := r
  cases done <;> rfl

theorem exiting_endMove (target : Point) (relative : Bool) (r : Bool × World σ) :
    (endMove target relative r).2.robot.exiting = r.2.robot.exiting := by
  obtain ⟨done, w⟩ := r
  cases done <;> rfl

/-- What those outside ask of the arm in the rounds of a move that is waited for. -/
def askedMeanwhile (o : Outside σ) (asked : World σ → List Demand) (deadline : Nat) : Nat → World σ → List Demand
  | 0, _ => []
  | fuel + 1, w =>
    if deadline ≤ w.clock ∨ w.robot.exiting then []
    else
      asked { w with clock := w.clock + movePoll } ++ askedMeanwhile o asked deadline fuel (w.advance o movePoll)

theorem follows_awaitMove (ho : o.Asks asked) (deadline fuel : Nat) (w : World σ) :
    Follows w.robot ((askedMeanwhile o asked deadline fuel w).map Demand.issue)
      (awaitMove o deadline fuel w).2.robot := by
  fun_induction awaitMove o deadline fuel w with
  | case1 w => exact .refl _
  | case2 fuel w hle =>
    rw [askedMeanwhile, if_pos (.inl hle)]
    exact .refl _
  | case3 fuel w hlt hinert =>
    rw [askedMeanwhile, if_pos (.inr hinert)]
    exact .refl _
  | case4 fuel w hlt hinert ih =>
    rw [askedMeanwhile, if_neg (not_or.2 ⟨hlt, hinert⟩), List.map_append]
    refine Follows.trans ?_ ih
    rw [advance, ho]
    exact Demand.follows_actAll ..

/-- What others ask of the arm during a move. -/
def askedInMove (o : Outside σ) (asked : World σ → List Demand) (target : Point) (relative wait : Bool) (w : World σ) :
    List Demand :=
  if w.robot.exiting ∨ wait = false then []
  else askedMeanwhile o asked (w.clock + w.moveTime) (w.moveTime + 1) (w.moving target relative)

/-- What is issued with a move. -/
def issuesOfMove (o : Outside σ) (asked : World σ → List Demand) (target : Point) (relative wait : Bool) (w : World σ) :
    List Issue :=
  .call (.move target relative) (w.move o target relative wait).1 ::
    (w.askedInMove o asked target relative wait).map Demand.issue

/-- The rounds of a move, or what is left of them if it is not waited for. -/
theorem follows_rounds (ho : o.Asks asked) (target : Point) (relative wait : Bool) {w : World σ}
    (hw : w.robot.exiting = false) :
    Follows (w.robot.beginMove target relative) ((w.askedInMove o asked target relative wait).map Demand.issue)
      (if wait then awaitMove o (w.clock + w.moveTime) (w.moveTime + 1) (w.moving target relative)
        else (true, w.moving target relative)).2.robot := by
  cases wait with
  | false =>
    rw [askedInMove, if_pos (.inr rfl)]
    exact .refl _
  | true =>
    rw [askedInMove, if_neg (by rw [hw]; nofun)]
    exact follows_awaitMove ho _ _ (w.moving target relative)

/-- **A move is heeded as a call is**, unless the arm is inert: it is noted when it begins, and sets the place of the arm
exactly if it is not cut short. -/
theorem follows_move (ho : o.Asks asked) (target : Point) (relative wait : Bool) {w : World σ}
    (hw : w.robot.moving = false) :
    Follows w.robot (w.issuesOfMove o asked target relative wait) (w.move o target relative wait).2.robot := by
  cases hinert : w.robot.exiting with
  | true =>
    rw [issuesOfMove, move_of_inert hinert, askedInMove, if_pos (.inl hinert)]
    exact ⟨by rw [hinert]; rfl, by rw [hinert]; exact (List.append_nil _).symm, rfl, rfl⟩
  | false =>
    have hrounds := follows_rounds ho target relative wait hinert
    rw [issuesOfMove, move_of_working hinert]
    generalize (if wait then awaitMove o (w.clock + w.moveTime) (w.moveTime + 1) (w.moving target relative)
      else (true, w.moving target relative)) = left at hrounds ⊢
    obtain ⟨done, w'⟩ := left
    cases done with
    | true => exact Robot.follows_arrive hinert hw hrounds
    | false => exact Robot.follows_halt hinert hw hrounds

theorem exiting_of_awaitMove {deadline fuel : Nat} {w : World σ} (h : (awaitMove o deadline fuel w).1 = false) :
    (awaitMove o deadline fuel w).2.robot.exiting = true := by
  fun_induction awaitMove o deadline fuel w with
  | case1 => cases h
  | case2 => cases h
  | case3 fuel w hlt hinert => exact hinert
  | case4 fuel w hlt hinert ih => exact ih h

/-- The arm is inert behind a move that was not carried out. -/
theorem exiting_of_move {target : Point} {relative wait : Bool} {w : World σ}
    (h : (w.move o target relative wait).1 = false) : (w.move o target relative wait).2.robot.exiting = true := by
  cases hinert : w.robot.exiting with
  | true =>
    rw [move_of_inert hinert]
    exact hinert
  | false =>
    rw [move_of_working hinert, endMove_fst] at h
    rw [move_of_working hinert, exiting_endMove]
    cases wait with
    | false => cases h
    | true => exact exiting_of_awaitMove h

/-- **A move is carried out if and only if it sets the place of the arm.** -/
theorem position_move (ho : o.Asks asked) (target : Point) (relative wait : Bool) {w : World σ}
    (hw : w.robot.moving = false) :
    (w.move o target relative wait).2.robot.position =
      if (w.move o target relative wait).1 then (if relative then w.robot.position.add target else target)
      else w.robot.position := by
  cases hinert : w.robot.exiting with
  | true =>
    rw [move_of_inert hinert]
    rfl
  | false =>
    have hpose := (follows_move ho target relative wait hw).pose
    rw [hinert, issuesOfMove] at hpose
    refine (congrArg Pose.position hpose).trans ?_
    cases (w.move o target relative wait).1 with
    | true => exact Robot.position_foldl_after false _ (w.robot.pose.after (.move target relative))
    | false => exact Robot.position_foldl_after false _ w.robot.pose

/-! ## Orders -/

/-- What is done with the arm. -/
inductive Order where
  | demand (d : Demand)
  | move (target : Point) (relative wait : Bool)
  /-- Time passes. -/
  | pass (time : Nat)
deriving Repr, BEq

/-- What a demand does. -/
def demand : Demand → World σ → World σ
  | .exiting on, w => w.setRobotExiting on
  | .servos on, w => { w with robot := w.robot.setServos on }
  | .speed x, w => { w with robot := w.robot.setSpeed x }
  | .gripper on, w => { w with robot := w.robot.setGripper on }

/-- What an order does. -/
def obey (o : Outside σ) : Order → World σ → World σ
  | .demand d, w => w.demand d
  | .move target relative wait, w => (w.move o target relative wait).2
  | .pass time, w => w.advance o time

/-- What is issued to the arm with an order. -/
def issues (o : Outside σ) (asked : World σ → List Demand) : Order → World σ → List Issue
  | .demand d, _ => [d.issue]
  | .move target relative wait, w => w.issuesOfMove o asked target relative wait
  | .pass time, w => (asked { w with clock := w.clock + time }).map Demand.issue

/-- What orders do, one after the other. -/
def obeyAll (o : Outside σ) (orders : List Order) (w : World σ) : World σ :=
  orders.foldl (fun w order => w.obey o order) w

/-- What is issued to the arm with orders, one after the other. -/
def journal (o : Outside σ) (asked : World σ → List Demand) : List Order → World σ → List Issue
  | [], _ => []
  | order :: orders, w => w.issues o asked order ++ journal o asked orders (w.obey o order)

theorem robot_demand (d : Demand) (w : World σ) : (w.demand d).robot = d.act w.robot := by
  cases d with
  | exiting on => cases on <;> rfl
  | servos | speed | gripper => rfl

theorem follows_obey (ho : o.Asks asked) (order : Order) {w : World σ} (hw : w.robot.moving = false) :
    Follows w.robot (w.issues o asked order) (w.obey o order).robot := by
  cases order with
  | demand d =>
    rw [obey, robot_demand]
    exact d.follows_act w.robot
  | move target relative wait => exact follows_move ho target relative wait hw
  | pass time =>
    rw [obey, advance, ho]
    exact Demand.follows_actAll ..

theorem follows_obeyAll (ho : o.Asks asked) (orders : List Order) {w : World σ} (hw : w.robot.moving = false) :
    Follows w.robot (journal o asked orders w) (w.obeyAll o orders).robot := by
  induction orders generalizing w with
  | nil => exact .refl _
  | cons order orders ih =>
    have hstep := follows_obey ho order hw
    exact hstep.trans (ih (hstep.moving.trans hw))

/-- **All that is lost by making the arm inert is what comes while it is, and the moves that are cut short.**  Whatever
orders are given and whatever others ask of the arm meanwhile: at the end its place, its speed, its gripper and its servos
are what was set by the calls that were issued while it was not inert, without the moves that were not carried out; the
calls that it noted are those issued while it was not inert, all of them and in order; it is not moving; and it is inert
if the last that was issued about this says so.  A move is carried out if and only if it sets the place of the arm, and
otherwise the arm is inert behind it. -/
theorem obeyAll_heeds (ho : o.Asks asked) (orders : List Order) {w : World σ} (hw : w.robot.moving = false) :
    (w.obeyAll o orders).robot.pose =
        (carried w.robot.exiting (journal o asked orders w)).foldl Pose.after w.robot.pose ∧
      (w.obeyAll o orders).robot.calls =
        w.robot.calls ++ (heeded w.robot.exiting (journal o asked orders w)).map Prod.fst ∧
      (w.obeyAll o orders).robot.moving = false ∧
      (w.obeyAll o orders).robot.exiting = inertAfter w.robot.exiting (journal o asked orders w) ∧
      ∀ (target : Point) (relative wait : Bool) (w : World σ), w.robot.moving = false →
        ((w.move o target relative wait).2.robot.position =
            if (w.move o target relative wait).1 then (if relative then w.robot.position.add target else target)
            else w.robot.position) ∧
          ((w.move o target relative wait).1 = false → (w.move o target relative wait).2.robot.exiting = true) := by
  have h := follows_obeyAll ho orders hw
  exact ⟨h.pose, h.calls, h.moving.trans hw, h.exiting, fun target relative wait w hw =>
    ⟨position_move ho target relative wait hw, exiting_of_move⟩⟩

/-- Others who ask of the arm, at each turn, what is next in a list. -/
def scripted : Outside (List (List Demand)) where
  turn w := { w with robot := Demand.actAll (w.outside.headD []) w.robot, outside := w.outside.tail }
  asked _ w := .ok w

/-- A world in which a move takes 30 ms, and others close the gripper in its first round and make the arm inert in the
second. -/
def meddledWorld : World (List (List Demand)) :=
  { initial [[.gripper true], [.exiting true]] with moveTime := 30000000 }

/-- Orders of which two come while the arm is inert and one is a move that is cut short. -/
def meddledOrders : List Order :=
  [.demand (.speed 5.0), .move ⟨1.0, 1.0, 1.0⟩ false false, .demand (.exiting true), .demand (.speed 20.0),
    .move ⟨9.0, 9.0, 9.0⟩ false true, .demand (.exiting false), .move ⟨0.5, 2.0, 0.0⟩ true false,
    .move ⟨0.0, 10.0, 5.0⟩ false true]

theorem obeyAll_heeds_meddledOrders :
    scripted.Asks (fun w => w.outside.headD []) ∧ meddledWorld.robot.moving = false ∧
      (meddledWorld.obeyAll scripted meddledOrders).robot.pose =
        ⟨.add ⟨1.0, 1.0, 1.0⟩ ⟨0.5, 2.0, 0.0⟩, 5.0, true, false⟩ ∧
      (meddledWorld.obeyAll scripted meddledOrders).robot.calls =
        [.speed 5.0, .move ⟨1.0, 1.0, 1.0⟩ false, .move ⟨0.5, 2.0, 0.0⟩ true, .move ⟨0.0, 10.0, 5.0⟩ false,
          .gripper true] ∧
      (meddledWorld.obeyAll scripted meddledOrders).robot.moving = false := by
  have hasks : scripted.Asks fun w => w.outside.headD [] := fun _ => rfl
  obtain ⟨hpose, hcalls, hmoving, -⟩ := obeyAll_heeds hasks meddledOrders (w := meddledWorld) rfl
  exact ⟨hasks, rfl, hpose.trans rfl, hcalls.trans rfl, hmoving⟩

end World
end ArmPilot
