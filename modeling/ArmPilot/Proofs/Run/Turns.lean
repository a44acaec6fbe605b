import ArmPilot.Proofs.Pass.Steps
import ArmPilot.Run.Basic

/-!
# The turns of a tick

In a tick the regular events have their turns: each is asked once whether it is active, and a pass is made over its
commands if it is.  The turns of a tick determine it (`tickFrom_eq`).  They are taken in the order of the events, none
once the run is asked to stop, and an event is left out only then (`exists_turn_or_cancelled`).
-/

namespace ArmPilot

variable {σ : Type}

/-- An event without its memories. -/
def Event.forget (e : Event σ) : Event σ :=
  { e with trigger := { e.trigger with memory := 0 }, commands := e.commands.map Command.forget }

namespace Run

/-- The turn of an event in a tick. -/
structure Turn (σ : Type) where
  moment : Moment
  index : Nat
  event : Event σ
  /-- What ran earlier in the tick. -/
  ran : Status
  before : Scene σ

namespace Turn

/-- Whether the event is active, or why that cannot be told. -/
def answer (t : Turn σ) : Except Breakdown Bool := (t.event.poll t.moment t.before).1

/-- The scene after the event was asked. -/
def asked (t : Turn σ) : Scene σ := (t.event.poll t.moment t.before).2.2

/-- Why the turn broke off, if it did. -/
def breakdown (t : Turn σ) : Option Breakdown :=
  match t.answer with
  | .ok _ => none
  | .error b => some b

/-- Whether the event is active. -/
def active (t : Turn σ) : Bool :=
  match t.answer with
  | .ok active => active
  | .error _ => false

/-- The steps of the pass over the commands, which is made if the event is active. -/
def steps (t : Turn σ) : List (Step σ) := if t.active then Run.steps true t.moment t.event.commands t.asked else []

/-- The places of the commands that were run. -/
def executed (t : Turn σ) : List Nat := t.steps.map Step.place

/-- Whether a command ended the program. -/
def killed (t : Turn σ) : Bool := t.steps.any (·.signal = .kill)

/-- The event with its memories after the turn. -/
def left (t : Turn σ) : Event σ :=
  { (t.event.poll t.moment t.before).2.1 with commands := leftBy 0 t.event.commands t.steps }

/-- What ran in the tick up to the end of the turn. -/
def shown (t : Turn σ) : Status := if t.active then Status.insert t.index t.executed t.ran else t.ran

/-- The scene in which the turn ends. -/
def after (t : Turn σ) : Scene σ :=
  if t.active then publish t.shown (endOf Step.after t.asked t.steps) else t.asked

end Turn

/-- The turns of a tick over events, the first of which stands at a place. -/
def turnsFrom (m : Moment) : Nat → Status → List (Event σ) → Scene σ → List (Turn σ)
  | _, _, [], _ => []
  | i, ran, e :: rest, s =>
    if s.world.cancelled then []
    else if e.role = .destroy then turnsFrom m (i + 1) ran rest s
    else
      let t : Turn σ := ⟨m, i, e, ran, s⟩
      t :: if t.breakdown.isSome then [] else turnsFrom m (i + 1) t.shown rest t.after

attribute [elab_as_elim] turnsFrom.induct_unfolding

/-- Events, the first of which stands at a place, with their memories after turns. -/
def leftByTurns (i : Nat) (events : List (Event σ)) (ts : List (Turn σ)) : List (Event σ) :=
  overwrite i events (ts.map fun t => (t.index, t.left))

variable {m : Moment} {i : Nat} {ran : Status} {events : List (Event σ)} {s : Scene σ}

/-! ## Which events have turns -/

/-- The events that have turns are regular ones at their places, and the run is not asked to stop when their turn
comes. -/
theorem of_mem_turnsFrom {t : Turn σ} (h : t ∈ turnsFrom m i ran events s) :
    i ≤ t.index ∧ events[t.index - i]? = some t.event ∧ t.event.role ≠ .destroy ∧ t.moment = m ∧
      t.before.world.cancelled = false := by
  fun_induction turnsFrom m i ran events s with
  | case1 => cases h
  | case2 => cases h
  | case3 i ran e rest s _ _ ih =>
    obtain ⟨hi, hget, hrest⟩ := ih h
    refine ⟨Nat.le_of_succ_le hi, ?_, hrest⟩
    rw [show t.index - i = t.index - (i + 1) + 1 by omega, List.getElem?_cons_succ]
    exact hget
  | case4 i ran e rest s hs he first ih =>
    rcases List.mem_cons.1 h with rfl | h
    · refine ⟨Nat.le_refl i, ?_, he, rfl, eq_false_of_ne_true hs⟩
      rw [show first.index - i = 0 from Nat.sub_self i]
      rfl
    · split at h
      · cases h
      · obtain ⟨hi, hget, hrest⟩ := ih h
        refine ⟨Nat.le_of_succ_le hi, ?_, hrest⟩
        rw [show t.index - i = t.index - (i + 1) + 1 by omega, List.getElem?_cons_succ]
        exact hget

/-- The turns are taken in the order of the events. -/
theorem pairwise_index (m : Moment) (i : Nat) (ran : Status) (events : List (Event σ)) (s : Scene σ) :
    (turnsFrom m i ran events s).Pairwise fun a b => a.index < b.index := by
  fun_induction turnsFrom m i ran events s with
  | case1 => exact .nil
  | case2 => exact .nil
  | case3 _ _ _ _ _ _ _ ih => exact ih
  | case4 i ran e rest s _ _ first ih =>
    refine .cons (fun t h => ?_) ?_
    · split at h
      · cases h
      · exact (of_mem_turnsFrom h).1
    · split
      · exact .nil
      · exact ih

/-- Every turn begins in the scene that the one before left, and the first in that of the tick. -/
theorem linked_turnsFrom (m : Moment) (i : Nat) (ran : Status) (events : List (Event σ)) (s : Scene σ) :
    Linked Turn.before Turn.after s (turnsFrom m i ran events s) := by
  fun_induction turnsFrom m i ran events s with
  | case1 => trivial
  | case2 => trivial
  | case3 _ _ _ _ _ _ _ ih => exact ih
  | case4 i ran e rest s _ _ first ih =>
    refine ⟨rfl, ?_⟩
    split
    · trivial
    · exact ih

/-- **A regular event has its turn** unless an earlier turn breaks off, or the run is asked to stop before. -/
theorem exists_turn_or_cancelled {k : Nat} {e : Event σ} (hk : events[k]? = some e) (he : e.role ≠ .destroy) :
    (∃ t ∈ turnsFrom m i ran events s, t.index = i + k) ∨ s.world.cancelled = true ∨
      ∃ t ∈ turnsFrom m i ran events s, t.index < i + k ∧
        (t.breakdown.isSome = true ∨ t.after.world.cancelled = true) := by
  fun_induction turnsFrom m i ran events s generalizing k with
  | case1 => cases hk
  | case2 i ran e' rest s hs => exact .inr (.inl hs)
  | case3 i ran e' rest s _ hd ih =>
    cases k with
    | zero => exact absurd (Option.some.inj hk ▸ hd) he
    | succ k =>
      rw [List.getElem?_cons_succ] at hk
      rw [show i + (k + 1) = i + 1 + k by omega]
      exact ih hk
  | case4 i ran e' rest s _ _ first =>
    rename_i ih
    cases k with
    | zero => exact .inl ⟨first, List.mem_cons_self .., rfl⟩
    | succ k =>
      rw [List.getElem?_cons_succ] at hk
      split
      · refine .inr (.inr ⟨first, List.mem_cons_self .., ?_, .inl ‹_›⟩)
        show i < i + (k + 1)
        omega
      · rw [show i + (k + 1) = i + 1 + k by omega]
        rcases ih hk with ⟨t, ht, hindex⟩ | hs | ⟨t, ht, hindex⟩
        · exact .inl ⟨t, List.mem_cons_of_mem _ ht, hindex⟩
        · refine .inr (.inr ⟨first, List.mem_cons_self .., ?_, .inr hs⟩)
          show i < i + 1 + k
          omega
        · exact .inr (.inr ⟨t, List.mem_cons_of_mem _ ht, hindex⟩)

/-- A turn that breaks off is the last, so that it tells why the tick does. -/
theorem findSome?_breakdown_turnsFrom {b : Breakdown} :
    (turnsFrom m i ran events s).findSome? Turn.breakdown = some b ↔
      ∃ t ∈ turnsFrom m i ran events s, t.breakdown = some b := by
  refine ⟨List.exists_of_findSome?_eq_some, ?_⟩
  rintro ⟨t, ht, hb⟩
  fun_induction turnsFrom m i ran events s with
  | case1 => cases ht
  | case2 => cases ht
  | case3 _ _ _ _ _ _ _ ih => exact ih ht
  | case4 i ran e rest s _ _ first ih =>
    rcases List.mem_cons.1 ht with rfl | ht
    · rw [List.findSome?_cons, hb]
    · split at ht
      · cases ht
      · rename_i hnone
        rw [List.findSome?_cons, Option.not_isSome_iff_eq_none.1 hnone, if_neg (by decide)]
        exact ih ht

/-! ## What ran -/

/-- What an event ran is put at the end if it stands behind all others. -/
theorem Status.insert_of_lt {status : Status} {executed : List Nat} (h : ∀ entry ∈ status, entry.1 < i) :
    Status.insert i executed status = status ++ [(i, executed)] := by
  induction status with
  | nil => rfl
  | cons entry rest ih =>
    have hi := h entry (List.mem_cons_self ..)
    rw [Status.insert, if_neg (by omega), if_neg (by omega), ih fun entry' h' => h entry' (List.mem_cons_of_mem _ h')]
    rfl

/-- What ran in turns. -/
def statusOf (ts : List (Turn σ)) : Status := (ts.filter Turn.active).map fun t => (t.index, t.executed)

/-- **At the end of a tick the board shows what ran in its turns**, if the triggers of those that are not active leave it
alone. -/
theorem board_turnsFrom (hran : ∀ entry ∈ ran, entry.1 < i) (hs : s.world.board = ran)
    (h : ∀ t ∈ turnsFrom m i ran events s, t.active = false → t.asked.world.board = t.before.world.board) :
    (endOf Turn.after s (turnsFrom m i ran events s)).world.board =
      ran ++ statusOf (turnsFrom m i ran events s) := by
  fun_induction turnsFrom m i ran events s with
  | case1 => exact hs.trans (List.append_nil _).symm
  | case2 => exact hs.trans (List.append_nil _).symm
  | case3 i ran e rest s _ _ ih => exact ih (fun entry he => Nat.lt_succ_of_lt (hran entry he)) hs h
  | case4 i ran e rest s _ _ first ih =>
    have hshown : first.shown = ran ++ statusOf [first] := by
      unfold Turn.shown statusOf
      cases hactive : first.active with
      | true =>
        rw [if_pos rfl, List.filter_cons_of_pos hactive]
        exact Status.insert_of_lt hran
      | false =>
        rw [if_neg Bool.false_ne_true, List.filter_cons_of_neg (ne_true_of_eq_false hactive)]
        exact (List.append_nil _).symm
    have hboard : first.after.world.board = first.shown := by
      unfold Turn.after
      cases hactive : first.active with
      | true => rfl
      | false =>
        have hasked := h first (List.mem_cons_self ..) hactive
        rw [if_neg Bool.false_ne_true, hasked, Turn.shown, hactive]
        exact hs
    have hstatus (ts : List (Turn σ)) : statusOf (first :: ts) = statusOf [first] ++ statusOf ts := by
      unfold statusOf
      rw [← List.map_append, ← List.filter_append, List.singleton_append]
    have hlater : ∀ entry ∈ first.shown, entry.1 < i + 1 := fun entry hentry => by
      rw [hshown] at hentry
      rcases List.mem_append.1 hentry with hentry | hentry
      · exact Nat.lt_succ_of_lt (hran entry hentry)
      · obtain ⟨t, ht, rfl⟩ := List.mem_map.1 hentry
        obtain rfl := List.mem_singleton.1 (List.mem_of_mem_filter ht)
        exact Nat.lt_succ_self i
    rw [endOf_cons, hstatus, ← List.append_assoc, ← hshown]
    by_cases hb : first.breakdown.isSome = true
    · rw [if_pos hb]
      exact hboard.trans (List.append_nil _).symm
    · rw [if_neg hb] at h ⊢
      exact ih hlater hboard fun t ht => h t (List.mem_cons_of_mem _ ht)

/-! ## The tick -/

/-- The pass that is made in the turn of an active event. -/
theorem Turn.interpret_eq {t : Turn σ} (h : t.active = true) :
    interpret true t.moment t.event.commands t.asked =
      (⟨t.executed, t.killed, leftBy 0 t.event.commands t.steps⟩, endOf Step.after t.asked t.steps) := by
  have hsteps : t.steps = Run.steps true t.moment t.event.commands t.asked := if_pos h
  rw [interpret, interpretFrom_eq]
  unfold Turn.executed Turn.killed
  rw [hsteps]
  rfl

/-- No command of an event that is not active is run. -/
theorem Turn.steps_of_inactive {t : Turn σ} (h : t.active = false) : t.steps = [] := by
  unfold Turn.steps
  rw [h]
  rfl

theorem Turn.breakdown_eq_some_iff {t : Turn σ} {b : Breakdown} : t.breakdown = some b ↔ t.answer = .error b := by
  unfold Turn.breakdown
  cases t.answer <;> simp

/-- An event that breaks down is not active. -/
theorem Turn.inactive_of_breakdown {t : Turn σ} {b : Breakdown} (h : t.breakdown = some b) : t.active = false := by
  unfold Turn.active
  rw [Turn.breakdown_eq_some_iff.1 h]

theorem Turn.linked_steps (t : Turn σ) : Linked Step.before Step.after t.asked t.steps := by
  unfold Turn.steps
  split
  · exact linked_stepsFrom ..
  · trivial

/-- In a turn no command is run once the run is asked to stop. -/
theorem Turn.before_not_cancelled {t : Turn σ} {st : Step σ} (h : st ∈ t.steps) : st.before.world.cancelled = false := by
  unfold Turn.steps at h
  split at h
  · exact Run.before_not_cancelled h
  · cases h

/-- Whether the run is asked to stop is settled when the last command of the turn has run. -/
theorem Turn.cancelled_after (t : Turn σ) :
    t.after.world.cancelled = (endOf Step.after t.asked t.steps).world.cancelled := by
  unfold Turn.after
  cases h : t.active with
  | true => rfl
  | false =>
    rw [t.steps_of_inactive h]
    rfl

/-- A command that asks the run to stop is the last of its turn. -/
theorem Turn.getLast_of_cancelled {t : Turn σ} {st : Step σ} (h : st ∈ t.steps) (hc : st.after.world.cancelled = true) :
    t.steps.getLast? = some st ∧ t.after.world.cancelled = true := by
  have hlast : t.steps.getLast? = some st :=
    t.linked_steps.eq_getLast (P := fun s : Scene σ => s.world.cancelled = true)
      (fun _ h' => ne_true_of_eq_false (t.before_not_cancelled h')) h hc
  refine ⟨hlast, ?_⟩
  rw [t.cancelled_after, endOf, hlast]
  exact hc

/-- A tick that comes to a regular event makes its turn, and goes on unless that breaks off. -/
theorem tickFrom_turn (t : Turn σ) (rest : List (Event σ)) (hs : ¬t.before.world.cancelled = true)
    (he : ¬t.event.role = .destroy) :
    tickFrom t.moment t.index t.ran (t.event :: rest) t.before =
      match t.breakdown with
      | some b => (⟨t.left :: rest, false, some b⟩, t.after)
      | none =>
        let (q, s) := tickFrom t.moment (t.index + 1) t.shown rest t.after
        (q.behind t.left t.killed, s) := by
  have hpoll : t.event.poll t.moment t.before = (t.answer, (t.event.poll t.moment t.before).2.1, t.asked) := rfl
  have hidle (h : t.active = false) : t.left = (t.event.poll t.moment t.before).2.1 ∧ t.killed = false ∧
      t.shown = t.ran ∧ t.after = t.asked := by
    unfold Turn.left Turn.killed Turn.shown Turn.after
    rw [t.steps_of_inactive h, h]
    exact ⟨rfl, rfl, rfl, rfl⟩
  rw [tickFrom, if_neg hs, if_neg he, hpoll]
  match ha : t.answer with
  | .error b =>
    obtain ⟨hleft, -, -, hafter⟩ := hidle (by rw [Turn.active, ha])
    rw [Turn.breakdown, ha, hleft, hafter]
  | .ok false =>
    obtain ⟨hleft, hkilled, hshown, hafter⟩ := hidle (by rw [Turn.active, ha])
    rw [Turn.breakdown, ha, hleft, hkilled, hshown, hafter]
  | .ok true =>
    have hactive : t.active = true := by rw [Turn.active, ha]
    have hcommands : (t.event.poll t.moment t.before).2.1.commands = t.event.commands := rfl
    have hshown : t.shown = Status.insert t.index t.executed t.ran := if_pos hactive
    have hafter : t.after = publish t.shown (endOf Step.after t.asked t.steps) := if_pos hactive
    rw [Turn.breakdown, ha, hafter, hshown]
    dsimp only
    rw [hcommands, t.interpret_eq hactive]
    rfl

/-- **The turns of a tick determine it.** -/
theorem tickFrom_eq (m : Moment) (i : Nat) (ran : Status) (events : List (Event σ)) (s : Scene σ) :
    tickFrom m i ran events s =
      let ts := turnsFrom m i ran events s
      (⟨leftByTurns i events ts, ts.any Turn.killed, ts.findSome? Turn.breakdown⟩, endOf Turn.after s ts) := by
  fun_induction turnsFrom m i ran events s with
  | case1 => rfl
  | case2 i ran e rest s hs => rw [tickFrom, if_pos hs]; rfl
  | case3 i ran e rest s hs he ih =>
    have hbehind : ∀ y ∈ (turnsFrom m (i + 1) ran rest s).map fun t => (t.index, t.left), i + [e].length ≤ y.1 :=
      fun y h => by
        obtain ⟨t, ht, rfl⟩ := List.mem_map.1 h
        exact (of_mem_turnsFrom ht).1
    have hleft : leftByTurns i (e :: rest) (turnsFrom m (i + 1) ran rest s) =
        e :: leftByTurns (i + 1) rest (turnsFrom m (i + 1) ran rest s) := overwrite_append [e] rest hbehind
    dsimp only
    rw [tickFrom, if_neg hs, if_pos he, ih, hleft]
    rfl
  | case4 i ran e rest s hs he first ih =>
    have htick : tickFrom m i ran (e :: rest) s = _ := tickFrom_turn first rest hs he
    have hleft (ts : List (Turn σ)) (h : ∀ t ∈ ts, i + 1 ≤ t.index) :
        leftByTurns i (e :: rest) (first :: ts) = first.left :: leftByTurns (i + 1) rest ts :=
      overwrite_cons e first.left (Nat.zero_le _) fun y hy => by
        obtain ⟨t, ht, rfl⟩ := List.mem_map.1 hy
        exact h t ht
    dsimp only
    rw [htick, List.any_cons, List.findSome?_cons, endOf_cons]
    cases hb : first.breakdown with
    | some b =>
      have hkilled : first.killed = false := by
        unfold Turn.killed
        rw [first.steps_of_inactive (first.inactive_of_breakdown hb)]
        rfl
      rw [if_pos (Option.isSome_some ..), hkilled, hleft [] fun _ h => nomatch h]
      rfl
    | none =>
      dsimp only
      rw [ih, if_neg (by decide), hleft _ fun t ht => (of_mem_turnsFrom ht).1]
      rfl

/-- A tick changes nothing of the events but their memories. -/
theorem map_forget_leftByTurns (m : Moment) (i : Nat) (ran : Status) (events : List (Event σ)) (s : Scene σ) :
    (leftByTurns i events (turnsFrom m i ran events s)).map Event.forget = events.map Event.forget := by
  refine map_overwrite_eq _ fun y h => ?_
  obtain ⟨t, ht, rfl⟩ := List.mem_map.1 h
  obtain ⟨-, hget, -⟩ := of_mem_turnsFrom ht
  have hcommands : t.left.commands.map Command.forget = t.event.commands.map Command.forget := by
    show (leftBy 0 t.event.commands t.steps).map Command.forget = _
    unfold Turn.steps
    split
    · exact map_forget_leftBy ..
    · rfl
  rw [List.getElem?_map, hget]
  show some t.event.forget = some t.left.forget
  unfold Event.forget
  rw [hcommands]
  rfl

end Run
end ArmPilot
