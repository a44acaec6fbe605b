import Mathlib.Data.List.Basic

/-!
# Journals

A journal tells one after the other what was done: which item of a list was changed and to what, and in which states
that began and ended.  A list is brought up to date by writing into it what its journal tells (`overwrite`).
-/

namespace ArmPilot

variable {α : Type}

/-! ## Overwriting a list -/

/-- A list, the first item of which stands at a place, with others written to their places one after the other. -/
def overwrite (i : Nat) (xs : List α) (ys : List (Nat × α)) : List α :=
  ys.foldl (fun xs y => xs.set (y.1 - i) y.2) xs

/-- What is written behind a stretch of the list leaves it alone. -/
theorem overwrite_append {i : Nat} (front xs : List α) {ys : List (Nat × α)}
    (h : ∀ y ∈ ys, i + front.length ≤ y.1) :
    overwrite i (front ++ xs) ys = front ++ overwrite (i + front.length) xs ys := by
  induction ys generalizing xs with
  | nil => rfl
  | cons y ys ih =>
    have hy := h y (List.mem_cons_self ..)
    show overwrite i ((front ++ xs).set (y.1 - i) y.2) ys = _
    rw [List.set_append_right _ _ (by omega), ih _ fun y' h' => h y' (List.mem_cons_of_mem _ h'),
      show y.1 - i - front.length = y.1 - (i + front.length) by omega]
    rfl

/-- What is written further behind leaves alone the first item and a stretch behind it. -/
theorem overwrite_cons {i n : Nat} (x y : α) {xs : List α} {ys : List (Nat × α)} (hn : n ≤ xs.length)
    (h : ∀ y ∈ ys, i + 1 + n ≤ y.1) :
    overwrite i (x :: xs) ((i, y) :: ys) = y :: xs.take n ++ overwrite (i + 1 + n) (xs.drop n) ys := by
  have hlen : i + (y :: xs.take n).length = i + 1 + n := by
    rw [List.length_cons, List.length_take_of_le hn]
    omega
  calc overwrite i (x :: xs) ((i, y) :: ys)
      = overwrite i ((x :: xs).set (i - i) y) ys := rfl
    _ = overwrite i (y :: xs.take n ++ xs.drop n) ys := by
      rw [Nat.sub_self, List.set_cons_zero, List.cons_append, List.take_append_drop]
    _ = y :: xs.take n ++ overwrite (i + 1 + n) (xs.drop n) ys := by
      rw [overwrite_append _ _ (by rwa [hlen]), hlen]

/-- What is written changes nothing that is looked at if it looks like what stands there. -/
theorem map_overwrite_eq {β : Type} (f : α → β) {i : Nat} {xs : List α} {ys : List (Nat × α)}
    (h : ∀ y ∈ ys, (xs.map f)[y.1 - i]? = some (f y.2)) : (overwrite i xs ys).map f = xs.map f := by
  induction ys generalizing xs with
  | nil => rfl
  | cons y ys ih =>
    have hset : (xs.set (y.1 - i) y.2).map f = xs.map f := by
      obtain ⟨hlt, hget⟩ := List.getElem?_eq_some_iff.1 (h y (List.mem_cons_self ..))
      rw [List.map_set, ← hget, List.set_getElem_self]
    show (overwrite i (xs.set (y.1 - i) y.2) ys).map f = _
    rw [ih fun y' h' => by rw [hset]; exact h y' (List.mem_cons_of_mem _ h'), hset]

/-- A list that was made item by item is made in another way if what is written is, and nothing else would differ. -/
theorem overwrite_mapIdx {β : Type} {f g : Nat → β → α} {zs : List β} {ys : List (Nat × α)}
    (hys : ∀ y ∈ ys, zs[y.1]?.map (g y.1) = some y.2) (hrest : ∀ k, (∀ y ∈ ys, y.1 ≠ k) → f k = g k) :
    overwrite 0 (zs.mapIdx f) ys = zs.mapIdx g := by
  induction ys generalizing f with
  | nil =>
    have hfg : f = g := funext fun k => hrest k fun y hy => absurd hy List.not_mem_nil
    rw [hfg]
    rfl
  | cons y ys ih =>
    have hset : (zs.mapIdx f).set y.1 y.2 = zs.mapIdx fun k => if k = y.1 then g k else f k := by
      refine List.ext_getElem? fun k => ?_
      rw [List.getElem?_set, List.getElem?_mapIdx, List.getElem?_mapIdx, List.length_mapIdx]
      by_cases hk : y.1 = k
      · obtain ⟨z, hz, hzy⟩ := Option.map_eq_some_iff.1 (hys y (List.mem_cons_self ..))
        obtain ⟨hlt, -⟩ := List.getElem?_eq_some_iff.1 hz
        rw [if_pos hk, ← hk, if_pos hlt, hz, Option.map_some, if_pos rfl, hzy]
      · rw [if_neg hk, if_neg fun h => hk h.symm]
    show overwrite 0 ((zs.mapIdx f).set y.1 y.2) ys = _
    rw [hset]
    refine ih (fun y' hy' => hys y' (List.mem_cons_of_mem _ hy')) fun k hk => ?_
    by_cases hky : k = y.1
    · exact if_pos hky
    · refine (if_neg hky).trans (hrest k fun y' hy' => ?_)
      rcases List.mem_cons.1 hy' with rfl | hy'
      · exact Ne.symm hky
      · exact hk y' hy'

/-- A list is left as it is item by item. -/
theorem mapIdx_eq_self_iff {f : Nat → α → α} {xs : List α} :
    xs.mapIdx f = xs ↔ ∀ k x, xs[k]? = some x → f k x = x := by
  refine ⟨fun h k x hx => ?_, fun h => List.ext_getElem? fun k => ?_⟩
  · have hget : (xs.mapIdx f)[k]? = some (f k x) := by rw [List.getElem?_mapIdx, hx, Option.map_some]
    rw [h] at hget
    exact Option.some.inj (hget.symm.trans hx)
  · rw [List.getElem?_mapIdx]
    cases hx : xs[k]? with
    | none => rfl
    | some x => exact congrArg some (h k x hx)

/-! ## Lists that look alike -/

section

variable {β : Type} {f : α → β} {xs xs' : List α}

/-- Lists that look alike have their items at the same places. -/
theorem exists_getElem?_of_map_eq (h : xs'.map f = xs.map f) {i : Nat} {x : α} (hx : xs[i]? = some x) :
    ∃ x', xs'[i]? = some x' ∧ f x' = f x := by
  have hget : (xs'.map f)[i]? = some (f x) := by rw [h, List.getElem?_map, hx, Option.map_some]
  rw [List.getElem?_map] at hget
  exact Option.map_eq_some_iff.1 hget

/-- What holds of all items of a list, and of whatever looks like them, holds of all items of one that looks alike. -/
theorem forall_mem_of_map_eq {P : α → Prop} (hP : ∀ x x', f x = f x' → P x → P x') (h : xs'.map f = xs.map f)
    (hxs : ∀ x ∈ xs, P x) : ∀ x ∈ xs', P x := by
  intro x' hx'
  obtain ⟨x, hx, heq⟩ := List.mem_map.1 (h ▸ List.mem_map_of_mem hx')
  exact hP x x' heq (hxs x hx)

end

/-! ## States -/

variable {β : Type}

/-- The state at the end of a journal that began in a state. -/
def endOf (after : α → β) (s : β) (xs : List α) : β := (xs.getLast?.map after).getD s

theorem endOf_cons (after : α → β) (s : β) (x : α) (xs : List α) :
    endOf after s (x :: xs) = endOf after (after x) xs := by
  unfold endOf
  cases xs with
  | nil => rfl
  | cons y ys => rw [List.getLast?_cons_cons, List.getLast?_cons]; rfl

/-- Whether each entry of a journal begins in the state in which the one before ended, and the first in that in which
the journal began. -/
def Linked (before after : α → β) (s : β) : List α → Prop
  | [] => True
  | x :: xs => before x = s ∧ Linked before after (after x) xs

/-- An entry of a journal begins where those before it ended. -/
theorem Linked.before_eq {before after : α → β} {s : β} {front back : List α} {x : α}
    (h : Linked before after s (front ++ x :: back)) :
    before x = endOf after s front ∧ Linked before after s front := by
  induction front generalizing s with
  | nil => exact ⟨h.1, trivial⟩
  | cons y front ih =>
    obtain ⟨hx, hfront⟩ := ih h.2
    exact ⟨hx.trans (endOf_cons ..).symm, h.1, hfront⟩

/-- If no entry begins in a state of some kind, one that ends in such a state is the last. -/
theorem Linked.eq_getLast {before after : α → β} {P : β → Prop} {s : β} {xs : List α}
    (h : Linked before after s xs) (hP : ∀ x ∈ xs, ¬P (before x)) {x : α} (hx : x ∈ xs) (ha : P (after x)) :
    xs.getLast? = some x := by
  induction xs generalizing s with
  | nil => cases hx
  | cons y ys ih =>
    rcases List.mem_cons.1 hx with rfl | hx
    · cases ys with
      | nil => rfl
      | cons z zs => exact absurd (h.2.1 ▸ ha) (hP z (List.mem_cons_of_mem _ (List.mem_cons_self ..)))
    · rw [List.getLast?_cons, ih h.2 (fun y hy => hP y (List.mem_cons_of_mem _ hy)) hx]
      rfl

/-- What no entry of a journal changes is the same at all times. -/
theorem Linked.eq_of_const {γ : Type} {before after : α → β} {f : β → γ} {s : β} {xs : List α}
    (h : Linked before after s xs) (hf : ∀ x ∈ xs, f (after x) = f (before x)) :
    (∀ x ∈ xs, f (before x) = f s) ∧ f (endOf after s xs) = f s := by
  induction xs generalizing s with
  | nil => exact ⟨fun x hx => absurd hx List.not_mem_nil, rfl⟩
  | cons y ys ih =>
    have hy : f (after y) = f s := by rw [hf y (List.mem_cons_self ..), h.1]
    obtain ⟨hbefore, hend⟩ := ih h.2 fun x hx => hf x (List.mem_cons_of_mem _ hx)
    refine ⟨fun x hx => ?_, ?_⟩
    · rcases List.mem_cons.1 hx with rfl | hx
      · rw [h.1]
      · rw [hbefore x hx, hy]
    · rw [endOf_cons, hend, hy]

end ArmPilot
