import ArmPilot.Lang.Library.Basic

/-!
# Sorting

A stable sort by a relation that may have effects, as the functions of a script do.  Few items are sorted by
insertion from the end; more are sorted in halves, which are merged.
-/

namespace ArmPilot
namespace Lang
namespace Library

section
variable {α : Type} {m : Type → Type} [Monad m]

/-- Puts an item into a sorted list that is given from its end: in front of the items that it precedes. -/
def insertBackwards (precedes : α → α → m Bool) (v : α) : List α → m (List α)
  | [] => return [v]
  | w :: rest => do
    if ← precedes v w then return w :: (← insertBackwards precedes v rest) else return v :: w :: rest

/-- Inserts items one after the other into a sorted list that is given from its end. -/
def insertAll (precedes : α → α → m Bool) : List α → List α → m (List α)
  | acc, [] => return acc.reverse
  | acc, v :: rest => do insertAll precedes (← insertBackwards precedes v acc) rest

/-- Merges two sorted lists; items of the first go in front of items of the second that do not precede them. -/
def merge (precedes : α → α → m Bool) : List α → List α → m (List α)
  | [], ys => return ys
  | xs, [] => return xs
  | x :: xs, y :: ys => do
    if ← precedes y x then return y :: (← merge precedes (x :: xs) ys)
    else return x :: (← merge precedes xs (y :: ys))
termination_by xs ys => xs.length + ys.length

/-- The greatest number of items that are sorted by insertion. -/
def fewItems : Nat := 20

/-- Items sorted by a relation, those that it does not order in their old order. -/
def sortBy (precedes : α → α → m Bool) (vs : List α) : m (List α) :=
  if h : vs.length ≤ fewItems then insertAll precedes [] vs
  else do
    let half := vs.length / 2
    merge precedes (← sortBy precedes (vs.take half)) (← sortBy precedes (vs.drop half))
termination_by vs.length
decreasing_by
  all_goals
    have : ¬vs.length ≤ 20 := h
    simp only [List.length_take, List.length_drop]
    omega

end

/-- Items sorted by a relation without effects. -/
def sorted {α : Type} (precedes : α → α → Bool) (vs : List α) : List α :=
  Id.run (sortBy (fun v w => pure (precedes v w)) vs)

example : sorted (fun a b : Nat × Nat => a.1 < b.1) [(2, 0), (1, 1), (2, 2), (1, 3)] =
    [(1, 1), (1, 3), (2, 0), (2, 2)] := by decide +kernel

end Library
end Lang
end ArmPilot
