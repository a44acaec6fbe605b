import ArmPilot.World

/-!
# The schedule of ticks

A tick is due a period after the one before was due, the first at once.  A run that is late makes its ticks
back to back until it has caught up: none is left out.
-/

namespace ArmPilot

/-- A schedule of ticks. -/
structure Schedule where
  period : Nat
  /-- When the next tick is due. -/
  next : Nat
deriving Repr, DecidableEq

namespace Schedule

/-- A schedule whose first tick is due now. -/
def start (period now : Nat) : Schedule := ⟨period, now⟩

/-- The schedule after a tick. -/
def advance (s : Schedule) : Schedule := { s with next := s.next + s.period }

/-- Waits until the next tick is due: whether it is to be made, which it is not if the run is asked to stop. -/
def wait {σ : Type} (o : Outside σ) (poll : Nat) (s : Schedule) (w : World σ) : Bool × Schedule × World σ :=
  if w.clock < s.next then
    match w.sleep o (s.next - w.clock) poll with
    | (.cut, w) => (false, s, w)
    | (_, w) => (!w.cancelled, s.advance, w)
  else (!w.cancelled, s.advance, w)

/-- How late the next tick is. -/
def lag (s : Schedule) (now : Nat) : Nat := now - s.next

end Schedule

/-- A duration in the largest unit that leaves whole digits in front of the point, without trailing zeros. -/
def durationText (nanos : Nat) : String :=
  if nanos ≥ 1000000000 then amount 1000000000 9 "s"
  else if nanos ≥ 1000000 then amount 1000000 6 "ms"
  else if nanos ≥ 1000 then amount 1000 3 "µs"
  else toString nanos ++ "ns"
where
  amount (unit places : Nat) (name : String) : String :=
    let fraction := (toString (nanos % unit)).toList
    let fraction := List.replicate (places - fraction.length) '0' ++ fraction
    let kept := (fraction.reverse.dropWhile (· = '0')).reverse
    toString (nanos / unit) ++ (if kept.isEmpty then "" else "." ++ String.ofList kept) ++ name

end ArmPilot
