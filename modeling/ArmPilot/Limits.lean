/-!
# Limits of evaluations

How far the evaluation of one script may go before it is stopped.
-/

namespace ArmPilot

/-- Limits of one evaluation; a limit of zero on operations, depth or sizes is no limit. -/
structure Limits where
  maxOperations : Nat
  maxCallLevels : Nat
  maxDepth : Nat
  maxString : Nat
  maxArray : Nat
  maxMap : Nat
deriving Repr, DecidableEq, Inhabited

/-- The limits of a sandbox that is not configured. -/
def Limits.default : Limits := ⟨0, 64, 64, 65536, 10000, 10000⟩

end ArmPilot
