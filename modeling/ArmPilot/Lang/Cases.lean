import ArmPilot.Lang.Syntax

/-!
# The cases of a switch

A case is named by literals and by ranges.  A switch goes by the literals first: where one of them names its value, only
the cases with that literal are considered, and no range.  The default is left for a value that no condition lets in.
-/

namespace ArmPilot
namespace Lang

namespace Value

mutual

/-- Whether two values are the same, down to the bits of doubles; functions, devices and streams never are. -/
def same : Value → Value → Bool
  | .unit, .unit => true
  | .bool a, .bool b => a == b
  | .int a, .int b => a == b
  | .float x, .float y => x.toBits == y.toBits
  | .char c, .char d => c == d
  | .string s, .string t => s == t
  | .array xs, .array ys => sameItems xs ys
  | .map xs, .map ys => sameMembers xs ys
  | .bytes xs, .bytes ys => xs == ys
  | .range a b i, .range c d j => a == c && b == d && i == j
  | _, _ => false

/-- Whether two lists of values are the same. -/
def sameItems : List Value → List Value → Bool
  | [], [] => true
  | x :: xs, y :: ys => x.same y && sameItems xs ys
  | _, _ => false

/-- Whether the members of two maps are the same. -/
def sameMembers : List (String × Value) → List (String × Value) → Bool
  | [], [] => true
  | (k, x) :: xs, (l, y) :: ys => k == l && x.same y && sameMembers xs ys
  | _, _ => false

end

/-- Whether a value is a range. -/
def isRange : Value → Bool
  | .range _ _ _ => true
  | _ => false

/-- Whether a range stands for a value: a number in it, or the range itself. -/
def spans (v range : Value) : Bool :=
  match range, v with
  | .range a b inclusive, .int n => a ≤ n && (n < b || (inclusive && n = b))
  | .range a b inclusive, .float x =>
    Decimal.ofInt a ≤ x && (x < Decimal.ofInt b || (inclusive && x == Decimal.ofInt b))
  | .range a b i, v => v.same (.range a b i)
  | _, _ => false

end Value

namespace Case

/-- The literals and ranges that name a case; the default has none. -/
def labels : Case → List Value
  | .case values _ _ => values

/-- The condition of a case, if it has one. -/
def condition : Case → Option Expr
  | .case _ cond _ => cond

/-- What is done in a case. -/
def action : Case → Expr
  | .case _ _ e => e

/-- Whether a literal names a value in a case. -/
def names (v : Value) (c : Case) : Bool := c.labels.any fun l => !l.isRange && v.same l

/-- The ranges that name a case. -/
def ranges (c : Case) : List Value := c.labels.filter (·.isRange)

/-- Whether a range stands for a value in a case. -/
def spans (v : Value) (c : Case) : Bool := c.ranges.any v.spans

/-- Whether a case is without condition. -/
def isSure (c : Case) : Bool :=
  match c.condition with
  | none | some (.const (.bool true) _) => true
  | _ => false

/-- Whether the condition of a case never holds. -/
def isNever (c : Case) : Bool :=
  match c.condition with
  | some (.const (.bool false) _) => true
  | _ => false

/-- The default among the cases, if there is one. -/
def default? (cases : List Case) : Option Case := cases.find? (·.labels.isEmpty)

/-- The cases that a value can be taken to, apart from the default: those of its literal, else those of its ranges. -/
def considered (v : Value) (cases : List Case) : List Case :=
  match cases.filter (·.names v) with
  | [] => cases.filter (·.spans v)
  | named => named

end Case

end Lang
end ArmPilot
