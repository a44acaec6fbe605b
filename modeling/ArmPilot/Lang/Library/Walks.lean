import ArmPilot.Lang.Library.Numbers
import ArmPilot.Lang.Library.Texts
import ArmPilot.Lang.Library.Lists
import ArmPilot.Lang.Library.Maps

/-!
# Ranges, streams and the whole library

Streams of numbers with a step, functions on ranges, and the look-up of a built-in function by its name and
its arguments.
-/

namespace ArmPilot
namespace Lang
namespace Library

/-- A stream of numbers may not stand still. -/
def stillStep : Option Answer :=
  Answer.failed (.inCall "range" (.mk (.arithmetic "step value cannot be zero") none))

/-- Functions that make streams. -/
def streams (name : String) (args : List Value) : Option Answer :=
  match name, args with
  | "range", [.int a, .int b] => Answer.value (.range a b false)
  | "range", [.int a, .int b, .int s] =>
    if s = 0 then stillStep else Answer.value (.stream (.steps a b s))
  | "range", [.range a b false, .int s] =>
    if s = 0 then stillStep else Answer.value (.stream (.steps a b s))
  | "range", [.float a, .float b, .float s] =>
    if a + s == a then stillStep else Answer.value (.stream (.realSteps a b s))
  | "bits", [.int n, .int a] => bits n a 64
  | "bits", [.int n, .int a, .int count] => bits n a count
  | "bits", [.int n, .range a b inclusive] =>
    let (a, count) := rangeStretch a b inclusive
    bits n a count
  | _, _ => none
where
  bits (n a count : Int) : Option Answer :=
    match indexIn? 64 a with
    | some k => Answer.value (.stream (.bits n k (min count.toNat (64 - k))))
    | none => Answer.failed (.bitBounds a)

/-- Functions on ranges. -/
def ranges (name : String) (args : List Value) : Option Answer :=
  match args with
  | .range a b inclusive :: rest =>
    match name, rest with
    | "start", [] => Answer.int a
    | "end", [] => Answer.int b
    | "is_inclusive", [] => Answer.bool inclusive
    | "is_exclusive", [] => Answer.bool !inclusive
    | "is_empty", [] => Answer.bool (if inclusive then b < a else b ≤ a)
    | "contains", [.int n] => Answer.bool (a ≤ n && (n < b || (inclusive && n = b)))
    | _, _ => none
  | _ => none

/-- Functions on all values. -/
def generals (name : String) (args : List Value) : Option Answer :=
  match name, args with
  | "to_string", [v] => Answer.string v.printed
  | "to_debug", [v] => Answer.string v.debugged
  | _, _ => none

/-- The built-in function of a name on arguments. -/
def call? (limits : Limits) (name : String) (args : List Value) : Option Answer :=
  match numbers name args with
  | some a => some a
  | none =>
    match texts limits name args with
    | some a => some a
    | none =>
      match arrays limits name args with
      | some a => some a
      | none =>
        match maps name args with
        | some a => some a
        | none =>
          match ranges name args with
          | some a => some a
          | none =>
            match streams name args with
            | some a => some a
            | none => generals name args

/-- Names of functions of one argument that may also be read as properties. -/
def isProperty (name : String) (v : Value) : Bool :=
  match v with
  | .string _ => ["len", "bytes", "is_empty", "chars"].contains name
  | .array _ => ["len", "is_empty"].contains name
  | .range _ _ _ => ["start", "end", "is_inclusive", "is_exclusive", "is_empty"].contains name
  | .int _ => ["is_odd", "is_even", "is_zero", "bits"].contains name
  | .float _ => name = "is_zero"
  | _ => false

/-- The value of a property that is no member of a map. -/
def property? (limits : Limits) (name : String) (v : Value) : Option Outcome :=
  if isProperty name v then (call? limits name [v]).map (·.result) else none

end Library
end Lang
end ArmPilot
