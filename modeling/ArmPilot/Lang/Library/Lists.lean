import ArmPilot.Lang.Library.Sorting
import ArmPilot.Lang.Sizes

/-!
# Built-in functions on arrays

The functions here take no other functions; those that do are part of the evaluator, which alone can call
them.
-/

namespace ArmPilot
namespace Lang
namespace Library

/-- Whether a value stands before another of its type; types without an order do not tell. -/
def precedes? (v w : Value) : Option Bool :=
  match v, w with
  | .int a, .int b => some (a < b)
  | .float x, .float y => some (x < y)
  | .string s, .string t => some (s < t)
  | .char c, .char d => some (c < d)
  | .bool a, .bool b => some (!a && b)
  | .unit, .unit => some false
  | _, _ => none

/-- Values without those that are equal to the last value kept in front of them. -/
def withoutRepeats : List Value → List Value
  | [] => []
  | v :: rest => v :: go v rest
where
  go (last : Value) : List Value → List Value
    | [] => []
    | w :: rest =>
      match last.equals w with
      | .ok true => go last rest
      | _ => w :: go w rest

/-- The values of an array in their natural order, which only values of one type have. -/
def naturalOrder (descending : Bool) (vs : List Value) : Except Cause (List Value) :=
  match vs with
  | v :: w :: rest =>
    if !(w :: rest).all fun u => u.fullTypeName = v.fullTypeName then
      .error (.functionNotFound "elements of different types cannot be sorted")
    else if (precedes? v w).isNone then
      .error (.functionNotFound ("elements of " ++ v.fullTypeName ++ " cannot be sorted"))
    else
      let before (a b : Value) : Bool := (precedes? a b).getD false
      .ok (sorted (fun a b => if descending then before b a else before a b) vs)
  | vs => .ok vs

/-- The place, from a start on, of the first item that is equal to a value. -/
def placeOf (v : Value) : Nat → List Value → Except Cause (Option Nat)
  | _, [] => .ok none
  | i, w :: rest =>
    match w.matches v with
    | .ok true => .ok (some i)
    | .ok false => placeOf v (i + 1) rest
    | .error c => .error c

/-- The number of a place, or -1. -/
def placeNumber : Option Nat → Value
  | some i => .int i
  | none => .int (-1)

/-- Functions of an array that leave it alone. -/
def readArray (name : String) (vs : List Value) (args : List Value) : Option Answer :=
  match name, args with
  | "len", [] => Answer.int vs.length
  | "is_empty", [] => Answer.bool vs.isEmpty
  | "get", [.int i] => Answer.value ((vs[startingPlace vs.length i]?).getD .unit)
  | "contains", [v] => some ⟨(placeOf v 0 vs).map fun i => .bool i.isSome, none⟩
  | "index_of", [v] => some ⟨(placeOf v 0 vs).map placeNumber, none⟩
  | "index_of", [v, .int i] =>
    let start := startingPlace vs.length i
    some ⟨(placeOf v start (vs.drop start)).map placeNumber, none⟩
  | "order", [] => some ⟨(naturalOrder false vs).map .array, none⟩
  | "order_desc", [] => some ⟨(naturalOrder true vs).map .array, none⟩
  | "extract", _ =>
    (stretchOf? vs.length args).bind fun (start, count) => Answer.array (cutOut vs start count).2
  | _, _ => none

/-- Sorts an array. -/
def sortNaturally (descending : Bool) (vs : List Value) : Option Answer :=
  match naturalOrder descending vs with
  | .ok vs => Answer.change (.array vs)
  | .error c => Answer.failed c

/-- Functions that change an array. -/
def changeArray (limits : Limits) (name : String) (vs : List Value) (args : List Value) : Option Answer :=
  let become (vs : List Value) : Option Answer := Answer.change (.array vs)
  match name, args with
  | "push", [v] => become (vs ++ [v])
  | "append", [.array ws] => become (vs ++ ws)
  | "insert", [.int i, v] =>
    let (start, _) := stretch vs.length i 0
    become (vs.take start ++ v :: vs.drop start)
  | "pad", [.int n, v] =>
    let missing := n.toNat - vs.length
    if missing = 0 then become vs
    else if limits.maxArray > 0 ∧ n.toNat > limits.maxArray then Answer.failed (.tooLarge .array)
    else
      match ((Value.array vs).sizes.add ((v.sizes.add ⟨1, 0, 0⟩).times missing)).exceeded? limits with
      | some b => Answer.failed (.tooLarge b)
      | none => become (vs ++ List.replicate missing v)
  | "pop", [] => Answer.changed (.array vs.dropLast) (vs.getLast?.getD .unit)
  | "shift", [] => Answer.changed (.array (vs.drop 1)) (vs.head?.getD .unit)
  | "remove", [.int i] =>
    match indexIn? vs.length i with
    | some k => Answer.changed (.array (vs.eraseIdx k)) (vs[k]?.getD .unit)
    | none => Answer.changed (.array vs) .unit
  | "set", [.int i, v] => become (vs.set (startingPlace vs.length i) v)
  | "clear", [] => become []
  | "truncate", [.int n] => become (vs.take n.toNat)
  | "chop", [.int n] => become (vs.drop (vs.length - n.toNat))
  | "reverse", [] => become vs.reverse
  | "dedup", [] => become (withoutRepeats vs)
  | "sort", [] => sortNaturally false vs
  | "sort_desc", [] => sortNaturally true vs
  | "split", [.int i] =>
    let (start, _) := stretch vs.length i 0
    Answer.changed (.array (vs.take start)) (.array (vs.drop start))
  | "splice", [.int a, .int n, .array ws] =>
    let (start, count) := stretch vs.length a n
    become (vs.take start ++ ws ++ vs.drop (start + count))
  | "splice", [.range a b inclusive, .array ws] =>
    let (a, n) := rangeStretch a b inclusive
    let (start, count) := stretch vs.length a n
    become (vs.take start ++ ws ++ vs.drop (start + count))
  | "drain", _ =>
    (closedStretchOf? vs.length args).bind fun (start, count) =>
      let (rest, cut) := cutOut vs start count
      Answer.changed (.array rest) (.array cut)
  | "retain", _ =>
    (closedStretchOf? vs.length args).bind fun (start, count) =>
      let (rest, cut) := cutOut vs start count
      -- an empty stretch retains everything
      if count = 0 then Answer.changed (.array vs) (.array []) else Answer.changed (.array cut) (.array rest)
  | _, _ => none

/-- Functions on arrays. -/
def arrays (limits : Limits) (name : String) (args : List Value) : Option Answer :=
  match args with
  | .array vs :: rest =>
    match readArray name vs rest with
    | some a => some a
    | none => changeArray limits name vs rest
  | _ => none

end Library
end Lang
end ArmPilot
