import ArmPilot.Lang.Eval.Machine
import ArmPilot.Lang.Lexer

/-!
# Callbacks

A callback is a function that a built-in function calls, about each item of an array or each member of a map.  An item
is handed over as what the callback is called on, or among its arguments, as the callback demands; a callback may change
what it is called on.
-/

namespace ArmPilot
namespace Lang

/-- A function that a built-in function calls: a closure by its number, any other function by its name, with the values
that it was given when it was made. -/
structure Callback where
  name : String
  id : Option Nat
  captured : List Value

/-- A way to call a function: its arguments, and what it is called on. -/
abbrev Way := List Value × Option Value

namespace Callback

variable {σ : Type}

/-- Why no function can go by a name: the name is reserved, or not even a name. -/
def nameFault? (name : String) : Option Cause :=
  match wordToken name.toList with
  | .identifier _ => none
  | .fault (.malformedIdentifier _) =>
    if markTable.any (·.1 = name.toList) then some (.refused ⟨.reservedWord name, none⟩)
    else some (.functionNotFound name)
  | _ => some (.refused ⟨.reservedWord name, none⟩)

/-- The ways to hand over an item, in the order in which they are tried: it is what the function is called on, or it is
moved to a place among the arguments, and then extra arguments may stand behind. -/
def ways (args : List Value) (item : Option Value) (moveTo : Option Nat) (extras : List Value) : List Way :=
  (args, item) ::
    match item, moveTo with
    | some v, some i =>
      let moved := args.take i ++ v :: args.drop i
      [(moved, none), (moved ++ extras, none)]
    | _, _ => [(args ++ extras, item)]

/-- All arguments of a call in some way, with what it is made on in front. -/
def allArguments (f : Callback) (w : Way) : List Value := w.2.toList ++ f.captured ++ w.1

/-- The calls that are open while a built-in function calls a function: its own, and the one that it makes. -/
def within (env : Env σ) : Env σ := { env with level := env.level + 2 }

/-- The call of a callback in some way, if there is such a function. -/
def target? (m : Machine σ) (env : Env σ) (f : Callback) (p : Place) (w : Way) : Option (Eval σ Called) :=
  let args := f.captured ++ w.1
  let enter (r : Routine) : Option (Eval σ Called) :=
    some (m.invoke (within env) r args (w.2.map fun v => ⟨v, false⟩) false p)
  match f.id.bind env.closure? with
  | some r => if r.parameters.length = args.length then enter r else none
  | none =>
    match env.function? w.2 f.name args.length with
    | some r => enter r
    | none => (m.native (within env) f.name (f.allArguments w) p).map fun n => do
        let (r, changed) ← n.run
        return (r, if w.2.isSome then changed else none)

/-- Calls a callback on arguments and an item for the built-in function `caller`, in whose call a failure is wrapped.
The steps that the callback takes do not count afterwards. -/
def apply (m : Machine σ) (env : Env σ) (caller : String) (f : Callback) (args : List Value) (item : Option Value)
    (moveTo : Option Nat) (extras : List Value) (p : Place) : Eval σ Called := do
  let ws := ways args item moveTo extras
  let before := (← get).operations
  let (r, changed) ← (match ws.findSome? (f.target? m env p) with
    | some act => act
    | none =>
      let tried := f.allArguments (ws.getLast?.getD (args, item))
      return (.error (.failure (.mk (.functionNotFound (callSignature f.name tried)) p)), none))
  modify fun s => { s with operations := before }
  match r with
  | .ok v => return (.ok (← Eval.flat v), changed)
  | .error (.failure f) => return (.error (.failure (.mk (.inCall caller f) p)), changed)
  | .error e => return (.error e, changed)

/-- Calls a callback on an item and its number. -/
def ask (m : Machine σ) (env : Env σ) (caller : String) (f : Callback) (p : Place) (i : Nat) (v : Value) :
    Eval σ Called :=
  f.apply m env caller [] (some v) (some 0) [.int i] p

/-- The answer of a callback to arguments that stay as they are; a failure is no answer. -/
def judge (m : Machine σ) (env : Env σ) (caller : String) (f : Callback) (p : Place) (args : List Value) :
    Eval σ (Option Value) := do
  match ← f.apply m env caller args none none [] p with
  | (.ok v, _) => return some v
  | (.error (.failure _), _) => return none
  | (.error e, _) => throw e

end Callback

/-- How a walk ends, what it has gathered until then, and the items that it went along, as they are now. -/
structure Walked (κ β : Type) where
  ending : Except Interrupt Unit
  gathered : β
  items : List (κ × Value)

/-- A walk along items with their keys, until an answer ends it or fails.  What is asked about an item may change it. -/
def walk {σ κ β : Type} (ask : β → κ → Value → Eval σ Called) (use : β → κ → Value → Value → Bool × β) :
    List (κ × Value) → β → List (κ × Value) → Eval σ (Walked κ β)
  | done, acc, [] => return ⟨.ok (), acc, done.reverse⟩
  | done, acc, (k, v) :: rest => do
    let (r, changed) ← ask acc k v
    let v := changed.getD v
    match r with
    | .error e => return ⟨.error e, acc, done.reverse ++ (k, v) :: rest⟩
    | .ok a =>
      let (more, acc) := use acc k v a
      if more then walk ask use ((k, v) :: done) acc rest
      else return ⟨.ok (), acc, done.reverse ++ (k, v) :: rest⟩

/-- Items divided by a callback: those that it holds of, the others, and those from the item on at which it failed. -/
structure Division (κ : Type) where
  ending : Except Interrupt Unit
  yes : List (κ × Value)
  no : List (κ × Value)
  undecided : List (κ × Value)

/-- Whether an answer is true. -/
def Value.holds : Value → Bool
  | .bool b => b
  | _ => false

/-- Divides items by the answers to a question about each. -/
def divide {σ κ : Type} (ask : κ → Value → Eval σ Called) (items : List (κ × Value)) : Eval σ (Division κ) := do
  let w ← walk (fun _ => ask)
    (fun (yes, no) k v a => (true, if a.holds then ((k, v) :: yes, no) else (yes, (k, v) :: no))) [] ([], []) items
  let (yes, no) := w.gathered
  return ⟨w.ending, yes.reverse, no.reverse, w.items.drop (yes.length + no.length)⟩

/-- The values of items. -/
def itemValues {κ : Type} (items : List (κ × Value)) : Value := .array (items.map (·.2))

end Lang
end ArmPilot
