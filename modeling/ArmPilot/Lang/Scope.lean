import ArmPilot.Lang.Value

/-!
# Variables

A scope is a list of bindings, the newest first.  Of several bindings of one name the newest counts.
-/

namespace ArmPilot
namespace Lang

/-- A variable that closures share. -/
structure Cell where
  value : Value
  readOnly : Bool

/-- A value out of the cell of a shared variable. -/
def Value.flat (cells : Array Cell) : Value → Value
  | .shared c => (cells[c]?.map (·.value)).getD .unit
  | v => v

/-- A name with its value. -/
structure Binding where
  name : String
  value : Value
  readOnly : Bool
deriving Repr, BEq, Inhabited

/-- The variables of a script, the newest first. -/
abbrev Scope := List Binding

namespace Scope

/-- The newest binding of a name. -/
def lookup (name : String) (s : Scope) : Option Binding := s.find? (·.name = name)

/-- Whether the newest binding of a name is read-only, if there is one. -/
def isReadOnly? (name : String) (s : Scope) : Option Bool := (s.lookup name).map (·.readOnly)

/-- Adds a binding. -/
def push (name : String) (value : Value) (readOnly : Bool) (s : Scope) : Scope := ⟨name, value, readOnly⟩ :: s

/-- Gives the newest binding of a name another value. -/
def update (name : String) (value : Value) : Scope → Scope
  | [] => []
  | b :: rest => if b.name = name then { b with value := value } :: rest else b :: update name value rest

/-- Gives the newest binding of a name another value and says whether it is read-only from now on. -/
def rebind (name : String) (value : Value) (readOnly : Bool) : Scope → Scope
  | [] => []
  | b :: rest => if b.name = name then ⟨name, value, readOnly⟩ :: rest else b :: rebind name value readOnly rest

/-- Gives a name another value in a block that declares it once more, and that began when there were `start` variables. -/
def redeclare (start : Nat) (name : String) (value : Value) (readOnly : Bool) (s : Scope) : Scope :=
  rebind name value readOnly (s.take (s.length - start)) ++ s.drop (s.length - start)

/-- Gives a name a value: its newest binding if it has one, else a new one. -/
def assign (name : String) (value : Value) (s : Scope) : Scope :=
  if (s.lookup name).isSome then s.update name value else s.push name value false

/-- The variables of a scope in the order of their names, without constants; of several bindings of one
name the newest counts. -/
def values : Scope → List (String × Value)
  | [] => []
  | b :: rest =>
    let older := values rest
    if b.readOnly then older else Json.insert b.name b.value older

theorem lookup_update_self (name : String) (v : Value) (s : Scope) :
    lookup name (update name v s) = (lookup name s).map fun b => { b with value := v } := by
  induction s with
  | nil => rfl
  | cons b rest ih =>
    by_cases h : b.name = name
    · simp [update, lookup, h]
    · simpa [update, lookup, h] using ih

theorem lookup_update_of_ne {name other : String} (h : other ≠ name) (v : Value) (s : Scope) :
    lookup other (update name v s) = lookup other s := by
  induction s with
  | nil => rfl
  | cons b rest ih =>
    by_cases hb : b.name = name
    · have : b.name ≠ other := fun e => h (e ▸ hb)
      simp [update, lookup, hb, Ne.symm h]
    · by_cases ho : b.name = other
      · simp [update, lookup, ho, h]
      · simpa [update, lookup, hb, ho] using ih

end Scope

end Lang
end ArmPilot
