import ArmPilot.Decimal.Layout

/-!
# Stored values

`Json` is the value a stored document holds.  A number is an integer of at most 64 bits or a double;
an object is a list of members in the order of their keys, each key once, which `insert` keeps.
-/

namespace ArmPilot

/-- A number of a document: an integer between `-2^63` and `2^64 - 1`, or a double. -/
inductive Json.Number where
  | int (n : Int)
  | real (x : Float)
deriving Repr, BEq

/-- A value of a document. -/
inductive Json where
  | null
  | bool (b : Bool)
  | num (n : Json.Number)
  | str (s : String)
  | arr (items : List Json)
  | obj (members : List (String × Json))
deriving Repr, BEq, Inhabited

namespace Json

/-- Adds a member to members in the order of their keys; an older member of that key is replaced. -/
def insert {α : Type} (key : String) (value : α) : List (String × α) → List (String × α)
  | [] => [(key, value)]
  | (k, v) :: rest =>
    if key < k then (key, value) :: (k, v) :: rest
    else if key = k then (key, value) :: rest
    else (k, v) :: insert key value rest

/-- The value under a key. -/
def find? {α : Type} (key : String) : List (String × α) → Option α
  | [] => none
  | (k, v) :: rest => if k = key then some v else find? key rest

theorem eq_or_mem_of_mem_insert {α : Type} {key : String} {value : α} {m : String × α} :
    ∀ {ms : List (String × α)}, m ∈ insert key value ms → m = (key, value) ∨ m ∈ ms
  | [], h => List.mem_cons.1 h
  | (k, v) :: rest, h => by
    rw [insert] at h
    split at h
    · exact List.mem_cons.1 h
    · split at h
      · exact (List.mem_cons.1 h).imp_right (List.mem_cons_of_mem _)
      · obtain rfl | h := List.mem_cons.1 h
        · exact .inr List.mem_cons_self
        · exact (eq_or_mem_of_mem_insert h).imp_right (List.mem_cons_of_mem _)

theorem mem_of_find? {α : Type} {key : String} {value : α} {ms : List (String × α)} (h : find? key ms = some value) :
    (key, value) ∈ ms := by
  induction ms with
  | nil => cases h
  | cons m rest ih =>
    unfold find? at h
    split at h
    · rename_i hk
      obtain rfl := Option.some.inj h
      rw [← hk]
      exact List.mem_cons_self
    · exact List.mem_cons_of_mem m (ih h)

theorem find?_insert {α : Type} (key k : String) (value : α) (ms : List (String × α)) :
    find? k (insert key value ms) = if key = k then some value else find? k ms := by
  induction ms with
  | nil => simp [insert, find?]
  | cons m rest ih =>
    obtain ⟨k', v'⟩ := m
    unfold insert
    split
    · simp [find?]
    · split
      · rename_i h
        subst h
        by_cases hk : key = k <;> simp [find?, hk]
      · rename_i h
        by_cases hk : k' = k
        · subst hk
          simp [find?, h]
        · simp [find?, hk, ih]

/-- Members in any order, as an object; of members with one key the last counts. -/
def ofMembers (members : List (String × Json)) : Json :=
  .obj (members.foldl (fun acc m => insert m.1 m.2 acc) [])

/-- The member of an object, if the value is an object that has it. -/
def get? (key : String) : Json → Option Json
  | .obj ms => find? key ms
  | _ => none

/-- An integer as a value. -/
def ofInt (n : Int) : Json := .num (.int n)

/-- The text of a number: an integer in full, a double by its shortest digits, `null` if it is not finite. -/
def Number.text : Number → String
  | .int n => toString n
  | .real x => if x.isNaN || x.isInf then "null" else Decimal.Layout.stored.text x

/-- A number as a double. -/
def Number.toFloat : Number → Float
  | .int n => Decimal.ofInt n
  | .real x => x

end Json
end ArmPilot
