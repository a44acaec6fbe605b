import ArmPilot.Json.Reader

/-!
# Documents of a known shape

Walks over a `Tree` that ask for a shape: a string, a bounded count, a list, an object of named fields.
A structure may be written as an object, whose unknown keys are passed over, or as a list of its fields
in order.  Every walk complains about the first thing in the order of the text that does not fit.
-/

namespace ArmPilot
namespace Json

/-- The complaint that a tree is not what is expected. -/
def Tree.mismatch (expected : String) : Tree → Fault
  | .null stop => ⟨.invalidType .null expected, stop⟩
  | .bool b stop => ⟨.invalidType (.boolean b) expected, stop⟩
  | .number n stop =>
    match numberAt n stop with
    | .ok (.int i) => ⟨.invalidType (.integer i) expected, stop⟩
    | .ok (.real x) => ⟨.invalidType (.real (Number.text (.real x))) expected, stop⟩
    | .error f => f
  | .text (.ok s) stop => ⟨.invalidType (.string s) expected, stop⟩
  | .text (.error f) _ => f
  | .list start _ => ⟨.invalidType .sequence expected, start⟩
  | .record start _ => ⟨.invalidType .object expected, start⟩
  | .broken f _ => f

/-- A string. -/
def Tree.string : Tree → Except Fault String
  | .text content _ => content
  | t => .error (t.mismatch "a string")

/-- A whole number from zero to `limit`, of the named kind. -/
def Tree.count (kind : String) (limit : Nat) : Tree → Except Fault Nat
  | .number n stop => do
    match ← numberAt n stop with
    | .int i =>
      if 0 ≤ i ∧ i ≤ limit then return i.toNat
      else throw ⟨.invalidValue (.integer i) kind, stop⟩
    | .real x => throw ⟨.invalidType (.real (Number.text (.real x))) kind, stop⟩
  | t => .error (t.mismatch kind)

/-- A double, which may be written as a whole number. -/
def Tree.real : Tree → Except Fault Float
  | .number n stop => do return (← numberAt n stop).toFloat
  | t => .error (t.mismatch "f64")

/-- A value that may be left out by writing `null`. -/
def Tree.optional {α : Type} (read : Tree → Except Fault α) : Tree → Except Fault (Option α)
  | .null _ => .ok none
  | t => (read t).map some

/-- An object with any members, at a depth. -/
def Tree.mapping (depth : Nat) : Tree → Except Fault (List (String × Json))
  | .record start members =>
    if depth = 0 then .error ⟨.tooDeep, start.next⟩ else members.values (depth - 1) []
  | t => .error (t.mismatch "a map")

/-- The items of a list, each of them read. -/
def Items.each {α : Type} (read : Tree → Except Fault α) : Items → Except Fault (List α)
  | .close _ => .ok []
  | .item _ v rest => do
    let head ← read v
    let tail ← rest.each read
    return head :: tail
  | .stopped gap spot => .error ⟨gap.itemProblem, spot⟩

/-- A list whose items are read one level deeper. -/
def Tree.sequence {α : Type} (depth : Nat) (read : Nat → Tree → Except Fault α) :
    Tree → Except Fault (List α)
  | .list start items =>
    if depth = 0 then .error ⟨.tooDeep, start.next⟩ else items.each (read (depth - 1))
  | t => .error (t.mismatch "a sequence")

/-- A field of a structure under construction. -/
structure Field (σ : Type) where
  /-- The name under which complaints mention the field. -/
  name : String
  /-- Further keys that stand for the field. -/
  aliases : List String
  /-- Takes the value of the field into the structure. -/
  read : Tree → σ → Except Fault σ

/-- Whether a key stands for a field. -/
def Field.accepts {σ : Type} (f : Field σ) (key : String) : Bool :=
  f.name = key || f.aliases.contains key

/-- The fields of a structure written as an object: the structure, the names seen, and the spot behind it. -/
def Members.fields {σ : Type} (fs : List (Field σ)) :
    Members → σ → List String → Except Fault (σ × List String × Spot)
  | .close stop, st, seen => .ok (st, seen, stop)
  | .member key settled v rest, st, seen => do
    let k ← key
    match fs.find? (·.accepts k) with
    | none =>
      v.skip
      rest.fields fs st seen
    | some f =>
      if seen.contains f.name then throw ⟨.duplicateField f.name, settled⟩
      let st ← f.read v st
      rest.fields fs st (f.name :: seen)
  | .stopped gap spot, _, _ => .error ⟨gap.memberProblem, spot⟩

/-- The fields of a structure written as a list: the structure, how many were given, and the spot behind it. -/
def Items.fields {σ : Type} : List (Field σ) → Items → σ → Nat → Except Fault (σ × Nat × Spot)
  | _, .close stop, st, n => .ok (st, n, stop)
  | [], .item start _ _, _, _ => .error ⟨.trailingCharacters, start⟩
  | [], .stopped gap spot, _, _ =>
    .error ⟨match gap with
      | .ended => .endOfList
      | .trailing => .trailingComma
      | _ => .trailingCharacters, spot⟩
  | f :: fs, .item _ v rest, st, n => do
    let st ← f.read v st
    rest.fields fs st (n + 1)
  | _ :: _, .stopped gap spot, _, _ => .error ⟨gap.itemProblem, spot⟩

/-- A structure, its first `required` fields being mandatory; `make` builds it one level deeper. -/
def Tree.structure {σ : Type} (title : String) (required : Nat) (depth : Nat)
    (make : Nat → List (Field σ)) (start : σ) : Tree → Except Fault σ
  | .record here members => do
    if depth = 0 then throw ⟨.tooDeep, here.next⟩
    let fs := make (depth - 1)
    let (st, seen, stop) ← members.fields fs start []
    match (fs.take required).find? (fun f => !seen.contains f.name) with
    | some f => throw ⟨.missingField f.name, stop⟩
    | none => return st
  | .list here items => do
    if depth = 0 then throw ⟨.tooDeep, here.next⟩
    let fs := make (depth - 1)
    let (st, n, stop) ← items.fields fs start 0
    if n < required then
      throw ⟨.invalidLength n ("struct " ++ title ++ " with " ++ toString fs.length ++ " elements"), stop⟩
    return st
  | t => .error (t.mismatch ("struct " ++ title))

end Json
end ArmPilot
