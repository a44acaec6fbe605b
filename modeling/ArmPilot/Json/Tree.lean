import ArmPilot.Json.Numeral
import ArmPilot.Json.Fault

/-!
# Located documents

Reading a document yields a `Tree`: its values together with the spots at which a later complaint would
be reported.  A text that breaks off or goes wrong still yields a tree, which ends in a `broken` leaf or
a stopped list; whoever walks the tree in the order of the text meets the first complaint first, be it
about the spelling or about the shape of the document.

`Tree.value` is the walk that asks for any value at all; `Tree.skip` is the walk over a value nobody wants.
-/

namespace ArmPilot
namespace Json

/-- What stands where a comma or the end of a list belongs. -/
inductive Gap where
  /-- The text ends. -/
  | ended
  /-- Something else stands there. -/
  | other
  /-- The closing bracket stands behind a comma. -/
  | trailing
  /-- The text ends behind a comma. -/
  | endedAfterComma
  /-- Something that is no key stands where a key belongs. -/
  | noKey
deriving Repr, DecidableEq

mutual

/-- A value of a document, with its spots. -/
inductive Tree where
  | null (stop : Spot)
  | bool (b : Bool) (stop : Spot)
  | number (n : Numeral) (stop : Spot)
  | text (content : Except Fault String) (stop : Spot)
  | list (start : Spot) (items : Items)
  | record (start : Spot) (members : Members)
  /-- A text that goes wrong: the fault, and the one that is met if the value is passed over. -/
  | broken (fault passed : Fault)

/-- The items of a list, up to its end or to where it stops. -/
inductive Items where
  | close (stop : Spot)
  /-- An item; `start` is where a complaint about its being there is reported. -/
  | item (start : Spot) (v : Tree) (rest : Items)
  | stopped (gap : Gap) (spot : Spot)

/-- The members of an object, up to its end or to where it stops. -/
inductive Members where
  | close (stop : Spot)
  /-- A member; `settled` is where a complaint about its key is reported. -/
  | member (key : Except Fault String) (settled : Spot) (v : Tree) (rest : Members)
  | stopped (gap : Gap) (spot : Spot)

end

instance : Inhabited Tree := ⟨.null default⟩

/-- The complaint about what stands between items. -/
def Gap.itemProblem : Gap → Problem
  | .ended => .endOfList
  | .other => .expectedListCommaOrEnd
  | .trailing => .trailingComma
  | .endedAfterComma => .endOfValue
  | .noKey => .expectedListCommaOrEnd

/-- The complaint about what stands between members. -/
def Gap.memberProblem : Gap → Problem
  | .ended => .endOfObject
  | .other => .expectedObjectCommaOrEnd
  | .trailing => .trailingComma
  | .endedAfterComma => .endOfValue
  | .noKey => .keyMustBeString

/-- How many brackets may be open at once, the innermost included. -/
def depthLimit : Nat := 127

/-- The spot one column on. -/
def Spot.next (s : Spot) : Spot := ⟨s.line, s.column + 1⟩

/-- The value of a numeral, with its fault located. -/
def numberAt (n : Numeral) (stop : Spot) : Except Fault Number :=
  match n.value with
  | .ok v => .ok v
  | .error left => .error ⟨.numberOutOfRange, ⟨stop.line, stop.column - left⟩⟩

mutual

/-- The value of a tree, whatever it is, with at most `depth` further brackets open. -/
def Tree.value (depth : Nat) : Tree → Except Fault Json
  | .null _ => .ok .null
  | .bool b _ => .ok (.bool b)
  | .number n stop => (numberAt n stop).map .num
  | .text content _ => content.map .str
  | .list start items =>
    if depth = 0 then .error ⟨.tooDeep, start.next⟩ else (items.values (depth - 1)).map .arr
  | .record start members =>
    if depth = 0 then .error ⟨.tooDeep, start.next⟩ else (members.values (depth - 1) []).map .obj
  | .broken f _ => .error f

/-- The values of the items of a list. -/
def Items.values (depth : Nat) : Items → Except Fault (List Json)
  | .close _ => .ok []
  | .item _ v rest => do
    let head ← v.value depth
    let tail ← rest.values depth
    return head :: tail
  | .stopped gap spot => .error ⟨gap.itemProblem, spot⟩

/-- The members of an object, put into `acc`; of members with one key the last counts. -/
def Members.values (depth : Nat) : Members → List (String × Json) → Except Fault (List (String × Json))
  | .close _, acc => .ok acc
  | .member key _ v rest, acc => do
    let k ← key
    let head ← v.value depth
    rest.values depth (insert k head acc)
  | .stopped gap spot, _ => .error ⟨gap.memberProblem, spot⟩

end

mutual

/-- Walks over a value that is not wanted: only its spelling counts, and strings may hold halves of surrogate pairs. -/
def Tree.skip : Tree → Except Fault Unit
  | .null _ => .ok ()
  | .bool _ _ => .ok ()
  | .number _ _ => .ok ()
  | .text _ _ => .ok ()
  | .list _ items => items.skip
  | .record _ members => members.skip
  | .broken _ f => .error f

/-- Walks over the items of a list. -/
def Items.skip : Items → Except Fault Unit
  | .close _ => .ok ()
  | .item _ v rest => do
    v.skip
    rest.skip
  | .stopped gap spot =>
    .error ⟨if gap = .trailing then .expectedValue else gap.itemProblem, spot⟩

/-- Walks over the members of an object. -/
def Members.skip : Members → Except Fault Unit
  | .close _ => .ok ()
  | .member _ _ v rest => do
    v.skip
    rest.skip
  | .stopped gap spot =>
    .error ⟨match gap with
      | .trailing => .keyMustBeString
      | .endedAfterComma => .endOfObject
      | g => g.memberProblem, spot⟩

end

end Json
end ArmPilot
