import ArmPilot.Json.Shape
import ArmPilot.Json.Printer

/-!
# Stored scripts

A script is a list of events, each with the commands it runs.  In a document an event or a command is an
object with a `type` (or, from older editors, `typeLogic`), its `parameters` and, for an event, its
`commandList`; or a list of these fields in that order.
-/

namespace ArmPilot

/-- The parameters of a command or an event, in the order of their names. -/
abbrev Parameters := List (String × Json)

/-- A command as stored. -/
structure CommandDescriptor where
  kind : String
  parameters : Parameters
deriving Repr, BEq, Inhabited

/-- An event as stored, with its commands. -/
structure EventDescriptor where
  kind : String
  parameters : Parameters
  commands : List CommandDescriptor
deriving Repr, BEq, Inhabited

/-- A script as stored. -/
structure Script where
  events : List EventDescriptor
deriving Repr, BEq, Inhabited

/-- The value of a command descriptor. -/
def CommandDescriptor.toJson (c : CommandDescriptor) : Json :=
  .obj [("type", .str c.kind), ("parameters", .obj c.parameters)]

/-- The value of an event descriptor. -/
def EventDescriptor.toJson (e : EventDescriptor) : Json :=
  .obj [("type", .str e.kind), ("parameters", .obj e.parameters),
    ("commandList", .arr (e.commands.map CommandDescriptor.toJson))]

/-- The field that holds the kind of a command. -/
def CommandDescriptor.fields (depth : Nat) : List (Json.Field CommandDescriptor) :=
  [⟨"type", ["typeLogic"], fun t d => do return { d with kind := ← t.string }⟩,
   ⟨"parameters", [], fun t d => do return { d with parameters := ← t.mapping depth }⟩]

/-- A command descriptor of a document. -/
def CommandDescriptor.ofTree (depth : Nat) (t : Json.Tree) : Except Json.Fault CommandDescriptor :=
  t.structure "CommandDescriptor" 1 depth CommandDescriptor.fields ⟨"", []⟩

/-- The fields of an event. -/
def EventDescriptor.fields (depth : Nat) : List (Json.Field EventDescriptor) :=
  [⟨"type", ["typeLogic"], fun t d => do return { d with kind := ← t.string }⟩,
   ⟨"parameters", [], fun t d => do return { d with parameters := ← t.mapping depth }⟩,
   ⟨"commandList", [], fun t d => do
      return { d with commands := ← t.sequence depth CommandDescriptor.ofTree }⟩]

/-- An event descriptor of a document. -/
def EventDescriptor.ofTree (depth : Nat) (t : Json.Tree) : Except Json.Fault EventDescriptor :=
  t.structure "EventDescriptor" 1 depth EventDescriptor.fields ⟨"", [], []⟩

namespace Script

/-- Whether there are no events. -/
def isEmpty (s : Script) : Bool := s.events.isEmpty

/-- The number of commands of all events. -/
def commandCount (s : Script) : Nat := (s.events.flatMap (·.commands)).length

/-- The value of a script. -/
def toJson (s : Script) : Json := .arr (s.events.map EventDescriptor.toJson)

/-- The compact text of a script. -/
def compact (s : Script) : String := s.toJson.compact

/-- The text of a script as it is stored, set out on lines. -/
def render (s : Script) : String := s.toJson.pretty

/-- A script of a document. -/
def ofTree (t : Json.Tree) : Except Json.Fault Script :=
  (t.sequence Json.depthLimit EventDescriptor.ofTree).map Script.mk

/-- The script of a text. -/
def parse (text : String) : Except Json.Fault Script := Json.readWith ofTree text

end Script
end ArmPilot
