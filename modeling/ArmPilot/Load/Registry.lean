import ArmPilot.Event.Kinds

/-!
# The registry of kinds

Which kinds of commands and events there are.  A kind that is registered stays; its tag cannot be taken
again, and is not blank.
-/

namespace ArmPilot

/-- What a kind is a kind of. -/
inductive Category where
  | command
  | event
deriving Repr, DecidableEq

/-- The name of a category. -/
def Category.name : Category → String
  | .command => "command"
  | .event => "event"

/-- Why a kind cannot be registered. -/
inductive RegistryError where
  | duplicate (tag : String) (category : Category)
  | emptyTag
deriving Repr, DecidableEq

/-- The wording of an error. -/
def RegistryError.message : RegistryError → String
  | .duplicate tag category => "Kind '" ++ tag ++ "' is already registered as " ++ category.name
  | .emptyTag => "Kind tag must not be empty"

/-- The kinds that are known, by their tags. -/
structure Registry (σ : Type) where
  commands : List (String × Command.Factory σ)
  events : List (String × Event.Factory σ)

namespace Registry

variable {σ : Type}

/-- A registry without kinds. -/
def empty : Registry σ := ⟨[], []⟩

/-- The registry of the program's own kinds. -/
def builtin (o : Outside σ) : Registry σ := ⟨Command.kinds o, Event.kinds o⟩

/-- A tag that is free among others, or what is wrong with it. -/
def freeTag {α : Type} (category : Category) (tag : String) (taken : List (String × α)) :
    Except RegistryError Unit :=
  if Text.trim tag = "" then .error .emptyTag
  else if (Json.find? tag taken).isSome then .error (.duplicate tag category)
  else .ok ()

/-- Adds a kind of commands. -/
def registerCommand (r : Registry σ) (tag : String) (f : Command.Factory σ) :
    Except RegistryError (Registry σ) := do
  freeTag .command tag r.commands
  return { r with commands := r.commands ++ [(tag, f)] }

/-- Adds a kind of events. -/
def registerEvent (r : Registry σ) (tag : String) (f : Event.Factory σ) :
    Except RegistryError (Registry σ) := do
  freeTag .event tag r.events
  return { r with events := r.events ++ [(tag, f)] }

/-- The target of what loading tells. -/
def target : String := "armscript::loader"

/-- The record of a registration. -/
def registered (category : Category) (tag : String) : Log.Record :=
  ⟨.debug, target, "Registering " ++ category.name ++ " kind: " ++ tag⟩

/-- Builds a command. -/
def buildCommand (r : Registry σ) (tag : String) (ps : Parameters) : Except LoadError (Built (Command σ)) :=
  match Json.find? tag r.commands with
  | none => .error .unknownCommandKind
  | some f => (f ps).map fun b => b.map fun a => ⟨tag, ps, a⟩

/-- Builds an event, as yet without commands. -/
def buildEvent (r : Registry σ) (tag : String) (ps : Parameters) : Except LoadError (Built (Event σ)) :=
  match Json.find? tag r.events with
  | none => .error .unknownEventKind
  | some f => (f ps).map fun b => b.map fun t => ⟨tag, ps, t, []⟩

/-- Tags in their order. -/
def sortedTags {α : Type} (kinds : List (String × α)) : List String :=
  (kinds.foldl (fun acc k => Json.insert k.1 () acc) []).map (·.1)

/-- The tags of the commands, in their order. -/
def commandTags (r : Registry σ) : List String := sortedTags r.commands

/-- The tags of the events, in their order. -/
def eventTags (r : Registry σ) : List String := sortedTags r.events

end Registry
end ArmPilot
