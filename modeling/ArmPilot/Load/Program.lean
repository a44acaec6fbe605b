import ArmPilot.Load.Registry

/-!
# Loading a script

Loading builds the events of a script with their commands.  It never fails: every problem is reported, an
event that cannot be built is left out with its commands, a command of an unknown kind is left out, and any
other command that cannot be built is replaced by one that never lets its block run.
-/

namespace ArmPilot

/-- A problem as it was met: the kind that had it, and what is told about it. -/
structure Finding where
  problem : LoadError
  kind : String
  text : String
deriving Repr, DecidableEq

/-- The record of a finding. -/
def Finding.record (f : Finding) : Log.Record := ⟨.warn, Registry.target, f.text⟩

/-- The finding of a problem that kept a kind from being built. -/
def Finding.against (consequence : String) (problem : LoadError) (kind : String) : Finding :=
  ⟨problem, kind, consequence ++ " " ++ kind ++ ": " ++ problem.message⟩

/-- The findings of the problems that did not prevent a kind from being built. -/
def Built.findings {α : Type} (b : Built α) (kind : String) : List Finding :=
  b.problems.map fun e => ⟨e, kind, kind ++ ": " ++ e.message⟩

/-- What became of a description. -/
structure Loading (α : Type) where
  findings : List Finding
  result : Option α

namespace Loading

variable {σ : Type}

/-- Loads a command. -/
def command (r : Registry σ) (d : CommandDescriptor) : Loading (Command σ) :=
  match r.buildCommand d.kind d.parameters with
  | .ok b => ⟨b.findings d.kind, some b.value⟩
  | .error .unknownCommandKind => ⟨[.against "Skipping command" .unknownCommandKind d.kind], none⟩
  | .error e => ⟨[.against "Disabling command" e d.kind], some (.rejected d.kind d.parameters)⟩

/-- Loads an event with its commands. -/
def event (r : Registry σ) (d : EventDescriptor) : Loading (Event σ) :=
  match r.buildEvent d.kind d.parameters with
  | .error e => ⟨[.against "Skipping event" e d.kind], none⟩
  | .ok b =>
    let commands := d.commands.map (command r)
    ⟨b.findings d.kind ++ commands.flatMap (·.findings),
      some { b.value with commands := commands.filterMap (·.result) }⟩

/-- What is told about an event. -/
def records (l : Loading (Event σ)) : List Log.Record :=
  l.findings.map (·.record) ++
    match l.result with
    | some e =>
      [⟨.debug, Registry.target,
        "Loaded " ++ e.kind ++ " with " ++ toString e.commands.length ++ " command(s)"⟩]
    | none => []

end Loading

/-- A loaded script. -/
structure Loaded (σ : Type) where
  events : List (Event σ)
  report : Report
  /-- What was told while loading, in order. -/
  records : List Log.Record

/-- The report of findings. -/
def Report.ofFindings (fs : List Finding) : Report := fs.foldl (fun r f => r.record f.problem f.kind) []

/-- Loads a script. -/
def load {σ : Type} (r : Registry σ) (s : Script) : Loaded σ :=
  let items := s.events.map (Loading.event r)
  let events := items.filterMap (·.result)
  let report := Report.ofFindings (items.flatMap (·.findings))
  { events := events
    report := report
    records := items.flatMap Loading.records ++
      [⟨.info, Registry.target,
        "Loaded " ++ toString events.length ++ " of " ++ toString s.events.length ++ " event(s), " ++
          toString report.length ++ " error kind(s)"⟩] }

/-- The events of a script are those of its descriptions that can be built. -/
theorem events_load {σ : Type} (r : Registry σ) (s : Script) :
    (load r s).events = s.events.filterMap fun d => (Loading.event r d).result := List.filterMap_map

/-- The events of scripts one after the other are the events of each. -/
theorem events_load_append {σ : Type} (r : Registry σ) (s t : Script) :
    (load r ⟨s.events ++ t.events⟩).events = (load r s).events ++ (load r t).events := by
  rw [events_load, events_load, events_load, List.filterMap_append]

end ArmPilot
