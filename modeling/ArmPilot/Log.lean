import ArmPilot.Text.Blank

/-!
# The log

What the program tells about itself: records with a level and a target, and a filter that shows those up to
a level, as a rule only the program's own.
-/

namespace ArmPilot
namespace Log

/-- How grave a record is, the gravest first. -/
inductive Level where
  | error
  | warn
  | info
  | debug
  | trace
deriving Repr, DecidableEq

namespace Level

/-- The rank of a level; a filter shows the ranks up to its own, and zero shows nothing. -/
def rank : Level → Nat
  | .error => 1
  | .warn => 2
  | .info => 3
  | .debug => 4
  | .trace => 5

/-- The name of a level. -/
def name : Level → String
  | .error => "ERROR"
  | .warn => "WARN"
  | .info => "INFO"
  | .debug => "DEBUG"
  | .trace => "TRACE"

end Level

/-- A line of the log. -/
structure Record where
  level : Level
  target : String
  text : String
deriving Repr, DecidableEq

/-- A record as it is listed. -/
def Record.summary (r : Record) : String := r.level.name ++ " " ++ r.target ++ ": " ++ r.text

/-- A record as it is shown on a terminal, its target in a column of eighteen characters. -/
def Record.line (r : Record) : String :=
  "[" ++ r.level.name ++ "] " ++ r.target ++ String.ofList (List.replicate (18 - r.target.length) ' ') ++ " "
    ++ r.text

/-- The targets of the records of the program. -/
def ownPrefix : String := "armscript"

/-- Which records are shown: those up to a level, or none. -/
structure Filter where
  level : Option Level
  /-- Whether records of other programs are shown as well. -/
  foreign : Bool
deriving Repr, DecidableEq

namespace Filter

/-- The filter of a level for the program's own records. -/
def upTo (level : Option Level) : Filter := ⟨level, false⟩

/-- The filter that is used without a setting. -/
def default : Filter := upTo (some .info)

/-- Whether a filter shows records of a level and a target. -/
def shows (f : Filter) (level : Level) (target : String) : Bool :=
  (match f.level with
   | some most => level.rank ≤ most.rank
   | none => false) && (f.foreign || ownPrefix.toList.isPrefixOf target.toList)

/-- The name of the level of a filter. -/
def name (f : Filter) : String :=
  match f.level with
  | some l => l.name
  | none => "OFF"

end Filter

/-- The level that a text names in any case of letters: `none` if it names none, and `some none` for no records at all. -/
def parseLevel? (text : String) : Option (Option Level) :=
  match (Text.trim text).map Char.toLower with
  | "off" => some none
  | "error" => some (some .error)
  | "warn" => some (some .warn)
  | "info" => some (some .info)
  | "debug" => some (some .debug)
  | "trace" => some (some .trace)
  | _ => none

end Log
end ArmPilot
