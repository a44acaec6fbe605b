import ArmPilot.Word
import ArmPilot.Json.Shape
import ArmPilot.Json.Printer
import ArmPilot.Limits

/-!
# Configuration

The settings of the interpreter and the limits of the expression evaluator.  A configuration document
may leave out any field; rates and intervals are held in range when they are used, not when they are read.
-/

namespace ArmPilot

/-- The configuration of an interpreter. -/
structure Config where
  /-- Polls of the events in a second. -/
  tickRate : Nat
  stopPollMs : Nat
  sleepPollMs : Nat
  /-- The speed the robot is given at every start. -/
  defaultSpeed : Float
  workerStack : Option Nat
  limits : Limits
deriving Repr, BEq

namespace Config

/-- The configuration that an empty document gives. -/
def default : Config := ⟨50, 50, 50, 10.0, none, Limits.default⟩

instance : Inhabited Config := ⟨default⟩

/-- The greatest unsigned 64-bit count. -/
def countMax : Nat := Word.count - 1

/-- The greatest rate. -/
def rateMax : Nat := 4294967295

/-- The fields of the limits. -/
def limitFields (_ : Nat) : List (Json.Field Limits) :=
  [⟨"max_operations", [], fun t l => do return { l with maxOperations := ← t.count "u64" countMax }⟩,
   ⟨"max_call_levels", [], fun t l => do return { l with maxCallLevels := ← t.count "usize" countMax }⟩,
   ⟨"max_expr_depth", [], fun t l => do return { l with maxDepth := ← t.count "usize" countMax }⟩,
   ⟨"max_string_size", [], fun t l => do return { l with maxString := ← t.count "usize" countMax }⟩,
   ⟨"max_array_size", [], fun t l => do return { l with maxArray := ← t.count "usize" countMax }⟩,
   ⟨"max_map_size", [], fun t l => do return { l with maxMap := ← t.count "usize" countMax }⟩]

/-- The fields of a configuration. -/
def fields (depth : Nat) : List (Json.Field Config) :=
  [⟨"tick_rate", [], fun t c => do return { c with tickRate := ← t.count "u32" rateMax }⟩,
   ⟨"stop_poll_ms", [], fun t c => do return { c with stopPollMs := ← t.count "u64" countMax }⟩,
   ⟨"sleep_poll_ms", [], fun t c => do return { c with sleepPollMs := ← t.count "u64" countMax }⟩,
   ⟨"default_speed", [], fun t c => do return { c with defaultSpeed := ← t.real }⟩,
   ⟨"worker_stack_size", [], fun t c => do
      return { c with workerStack := ← t.optional (Json.Tree.count "usize" countMax) }⟩,
   ⟨"sandbox", [], fun t c => do
      return { c with limits := ← t.structure "SandboxConfig" 0 depth limitFields Limits.default }⟩]

/-- A configuration of a document, over the fields of another. -/
def ofTree (start : Config) (t : Json.Tree) : Except Json.Fault Config :=
  t.structure "InterpreterConfig" 0 Json.depthLimit fields start

/-- The configuration of a text. -/
def parse (text : String) : Except Json.Fault Config := Json.readWith (ofTree default) text

/-- The value of a configuration, its fields in their fixed order. -/
def toJson (c : Config) : Json :=
  let l := c.limits
  .obj [("tick_rate", .ofInt c.tickRate), ("stop_poll_ms", .ofInt c.stopPollMs),
    ("sleep_poll_ms", .ofInt c.sleepPollMs), ("default_speed", .num (.real c.defaultSpeed)),
    ("worker_stack_size", match c.workerStack with | some n => .ofInt n | none => .null),
    ("sandbox", .obj [("max_operations", .ofInt l.maxOperations), ("max_call_levels", .ofInt l.maxCallLevels),
      ("max_expr_depth", .ofInt l.maxDepth), ("max_string_size", .ofInt l.maxString),
      ("max_array_size", .ofInt l.maxArray), ("max_map_size", .ofInt l.maxMap)])]

/-- Nanoseconds of a millisecond. -/
def nanosPerMilli : Nat := 1000000

/-- The time between two ticks in nanoseconds: the double nearest to the fraction of a second, rounded. -/
def tickPeriod (c : Config) : Nat :=
  let seconds := Decimal.Binary.ofFloat (1.0 / Decimal.ofInt (max c.tickRate 1))
  Decimal.Binary.roundEven (seconds.numerator * 1000000000) seconds.denominator

/-- How often a stop looks whether the worker has ended. -/
def stopPoll (c : Config) : Nat := max c.stopPollMs 1 * nanosPerMilli

/-- How often a sleep looks whether it is cut short: between one and a hundred milliseconds. -/
def sleepPoll (c : Config) : Nat := min (max c.sleepPollMs 1) 100 * nanosPerMilli

/-- A tick rate from the environment: a positive 32-bit count, with a plus sign or without. -/
def parseRate? (text : String) : Option Nat :=
  let cs := text.toList
  let digits := match cs with
    | '+' :: rest => rest
    | _ => cs
  if digits.isEmpty ∨ !digits.all Text.isDigit then none
  else
    let n := digits.foldl (fun acc d => acc * 10 + Json.digitValue d) 0
    if 0 < n ∧ n ≤ rateMax then some n else none

end Config
end ArmPilot
