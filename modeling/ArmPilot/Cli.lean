import ArmPilot.Word
import ArmPilot.Storage
import ArmPilot.Interpreter.Session

/-!
# The command line

The program checks a script or runs it against simulated machines.  What it does is a function of its arguments, its
environment and the files it reads: an exit code, lines of output, and lines of diagnostics.
-/

namespace ArmPilot
namespace Cli

/-- How a script is to be run. -/
structure RunOptions where
  script : String
  config : Option String
  /-- The time after which the run is stopped, in nanoseconds. -/
  duration : Option Nat
deriving Repr, DecidableEq

/-- What the arguments ask for. -/
inductive Request where
  | nothing
  | help
  | run (o : RunOptions)
  | check (path : String)
  /-- The arguments cannot be understood. -/
  | wrong (message : String)
deriving Repr, DecidableEq

/-- The duration that an argument names. -/
def duration? (text : String) : Option Nat := (Decimal.parse? text).bind Command.duration?

/-- The options of a run, after those that were given so far. -/
def runOptions : Option String → Option String → Option Nat → List String → Except String RunOptions
  | script, config, duration, [] =>
    match script with
    | some s => .ok ⟨s, config, duration⟩
    | none => .error "Missing script file path"
  | script, config, duration, arg :: rest =>
    if arg = "--config" then
      match rest with
      | path :: rest => runOptions script (some path) duration rest
      | [] => .error "--config needs a file path"
    else if arg = "--duration" then
      match rest with
      | text :: rest =>
        match duration? text with
        | some d => runOptions script config (some d) rest
        | none => .error ("Invalid duration '" ++ text ++ "'")
      | [] => .error "--duration needs a number of seconds"
    else
      match script with
      | none => runOptions (some arg) config duration rest
      | some _ => .error ("Unexpected argument '" ++ arg ++ "'")

/-- What arguments ask for. -/
def Request.ofArgs : List String → Request
  | [] => .nothing
  | "run" :: rest =>
    match runOptions none none none rest with
    | .ok o => .run o
    | .error message => .wrong message
  | "check" :: path :: _ => .check path
  | "check" :: [] => .wrong "Missing script file path"
  | "--help" :: _ | "-h" :: _ => .help
  | other :: _ => .wrong ("Unknown command '" ++ other ++ "'")

/-- The files that a request needs. -/
def Request.files : Request → List String
  | .run o => o.config.toList ++ [o.script]
  | .check path => [path]
  | _ => []

/-- How the program is used. -/
def usage : List String :=
  ["armscript - Event-driven robot arm script interpreter",
    "",
    "USAGE:",
    "    armscript run <script.json> [--config <file>] [--duration <secs>]",
    "    armscript check <script.json>",
    "",
    "COMMANDS:",
    "    run <file>      Run a script against the simulated robot",
    "    check <file>    Load a script and report load errors",
    "    --help, -h      Show this help message",
    "",
    "ENVIRONMENT:",
    "    ARMSCRIPT_LOG         Log level (trace, debug, info, warn, error)",
    "    ARMSCRIPT_TICK_RATE   Ticks per second, overrides the config file"]

/-- What the program finds around it. -/
structure Environment where
  /-- The setting of the level of the log. -/
  log : Option String
  /-- The setting of the tick rate. -/
  tickRate : Option String
  /-- The text of a file, or why it cannot be read. -/
  read : String → Except String String

/-- What the program does. -/
structure Output where
  code : Nat
  stdout : List String
  /-- What is told, before the lines that explain a failure. -/
  records : List Log.Record
  complaints : List String

namespace Output

/-- The lines of diagnostics that are shown. -/
def stderr (f : Log.Filter) (o : Output) : List String :=
  ((o.records.filter fun r => f.shows r.level r.target).map (·.line)) ++ o.complaints

end Output

/-- The filter of the log in an environment. -/
def filter (e : Environment) : Log.Filter :=
  .upTo ((e.log.bind Log.parseLevel?).getD (some .info))

/-- The failure of a request, after some output. -/
def failed (what reason : String) (stdout : List String) (records : List Log.Record) : Output :=
  ⟨1, stdout, records, ["Error: " ++ what ++ " failed", "Reason: " ++ reason]⟩

/-- The reason of a storage error with what is behind it. -/
def storageReason (e : StorageError) : String := e.message ++ ": " ++ e.reason

/-- The reason of an error of the interpreter with what is behind it. -/
def lifecycleReason : LifecycleError → String
  | .spawn => LifecycleError.message .spawn ++ ": " ++ spawnReason
  | e => e.message

/-- The simulated world at the start. -/
def world : World Attendant := World.initial .idle

/-- A camera that answers without doing anything else. -/
def camera : Session.Camera := fun _ w => .ok w

/-- More ticks than any run is followed for. -/
def tickLimit : Nat := Word.count

/-- Longer than any run. -/
def forever : Nat := Word.count * Word.count

/-- An interpreter with simulated machines. -/
def interpreter (c : Config) : Interpreter Attendant :=
  .create c (.builtin (Session.outside camera)) world

/-- Loads a script and reports. -/
def check (e : Environment) (path : String) : Output :=
  let source : Source := ⟨.file path, e.read path⟩
  match source.load with
  | .error err => failed "Check" (storageReason err) [] []
  | .ok script =>
    let l := load (interpreter .default).registry script
    let heading := path ++ ": " ++ toString script.events.length ++ " event(s), " ++
      toString script.commandCount ++ " command(s), " ++ toString l.events.length ++ " loaded"
    ⟨if l.report.isEmpty then 0 else 2, [heading, l.report.text], source.records script ++ l.records, []⟩

/-- The configuration of a run: that of a file, or the default. -/
def config (e : Environment) (o : RunOptions) : Except String Config :=
  match o.config with
  | none => .ok .default
  | some path =>
    match e.read path with
    | .error reason => .error reason
    | .ok text => (Config.parse text).mapError (·.message)

/-- A configuration with the tick rate of the environment, and what is told about it. -/
def overridden (e : Environment) (c : Config) : Config × List Log.Record :=
  match e.tickRate with
  | none => (c, [])
  | some text =>
    match Config.parseRate? text with
    | some rate => ({ c with tickRate := rate }, [])
    | none => (c, [⟨.warn, "armscript::config", "Ignoring invalid ARMSCRIPT_TICK_RATE=" ++ text⟩])

/-- The orders of a run, after the script is loaded. -/
def orders (o : RunOptions) : List Session.Order :=
  [.start true, .wait (o.duration.getD forever), .remark "Time limit reached, stopping", .stop]

/-- Runs a script. -/
def run (e : Environment) (o : RunOptions) : Output :=
  match config e o with
  | .error reason => failed "Run" reason [] []
  | .ok c =>
    let (c, told) := overridden e c
    let source : Source := ⟨.file o.script, e.read o.script⟩
    match source.load with
    | .error err => failed "Run" (storageReason err) [] told
    | .ok script =>
      let i := interpreter c
      let i := { i with world := { i.world with records := (told ++ source.records script).reverse } }
      match Session.play camera tickLimit (.load script :: orders o) i with
      | (.report r :: replies, i) =>
        let records := i.world.records.reverse
        match replies with
        | [_, _, _, .summary s] => ⟨0, [r.text, s.toJson.pretty], records, []⟩
        | .failed err :: _ | [_, _, _, .failed err] => failed "Run" (lifecycleReason err) [r.text] records
        | _ => failed "Run" "" [r.text] records
      | (_, i) => failed "Run" "" [] i.world.records.reverse

/-- What the program does when it is called with arguments. -/
def main (e : Environment) (args : List String) : Output :=
  match Request.ofArgs args with
  | .nothing => ⟨1, usage, [], []⟩
  | .help => ⟨0, usage, [], []⟩
  | .wrong message => ⟨1, usage, [], ["Error: " ++ message, ""]⟩
  | .check path => check e path
  | .run o => run e o

end Cli
end ArmPilot
