import ArmPilot.Cli

/-!
# The program

Reads the files that the arguments name, does what the command line asks for, and shows what comes of it.
-/

namespace ArmPilot

/-- Why a file cannot be read. -/
def readReason : IO.Error → String
  | .noFileOrDirectory .. => Source.absent
  | .permissionDenied .. => "Permission denied (os error 13)"
  | .inappropriateType .. => "Is a directory (os error 21)"
  | e => toString e

/-- The text of a file, or why it cannot be read. -/
def readText (path : String) : IO (Except String String) := do
  try
    return .ok (← IO.FS.readFile path)
  catch e => return .error (readReason e)

/-- The files that a request needs. -/
def readAll (paths : List String) : IO (List (String × Except String String)) :=
  paths.mapM fun path => do return (path, ← readText path)

end ArmPilot

open ArmPilot in
/-- The program. -/
def main (args : List String) : IO UInt32 := do
  let files ← readAll (Cli.Request.ofArgs args).files
  let e : Cli.Environment :=
    { log := ← IO.getEnv "ARMSCRIPT_LOG"
      tickRate := ← IO.getEnv "ARMSCRIPT_TICK_RATE"
      read := fun path => ((files.find? (·.1 = path)).map (·.2)).getD (.error Source.absent) }
  let out := Cli.main e args
  for line in out.stderr (Cli.filter e) do
    IO.eprintln line
  for line in out.stdout do
    IO.println line
  return out.code.toUInt32
