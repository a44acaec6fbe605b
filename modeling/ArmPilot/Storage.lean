import ArmPilot.Script
import ArmPilot.Log

/-!
# Where scripts are kept

A script is kept as a document in memory or in a file.  What is saved can be loaded again.
-/

namespace ArmPilot

/-- Why a script cannot be loaded. -/
inductive StorageError where
  /-- The file cannot be read. -/
  | io (path reason : String)
  | format (f : Json.Fault)

namespace StorageError

/-- The reason behind an error. -/
def reason : StorageError → String
  | .io _ reason => reason
  | .format f => f.message

/-- The wording of an error. -/
def message : StorageError → String
  | .io path reason => "failed to read " ++ path ++ ": " ++ reason
  | .format f => "invalid script format: " ++ f.message

end StorageError

/-- What a document is kept in. -/
inductive Medium where
  | memory
  | file (path : String)
deriving Repr, DecidableEq

/-- A document and what it is kept in. -/
structure Source where
  medium : Medium
  /-- The text of the document, or why it cannot be read. -/
  content : Except String String

namespace Source

/-- Why a file that does not exist cannot be read. -/
def absent : String := "No such file or directory (os error 2)"

/-- A document in memory. -/
def inMemory (content : String) : Source := ⟨.memory, .ok content⟩

/-- Where a document is kept, for a reader. -/
def describe (s : Source) : String :=
  match s.medium with
  | .memory => "<memory>"
  | .file path => path

/-- The script of a source. -/
def load (s : Source) : Except StorageError Script :=
  match s.content with
  | .error reason => .error (.io s.describe reason)
  | .ok text =>
    match Script.parse text with
    | .ok script => .ok script
    | .error f => .error (.format f)

/-- What is told when a script is loaded from a file. -/
def records (s : Source) (script : Script) : List Log.Record :=
  match s.medium with
  | .memory => []
  | .file path =>
    [⟨.debug, "armscript::loader", "Read " ++ toString script.events.length ++ " event(s) from " ++ path⟩]

/-- Keeps a script in place of the document. -/
def save (s : Source) (script : Script) : Source := { s with content := .ok script.render }

end Source
end ArmPilot
