import ArmPilot.Log

/-!
# Problems of loading

What can be wrong with the description of an event or a command, and the report that collects it.  The
report lists every problem once, in a fixed order, with the kinds that had it in the order of loading.
-/

namespace ArmPilot

/-- What is wrong with a description. -/
inductive LoadError where
  | unknownEventKind
  | unknownCommandKind
  | missingParameter (name : String)
  | invalidParameter (name reason : String)
  | invalidExpression (name reason : String)
deriving Repr, DecidableEq

namespace LoadError

/-- The wording of a problem. -/
def message : LoadError → String
  | .unknownEventKind => "Unknown event kind"
  | .unknownCommandKind => "Unknown command kind"
  | .missingParameter name => "Missing parameter '" ++ name ++ "'"
  | .invalidParameter name reason => "Invalid parameter '" ++ name ++ "': " ++ reason
  | .invalidExpression name reason => "Invalid expression in '" ++ name ++ "': " ++ reason

/-- The group of a problem, then the parameter and the reason: the order of a report. -/
def key : LoadError → Nat × String × String
  | .unknownEventKind => (0, "", "")
  | .unknownCommandKind => (1, "", "")
  | .missingParameter name => (2, name, "")
  | .invalidParameter name reason => (3, name, reason)
  | .invalidExpression name reason => (4, name, reason)

/-- Problems with one key are one problem. -/
theorem key_injective {a b : LoadError} (h : a.key = b.key) : a = b := by
  cases a <;> cases b <;> simp_all [key]

/-- Whether a problem comes before another in a report. -/
def before (a b : LoadError) : Bool :=
  let (i, n, r) := a.key
  let (j, m, s) := b.key
  i < j || (i = j && (n < m || (n = m && r < s)))

end LoadError

/-- The problems of a script, in their order, each with the kinds that had it. -/
abbrev Report := List (LoadError × List String)

namespace Report

/-- Adds a problem of a kind. -/
def record (e : LoadError) (kind : String) : Report → Report
  | [] => [(e, [kind])]
  | (f, kinds) :: rest =>
    if e = f then (f, kinds ++ [kind]) :: rest
    else if e.before f then (e, [kind]) :: (f, kinds) :: rest
    else (f, kinds) :: record e kind rest

/-- The kinds that had a problem. -/
def kinds (e : LoadError) : Report → List String
  | [] => []
  | (f, ks) :: rest => if e = f then ks else kinds e rest

/-- A record adds its kind to its own problem and leaves the others alone. -/
theorem kinds_record_of_ne {e f : LoadError} (h : f ≠ e) (kind : String) (r : Report) :
    (r.record e kind).kinds f = r.kinds f := by
  induction r with
  | nil => simp [record, kinds, h]
  | cons p rest ih =>
    obtain ⟨g, ks⟩ := p
    unfold record
    split
    · rename_i he
      subst he
      simp [kinds, h]
    · split <;> simp [kinds, h, ih]

/-- The text of a report, a line for each problem. -/
def text (r : Report) : String :=
  if r.isEmpty then "No load errors"
  else "\n".intercalate (r.map fun (e, ks) => "  " ++ e.message ++ ": " ++ ", ".intercalate ks)

end Report

/-- A value that could be built, with the problems that did not prevent it. -/
structure Built (α : Type) where
  value : α
  problems : List LoadError

namespace Built

/-- A value without problems. -/
def sound {α : Type} (a : α) : Built α := ⟨a, []⟩

/-- Another value with the same problems. -/
def map {α β : Type} (f : α → β) (b : Built α) : Built β := ⟨f b.value, b.problems⟩

end Built
end ArmPilot
