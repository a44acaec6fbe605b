import ArmPilot.Load.Parameters
import ArmPilot.Sandbox.Basic
import ArmPilot.Proofs.Failing
import ArmPilot.Proofs.Lang.Bounds.Statement
import ArmPilot.Proofs.Lang.Bounds.Texts
import ArmPilot.Proofs.Lang.Faults.Statement

/-!
# The check at load and the run

The check at load reads code under bounds of its own, a sandbox under those of its configuration.  Both verdicts are the
one that no bounds would give, unless a limit of theirs is met.
-/

namespace ArmPilot

open Lang (Overlong)

namespace Lang.Bounds

/-- No bounds. -/
def unbounded : Bounds := ⟨0, 0, 0, 0, 0⟩

/-- A script is refused for a limit: one that the parser meets, or the one on texts. -/
def Stops (b : Bounds) (text : String) (e : SyntaxError) : Prop := b.Bars e.refusal ∨ Overlong b.maxString text

theorem within_unbounded (b : Bounds) : b.Within unbounded := ⟨.inl rfl, .inl rfl, .inl rfl, .inl rfl, .inl rfl⟩

end Lang.Bounds

/-- The kinds of code that a parameter may hold. -/
inductive Code where
  | expression
  | script

namespace Code

open Lang

variable {σ : Type}

/-- Reads code. -/
def parse : Code → Bounds → Nat → String → Except SyntaxError Program
  | .expression => Bounds.parseExpression
  | .script => Bounds.parseScript

/-- Why code is refused, if it is. -/
def refusal? (k : Code) (b : Bounds) (text : String) : Option SyntaxError :=
  match k.parse b 0 text with
  | .error e => some e
  | .ok _ => none

/-- The code of a parameter, with the problem that the check at load finds. -/
def parameter : Code → Parameters → String → Except LoadError (Built String)
  | .expression => Parameters.expression
  | .script => Parameters.script

/-- Runs code, whatever its value is. -/
def run (o : Outside σ) : Code → String → Act σ (Except SandboxError Unit)
  | .expression => fun text => do return (← Act.tryEvaluate o text).map fun _ => ()
  | .script => Act.tryExecute o

variable {k : Code} {b w : Bounds} {text : String}

/-- How many functions there are already has no part in a refusal. -/
theorem parse_eq_error_iff (first : Nat) {e : SyntaxError} :
    k.parse b first text = .error e ↔ k.refusal? b text = some e := by
  unfold refusal?
  cases k with
  | expression =>
    unfold parse Bounds.parseExpression
    dsimp only
    split <;> simp_all
  | script =>
    unfold parse Bounds.parseScript
    dsimp only
    split <;> simp_all

theorem refusal?_overlong (k : Code) (h : Overlong b.maxString text) : ∃ e, k.refusal? b text = some e := by
  obtain ⟨-, p, hp⟩ := h
  cases k with
  | expression => exact (Bounds.parseExpression_faulty hp 0).imp fun _ => (parse_eq_error_iff (k := .expression) 0).1
  | script => exact (Bounds.parseScript_faulty hp 0).imp fun _ => (parse_eq_error_iff (k := .script) 0).1

theorem ne_none_of_overlong (k : Code) (h : Overlong b.maxString text) : k.refusal? b text ≠ none := by
  obtain ⟨e, he⟩ := refusal?_overlong k h
  rw [he]
  exact Option.some_ne_none e

/-- Under wider bounds code is refused for the same reason, unless a narrow limit stops it. -/
theorem refusal?_within (k : Code) (h : b.Within w) (text : String) :
    k.refusal? b text = k.refusal? w text ∨ ∃ e, k.refusal? b text = some e ∧ b.Stops text e := by
  by_cases hl : Overlong b.maxString text
  · obtain ⟨e, he⟩ := refusal?_overlong k hl
    exact .inr ⟨e, he, .inr hl⟩
  have ht := tokenize_alike h.string hl
  have hparse : k.parse b 0 text = k.parse w 0 text ∨ ∃ e, k.parse b 0 text = .error e ∧ b.Bars e.refusal := by
    cases k with
    | expression => exact Bounds.parseExpression_within h 0 ht
    | script => exact Bounds.parseScript_within h 0 ht
  obtain heq | ⟨e, he, hb⟩ := hparse
  · exact .inl (by unfold refusal?; rw [heq])
  · exact .inr ⟨e, (parse_eq_error_iff 0).1 he, .inl hb⟩

/-- Code that narrow bounds let pass passes wider ones. -/
theorem refusal?_eq_none (h : b.Within w) (hb : k.refusal? b text = none) : k.refusal? w text = none := by
  obtain heq | ⟨e, he, -⟩ := k.refusal?_within h text
  · exact heq ▸ hb
  · cases hb.symm.trans he

theorem parameter_eq {ps : Parameters} {name : String} (h : Parameters.text ps name = .ok text) :
    k.parameter ps name =
      .ok ⟨text, ((k.refusal? .checked text).map fun e => .invalidExpression name e.message).toList⟩ := by
  have hchecked : k.parameter ps name = Parameters.checked (k.parse .checked 0) ps name := by cases k <;> rfl
  rw [hchecked, refusal?, Parameters.checked, h]
  dsimp only [bind, Except.bind]
  cases k.parse .checked 0 text with
  | error e => rfl
  | ok p => rfl

/-- Code that has been read is not refused when it is evaluated. -/
theorem evalProgram_ne_refused (o : Outside σ) (p : Program) (s : Scene σ) (e : SyntaxError) :
    ((Act.evalProgram o p).run.run s).1 ≠ .ok (.error (.refused e)) := by
  intro h
  unfold Act.evalProgram at h
  dsimp only [ExceptT.run, ExceptT.mk, StateT.run] at h
  generalize (p.eval _ _ _) s.store = r at h
  obtain ⟨r, t⟩ := r
  cases r with
  | ok v => cases h
  | error i => cases i <;> cases h

/-- Code that cannot be read leaves everything as it is. -/
theorem run_of_error (o : Outside σ) {s : Scene σ} {e : SyntaxError}
    (h : k.parse s.sandbox.bounds s.sandbox.routines text = .error e) :
    (k.run o text).run.run s = (.ok (.error (.refused e)), s) := by
  cases k with
  | expression =>
    rw [parse] at h
    unfold run Act.tryEvaluate
    rw [Failing.run_bind, Failing.run_get_bind]
    dsimp only
    rw [h]
    rfl
  | script =>
    rw [parse] at h
    unfold run Act.tryExecute
    rw [Failing.run_get_bind]
    dsimp only
    rw [h]
    rfl

/-- Code that can be read is not refused. -/
theorem run_of_ok (o : Outside σ) {s : Scene σ} {p : Program}
    (h : k.parse s.sandbox.bounds s.sandbox.routines text = .ok p) (e : SyntaxError) :
    ((k.run o text).run.run s).1 ≠ .ok (.error (.refused e)) := by
  cases k with
  | expression =>
    rw [parse] at h
    unfold run Act.tryEvaluate
    rw [Failing.run_bind, Failing.run_get_bind]
    dsimp only
    rw [h]
    dsimp only
    rw [Failing.run_bind]
    have heval := evalProgram_ne_refused o p s e
    generalize (Act.evalProgram o p).run.run s = r at heval
    obtain ⟨b | f | v, s'⟩ := r
    · intro h
      cases h
    · intro h
      cases h
      exact heval rfl
    · cases v <;> intro h <;> cases h
  | script =>
    rw [parse] at h
    unfold run Act.tryExecute
    rw [Failing.run_get_bind]
    dsimp only
    rw [h]
    dsimp only
    rw [Failing.run_bind]
    have heval := evalProgram_ne_refused o (p.fold s.sandbox.known) s e
    generalize (Act.evalProgram o (p.fold s.sandbox.known)).run.run s = r at heval
    obtain ⟨b | f | v, s'⟩ := r
    · intro h
      cases h
    · intro h
      cases h
      exact heval rfl
    · intro h
      cases h

theorem run_eq_refused_iff (o : Outside σ) (s : Scene σ) (e : SyntaxError) :
    ((k.run o text).run.run s).1 = .ok (.error (.refused e)) ↔ k.refusal? s.sandbox.bounds text = some e := by
  rw [← parse_eq_error_iff s.sandbox.routines]
  cases hp : k.parse s.sandbox.bounds s.sandbox.routines text with
  | error f => simp [run_of_error o hp]
  | ok p => simp [run_of_ok o hp e]

/-- How code is refused at load and in a sandbox with certain bounds. -/
structure Verdicts (k : Code) (b : Bounds) (text : String) : Prop where
  /-- The check refuses what the language refuses, for the same reason unless it is too deep before, and else only what
  is too deep. -/
  checked : k.refusal? .checked text = k.refusal? .unbounded text ∨
    ∃ e, k.refusal? .checked text = some e ∧ Bounds.checked.Bars e.refusal
  /-- The sandbox refuses what the language refuses, for the same reason unless it stops it before, and else only what it
  stops. -/
  run : k.refusal? b text = k.refusal? .unbounded text ∨ ∃ e, k.refusal? b text = some e ∧ b.Stops text e
  /-- The sandbox refuses what it finds too long a text in. -/
  overlong : Overlong b.maxString text → k.refusal? b text ≠ none
  /-- It finds every text that has more bytes than its bound. -/
  large : 0 < b.maxString → ∀ t ∈ tokenize 0 text, b.maxString < t.1.textSize → k.refusal? b text ≠ none
  /-- A sandbox whose bounds are at least those of the check refuses nothing that passes it. -/
  wide : Bounds.checked.Within b → k.refusal? .checked text = none → k.refusal? b text = none
  /-- A sandbox whose bounds are at most those of the check refuses all that the check refuses. -/
  narrow : b.Within .checked → k.refusal? b text = none → k.refusal? .checked text = none

theorem verdicts (k : Code) (b : Bounds) (text : String) : k.Verdicts b text where
  checked := by
    obtain heq | ⟨e, he, hb | ⟨hpos, -⟩⟩ := k.refusal?_within Bounds.checked.within_unbounded text
    · exact .inl heq
    · exact .inr ⟨e, he, hb⟩
    · cases hpos
  run := k.refusal?_within b.within_unbounded text
  overlong h := ne_none_of_overlong k h
  large h _ ht hl := ne_none_of_overlong k (overlong_of_mem h ht hl)
  wide h := refusal?_eq_none h
  narrow h := refusal?_eq_none h

/-- **The check at load and a sandbox refuse code alike, up to their own limits.**  A parameter has a problem exactly if the
check refuses it, and a run fails with a syntax error exactly if the sandbox refuses the code, whatever has run in it. -/
theorem parameter_and_run (k : Code) (o : Outside σ) (s : Scene σ) {ps : Parameters} {name text : String}
    (h : Parameters.text ps name = .ok text) :
    k.parameter ps name =
        .ok ⟨text, ((k.refusal? .checked text).map fun e => .invalidExpression name e.message).toList⟩ ∧
      (∀ e, ((k.run o text).run.run s).1 = .ok (.error (.refused e)) ↔ k.refusal? s.sandbox.bounds text = some e) ∧
      k.Verdicts s.sandbox.bounds text :=
  ⟨parameter_eq h, run_eq_refused_iff o s, k.verdicts s.sandbox.bounds text⟩

/-- A script whose function is too deep for the check at load, and not for a sandbox. -/
def deepFunction : String := "fn f() \x7b (((((((((((((((1))))))))))))))) \x7d let x = f();"

theorem parameter_and_run_deepFunction :
    Parameters.text [("script", .str deepFunction)] "script" = .ok deepFunction ∧
      script.parameter [("script", .str deepFunction)] "script" = .ok ⟨deepFunction,
        [.invalidExpression "script" "Expression exceeds maximum complexity (line 1, position 24)"]⟩ ∧
      (∀ e, ((script.run (Outside.nobody Unit) deepFunction).run.run
        ⟨.create .default (.obj []), .initial ()⟩).1 ≠ .ok (.error (.refused e))) ∧
      script.Verdicts (Sandbox.create .default (.obj [])).bounds deepFunction := by
  have htext : Parameters.text [("script", .str deepFunction)] "script" = .ok deepFunction := rfl
  obtain ⟨hload, hrun, hverdicts⟩ := parameter_and_run script (Outside.nobody Unit)
    ⟨.create .default (.obj []), .initial ()⟩ htext
  have hchecked : script.refusal? .checked deepFunction = some ⟨.tooDeep, some ⟨1, 24⟩⟩ := by decide +kernel
  have hran : script.refusal? (Sandbox.create .default (.obj [])).bounds deepFunction = none := by decide +kernel
  rw [hchecked] at hload
  refine ⟨htext, hload, fun e he => ?_, hverdicts⟩
  cases hran.symm.trans ((hrun e).1 he)

/-- A text that is too long for a sandbox whose texts have a single byte, and not for the check at load. -/
def shortText : String := "\"ab\""

/-- A configuration whose texts have a single byte. -/
def terse : Config := { Config.default with limits := { Limits.default with maxString := 1 } }

/-- The check at load finds nothing wrong with code. -/
def Passes (k : Code) (text : String) : Prop :=
  ∃ built, k.parameter [("code", .str text)] "code" = .ok built ∧ built.problems = []

/-- A new sandbox of a configuration fails to read code. -/
def Fails (k : Code) (c : Config) (text : String) : Prop :=
  ∃ e, ((k.run (Outside.nobody Unit) text).run.run ⟨.create c (.obj []), .initial ()⟩).1 = .ok (.error (.refused e))

theorem passes_iff : k.Passes text ↔ k.refusal? .checked text = none := by
  have htext : Parameters.text [("code", .str text)] "code" = .ok text := rfl
  unfold Passes
  rw [parameter_eq htext]
  cases k.refusal? .checked text <;> simp

theorem fails_iff {c : Config} :
    k.Fails c text ↔ k.refusal? (Sandbox.create c (.obj [])).bounds text ≠ none := by
  unfold Fails
  simp only [run_eq_refused_iff, ne_eq, Option.ne_none_iff_exists']

/-- **The check at load does not foretell a run.**  A run may fail on a text that passes the check, and succeed on one
that does not. -/
theorem passes_unlike_fails :
    (¬∀ (k : Code) c text, k.Passes text → ¬k.Fails c text) ∧ ¬∀ (k : Code) c text, ¬k.Fails c text → k.Passes text := by
  constructor
  · intro h
    have hpasses : expression.Passes shortText := passes_iff.2 (by decide +kernel)
    exact h .expression terse shortText hpasses (fails_iff.2 (by decide +kernel))
  · intro h
    have hruns : ¬script.Fails .default deepFunction := fun hfails => fails_iff.1 hfails (by decide +kernel)
    have hpasses := passes_iff.1 (h .script .default deepFunction hruns)
    exact absurd hpasses (by decide +kernel)

end Code
end ArmPilot
