import ArmPilot.Proofs.Lang.Constants.Folding
import ArmPilot.Proofs.Lang.Constants.Statement
import ArmPilot.Proofs.Sandbox.Oversleeping

/-!
# What requests keep of a sandbox

During a run a sandbox is asked to run scripts, to evaluate expressions and to set variables, in any order.  What setting
a variable and running a script keep is kept by every series of requests (`Sandbox.Lasting.afterAll`); so the variables
always fit to the cells of the sandbox (`Request.fits_afterAll`).
-/

open Std.Do

set_option mvcgen.warning false

namespace ArmPilot

open Lang (Value)

variable {σ : Type}

/-- What happens to a sandbox during a run. -/
inductive Request (σ : Type) where
  | execute (text : String)
  | tryExecute (text : String)
  | evaluate (text : String)
  | tryEvaluate (text : String)
  | setVariable (name : String) (v : Value)
  /-- The world changes, and the sandbox is not asked for anything. -/
  | meanwhile (f : World σ → World σ)

namespace Request

/-- Does what is requested, whatever the answer. -/
def act (o : Outside σ) : Request σ → Act σ Unit
  | execute text => do let _ ← Act.execute o text
  | tryExecute text => do let _ ← Act.tryExecute o text
  | evaluate text => do let _ ← Act.evaluate o text
  | tryEvaluate text => do let _ ← Act.tryEvaluate o text
  | setVariable name v => do let _ ← Act.setVariable name v
  | meanwhile f => Act.onWorld f

/-- The script that is run on a request. -/
def script? : Request σ → Option String
  | execute text | tryExecute text => some text
  | _ => none

/-- The scene that requests leave behind, also those that break down. -/
def afterAll (o : Outside σ) : List (Request σ) → Scene σ → Scene σ
  | [], s => s
  | r :: rest, s => afterAll o rest ((r.act o).run.run s).2

end Request

theorem Act.run_evalProgram (o : Outside σ) (p : Lang.Program) (s : Scene σ) :
    ((evalProgram o p).run.run s).2 = s.leave p ((p.eval (Devices.host o s.sandbox.sleepPoll) s.sandbox.limits
      Lang.Eval.endless).run.run s.store).2 := by
  unfold evalProgram
  dsimp only [ExceptT.run, ExceptT.mk, StateT.run]
  generalize (p.eval (Devices.host o s.sandbox.sleepPoll) s.sandbox.limits Lang.Eval.endless) s.store = r
  match r with
  | (.ok _, _) | (.error (.failure _), _) | (.error (.panic _), _) | (.error (.leave _ _), _)
  | (.error (.giveBack _), _) | (.error .exhausted, _) => rfl

/-! ## What lasts -/

/-- What holds of a sandbox whatever variables are set, as long as the scripts that run there are of a kind. -/
structure Sandbox.Lasting where
  holds : Sandbox → Prop
  spares : Lang.Program → Prop
  set : ∀ {b b' name v}, holds b → b.set name v = .ok b' → holds b'
  /-- What a script holds on to as it runs. -/
  hold (σ : Type) : Lang.Hold (World σ)
  enter : ∀ {σ} {s : Scene σ}, holds s.sandbox → (hold σ).holds s.store
  leave : ∀ {σ} {s : Scene σ} {t} p, (hold σ).holds t → holds (s.leave p t).sandbox
  admits : ∀ {σ p}, spares p → ∀ start, ∀ st ∈ p.body, (hold σ).Admits start st
  expression : ∀ {b : Lang.Bounds} {first text p}, b.parseExpression first text = .ok p → spares p
  fold : ∀ {p} k, spares p → spares (p.fold k)

namespace Act

variable {o : Outside σ} {L : Sandbox.Lasting}

/-- An act keeps what lasts of the sandbox, if something is known of the scene before. -/
abbrev KeepsIf {α : Type} (a : Act σ α) (L : Sandbox.Lasting) (P : Scene σ → Prop) : Prop :=
  ⦃fun s => ⌜L.holds s.sandbox ∧ P s⌝⦄ a
  ⦃post⟨fun _ s => ⌜L.holds s.sandbox⌝, fun _ s => ⌜L.holds s.sandbox⌝⟩⦄

theorem keepsIf_iff {α : Type} {a : Act σ α} {P : Scene σ → Prop} :
    a.KeepsIf L P ↔ ∀ s, L.holds s.sandbox ∧ P s → L.holds (a.run.run s).2.sandbox := by
  refine Failing.triple_iff.trans (forall_congr' fun s => imp_congr_right fun _ => ?_)
  rcases a.run.run s with ⟨_ | _, s'⟩ <;> simp

/-- **A script keeps what lasts**, also if it fails or breaks down. -/
theorem evalProgram_keeps {p : Lang.Program} (hp : L.spares p) : (evalProgram o p).KeepsIf L fun _ => True := by
  refine keepsIf_iff.2 fun s hs => ?_
  obtain ⟨hok, herror⟩ := Failing.triple_iff.1 (Lang.Program.eval_holds (L.admits hp) (Devices.host o s.sandbox.sleepPoll)
    s.sandbox.limits Lang.Eval.endless) s.store (L.enter hs.1)
  rw [run_evalProgram]
  generalize (p.eval (Devices.host o s.sandbox.sleepPoll) s.sandbox.limits Lang.Eval.endless).run.run s.store = r
    at hok herror
  refine L.leave p ?_
  cases hr : r.1 with
  | ok v => exact hok v hr
  | error e => exact herror e hr

/-- A text that can be read as a script is one of those that keep what lasts. -/
def Spares (L : Sandbox.Lasting) (text : String) (s : Scene σ) : Prop :=
  ∀ p, s.sandbox.bounds.parseScript s.sandbox.routines text = .ok p → L.spares p

theorem tryEvaluate_keeps (text : String) : (tryEvaluate o text).KeepsIf L fun _ => True := by
  have heval := @evalProgram_keeps σ o L
  mvcgen [tryEvaluate, heval]
  · assumption
  · exact L.expression ‹_›

theorem evaluate_keeps (text : String) : (evaluate o text).KeepsIf L fun _ => True := by
  have htry := @tryEvaluate_keeps σ o L
  mvcgen [evaluate, htry, note, onWorld]

theorem tryExecute_keeps (text : String) : (tryExecute o text).KeepsIf L (Spares L text) := by
  have heval := @evalProgram_keeps σ o L
  mvcgen [tryExecute, heval]
  · exact And.left ‹_›
  · rename_i s hs _ p hp
    exact L.fold _ (hs.2 p hp)
  · exact And.left ‹_›

theorem execute_keeps (text : String) : (execute o text).KeepsIf L (Spares L text) := by
  have htry := @tryExecute_keeps σ o L
  mvcgen [execute, htry, note, onWorld]

theorem setVariable_keeps (name : String) (v : Value) :
    (setVariable (σ := σ) name v).KeepsIf L fun _ => True := by
  mvcgen [setVariable]
  · exact L.set ‹_› ‹_›
  · assumption

end Act

namespace Sandbox.Lasting

variable {o : Outside σ} {L : Lasting}

/-- A request keeps what lasts, if its script does. -/
theorem act (r : Request σ) : (r.act o).KeepsIf L fun s => ∀ text ∈ r.script?, Act.Spares L text s := by
  have hexecute := @Act.execute_keeps σ o L
  have htryExecute := @Act.tryExecute_keeps σ o L
  have hevaluate := @Act.evaluate_keeps σ o L
  have htryEvaluate := @Act.tryEvaluate_keeps σ o L
  have hset := @Act.setVariable_keeps σ L
  cases r with
  | execute =>
    mvcgen [Request.act, hexecute]
    rename_i s hs
    exact ⟨hs.1, hs.2 _ rfl⟩
  | tryExecute =>
    mvcgen [Request.act, htryExecute]
    rename_i s hs
    exact ⟨hs.1, hs.2 _ rfl⟩
  | evaluate =>
    mvcgen [Request.act, hevaluate]
    exact And.left ‹_›
  | tryEvaluate =>
    mvcgen [Request.act, htryEvaluate]
    exact And.left ‹_›
  | setVariable =>
    mvcgen [Request.act, hset]
    exact And.left ‹_›
  | meanwhile =>
    mvcgen [Request.act, Act.onWorld]
    exact And.left ‹_›

/-- Requests keep what lasts, if every script keeps it. -/
theorem afterAll (hL : ∀ p, L.spares p) {rs : List (Request σ)} :
    ∀ {s : Scene σ}, L.holds s.sandbox → L.holds (Request.afterAll o rs s).sandbox := by
  induction rs with
  | nil => exact fun hs => hs
  | cons r rest ih => exact fun hs => ih (Act.keepsIf_iff.1 (act r) _ ⟨hs, fun _ _ p _ => hL p⟩)

end Sandbox.Lasting

/-! ## Variables and cells -/

/-- What holds of a state whose variables fit to its cells. -/
def Lang.Hold.fitting (σ : Type) : Hold σ where
  holds := Store.Fits
  fits h := h
  keeps _ hk := hk.fits

theorem Lang.Value.isShared_ofJson (j : Json) : (Value.ofJson j).isShared = false := by
  cases j with
  | num n =>
    rw [ofJson]
    unfold ofNumber
    split
    · split <;> rfl
    · rfl
  | _ => rfl

namespace Sandbox

/-- The variables of a sandbox fit to its cells. -/
abbrev Fits (b : Sandbox) : Prop := b.scope.Fits b.cells

theorem isShared_constants {settings : Json} {m : String × Value} (h : m ∈ constants settings) :
    m.2.isShared = false := by
  simp only [constants, List.mem_cons, List.not_mem_nil, or_false] at h
  rcases h with rfl | rfl | rfl | rfl | rfl | rfl | rfl
  case inr.inr.inr.inr.inr.inr => exact Lang.Value.isShared_ofJson settings
  all_goals rfl

/-- A new sandbox holds its constants, and nothing else. -/
theorem mem_create {c : Config} {settings : Json} {b : Lang.Binding} :
    b ∈ (create c settings).scope ↔ ∃ m ∈ constants settings, b = ⟨m.1, m.2, true⟩ := by
  have hscope : (create c settings).scope = ((constants settings).map fun m => ⟨m.1, m.2, true⟩).reverse := rfl
  rw [hscope, List.mem_reverse, List.mem_map]
  exact exists_congr fun m => and_congr_right' eq_comm

theorem fits_create (c : Config) (settings : Json) : (create c settings).Fits := by
  refine ⟨fun cell hcell => absurd hcell (Array.not_mem_empty cell), fun b hb d hd => ?_⟩
  obtain ⟨m, hm, rfl⟩ := mem_create.1 hb
  have hshared := isShared_constants hm
  rw [show m.2 = .shared d from hd] at hshared
  cases hshared

/-- A variable that is set is given a plain value. -/
theorem Fits.of_set {b b' : Sandbox} {name : String} {v : Value} (h : b.Fits) (hset : b.set name v = .ok b') :
    b'.Fits := by
  unfold Sandbox.set at hset
  split at hset
  · cases hset
  · split at hset
    · cases hset
    · cases hset
      have hplain : (b.flat v).isShared = false := h.isShared_flat v
      unfold Lang.Scope.assign
      split
      · refine h.update fun _ _ c hc => ?_
        rw [hc] at hplain
        cases hplain
      · exact h.cons hplain

theorem Fits.store {s : Scene σ} (h : s.sandbox.Fits) : s.store.Fits :=
  ⟨h, fun subject hthis => absurd hthis (Option.not_mem_none subject)⟩

/-- Variables fit to their cells, whatever is done to them. -/
def Lasting.fitting : Lasting where
  holds := Fits
  spares _ := True
  set := Fits.of_set
  hold _ := .fitting _
  enter h := h.store
  leave _ h := h.scope
  admits _ start _ _ name _ _ _ readOnly replaces h hv := h.declare start name hv readOnly replaces
  expression _ := trivial
  fold _ _ := trivial

end Sandbox

/-- Requests leave variables that fit to their cells. -/
theorem Request.fits_afterAll (o : Outside σ) (rs : List (Request σ)) {s : Scene σ} (h : s.sandbox.Fits) :
    (afterAll o rs s).sandbox.Fits :=
  Sandbox.Lasting.afterAll (L := .fitting) (fun _ => trivial) h

end ArmPilot
