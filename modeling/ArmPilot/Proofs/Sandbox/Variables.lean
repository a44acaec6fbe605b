import ArmPilot.Proofs.Lang.Names
import ArmPilot.Proofs.Sandbox.ReadOnly

/-!
# The variables that a run reports

A run reports the variables of its sandbox, without the constants.  What it reports of a name is what scripts find under
the name, unless the newest binding of the name is a constant; then an older variable may still be reported that no
script can reach any more (`Scene.reports_afterAll`).
-/

namespace ArmPilot

open Lang (Value)

variable {σ : Type}

/-- Members whose values are replaced are found under the same keys. -/
theorem Json.find?_map {α β : Type} (f : α → β) (key : String) (ms : List (String × α)) :
    find? key (ms.map fun (k, v) => (k, f v)) = (find? key ms).map f := by
  induction ms with
  | nil => rfl
  | cons m rest ih =>
    rw [List.map_cons, find?, find?, ih]
    split <;> rfl

namespace Lang

/-! ## What is listed -/

namespace Scope

/-- The variables of a scope, without its constants. -/
def writable (s : Scope) : Scope := s.filter (!·.readOnly)

theorem mem_writable {b : Binding} {s : Scope} : b ∈ s.writable ↔ b ∈ s ∧ b.readOnly = false := by
  simp [writable]

/-- A name is listed with the newest of its bindings that is no constant. -/
theorem find?_values (name : String) (s : Scope) :
    Json.find? name s.values = (s.writable.lookup name).map (·.value) := by
  unfold writable
  induction s with
  | nil => rfl
  | cons b rest ih =>
    rw [values]
    cases hreadOnly : b.readOnly with
    | true => rw [if_pos rfl, ih, List.filter_cons_of_neg (by simp [hreadOnly])]
    | false =>
      rw [if_neg Bool.false_ne_true, Json.find?_insert, ih, List.filter_cons_of_pos (by simp [hreadOnly])]
      by_cases hname : b.name = name <;> simp [lookup, hname]

/-- Without the constants the newest binding of a name stays the newest, unless it is a constant. -/
theorem lookup_writable {name : String} {s : Scope} (h : s.isReadOnly? name ≠ some true) :
    s.writable.lookup name = s.lookup name := by
  unfold writable
  induction s with
  | nil => rfl
  | cons b rest ih =>
    by_cases hname : b.name = name
    · have hreadOnly : b.readOnly = false := by simpa [isReadOnly?, lookup, hname] using h
      rw [List.filter_cons_of_pos (by simp [hreadOnly])]
      simp [lookup, hname]
    · have hrest : isReadOnly? name rest ≠ some true := by simpa [isReadOnly?, lookup, hname] using h
      have hskip : lookup name (b :: rest) = lookup name rest := by simp [lookup, hname]
      rw [hskip, ← ih hrest]
      cases hreadOnly : b.readOnly with
      | true => rw [List.filter_cons_of_neg (by simp [hreadOnly])]
      | false =>
        rw [List.filter_cons_of_pos (by simp [hreadOnly])]
        simp [lookup, hname]

theorem isSome_lookup {name : String} {s : Scope} : (s.lookup name).isSome = true ↔ ∃ b ∈ s, b.name = name := by
  simp [lookup]

end Scope

/-! ## What a script finds -/

namespace Eval

variable {env : Env σ} {s : Store σ} {outer : σ}

/-- A step that neither the limits nor the host refuse is counted. -/
theorem tick_of_granted (hlimit : env.limits.maxOperations = 0 ∨ s.operations < env.limits.maxOperations)
    (hhost : env.host.progress s.outer = (true, outer)) (p : Place) :
    (tick env p).run.run s = (.ok (), { s with operations := s.operations + 1, outer := outer }) := by
  have hget : ((get : Eval σ (Store σ)).run.run s) = (.ok s, s) := rfl
  rw [tick, Failing.run_bind, hget]
  dsimp only
  rw [if_neg (by omega)]
  simp only [hhost]
  rfl

/-- What a script finds under a name: the value of its newest binding. -/
def found (s : Store σ) (name : String) (p : Place) : Except Interrupt Value :=
  match s.scope.lookup name with
  | some b => .ok (b.value.flat s.cells)
  | none => .error (.failure (.mk (.variableNotFound name) p))

/-- Where a script has no functions, a name stands for its newest binding. -/
theorem readVariable_run (h : env.routines = #[]) (s : Store σ) (name : String) (p : Place) :
    (readVariable env name false p).run.run s = (found s name p, s) := by
  have hnamed : env.named? name false = none := by simp [Env.named?, Env.functionValue?, h]
  rw [readVariable, Failing.run_bind, binding, hnamed]
  dsimp only
  rw [Failing.run_get_bind, found]
  cases s.scope.lookup name <;> rfl

/-- What is found is a plain value. -/
theorem flat_found (h : ∀ v, (Value.flat s.cells v).isShared = false) (name : String) (p : Place) :
    (found s name p).map (Value.flat s.cells) = found s name p := by
  unfold found
  cases s.scope.lookup name with
  | none => rfl
  | some b => exact congrArg Except.ok (Value.flat_of_core rfl (h b.value) _)

theorem bind_flat_run {m : Eval σ Value} {r : Except Interrupt Value} {t : Store σ} (h : m.run.run s = (r, t)) :
    (m >>= flat).run.run s = (r.map (Value.flat t.cells), t) := by
  rw [Failing.run_bind, h]
  cases r <;> rfl

end Eval

/-- What a script comes to whose last statement ends so: a value that is given back is that of the script. -/
def Program.ending (r : Except Interrupt Value) (t : Store σ) : Except Interrupt Value :=
  match r with
  | .ok v | .error (.giveBack v) => .ok (v.flat t.cells)
  | .error i => .error i

/-- A script of one statement starts without steps taken and comes to what the statement comes to. -/
theorem Program.eval_statement (host : Host σ) (limits : Limits) (s : Store σ) {t : Store σ} {stmt : Stmt}
    {r : Except Interrupt Value} (first : Nat) (rs : List Routine)
    (hexec : ((machine σ Eval.endless).exec ⟨host, limits, first, rs.toArray, 0, s.scope.length⟩ stmt).run.run
      { s with operations := 0, this := none, globals := [] } = (r, t)) :
    (Program.eval host limits Eval.endless ⟨[stmt], first, rs⟩).run.run s = (ending r t, t) := by
  have hstart : (modify fun s => { s with operations := 0, this := none, globals := [] } : Eval σ Unit).run.run s =
      (.ok (), { s with operations := 0, this := none, globals := [] }) := rfl
  rw [Program.eval, Failing.run_bind, hstart]
  dsimp only
  rw [Failing.run_get_bind, Failing.run_bind, Eval.attempt_run]
  dsimp only [Eval.topLevel]
  rw [hexec]
  cases r with
  | ok v => rfl
  | error i => cases i <;> rfl

/-- A script that consists of an operand takes two steps, if the value of the operand takes none of its own. -/
theorem Program.eval_operand {host : Host σ} {limits : Limits} {s : Store σ} {outer outer' : σ} {e : Expr}
    {r : Except Interrupt Value} (first : Nat) (hlimit : limits.maxOperations = 0 ∨ 2 ≤ limits.maxOperations)
    (hfirst : host.progress s.outer = (true, outer)) (hsecond : host.progress outer = (true, outer'))
    (hcall : e.isCall = false)
    (hvalue : ∀ (m : Machine σ) (env : Env σ) (t : Store σ), env.routines = #[] → t.scope = s.scope →
      t.cells = s.cells → (Eval.valueOf m env e).run.run t = (r, t))
    (hflat : r.map (Value.flat s.cells) = r) (hback : ∀ v, r ≠ .error (.giveBack v)) :
    (Program.eval host limits Eval.endless ⟨[.expr e], first, []⟩).run.run s =
      (r, { s with operations := 2, this := none, globals := [], outer := outer' }) := by
  obtain ⟨depth, hdepth⟩ : ∃ depth, Eval.endless = depth + 2 := ⟨Word.count - 2, rfl⟩
  let start : Store σ := { s with operations := 0, this := none, globals := [] }
  let read : Store σ := { s with operations := 2, this := none, globals := [], outer := outer' }
  let env : Env σ := ⟨host, limits, first, #[], 0, s.scope.length⟩
  have hone : limits.maxOperations = 0 ∨ 0 < limits.maxOperations := by omega
  have htwo : limits.maxOperations = 0 ∨ 1 < limits.maxOperations := by omega
  have hread : r.map (Value.flat read.cells) = r := hflat
  have heval : ((machine σ (depth + 1)).eval env e).run.run { start with operations := 1, outer := outer } =
      (r, read) := by
    show (Eval.evalWith (machine σ depth) env e).run.run _ = _
    rw [Eval.evalWith, Failing.run_bind, Eval.tick_of_granted htwo hsecond]
    exact hvalue _ env read rfl rfl rfl
  have hexec : ((machine σ (depth + 2)).exec env (.expr e)).run.run start = (r, read) := by
    show (Eval.execWith (machine σ (depth + 1)) env (.expr e)).run.run start = _
    rw [Eval.execWith, Failing.run_bind, Eval.tick_of_granted hone hfirst, ← hread]
    dsimp only
    rw [hcall]
    exact Eval.bind_flat_run heval
  have hending : ending r read = r := by
    cases r with
    | ok v => exact hread
    | error i =>
      cases i with
      | giveBack v => exact absurd rfl (hback v)
      | _ => rfl
  exact (eval_statement host limits s first [] (hdepth ▸ hexec)).trans (congrArg (·, read) hending)

/-- A script that consists of a name takes two steps and has the value of the newest binding of the name. -/
theorem Program.eval_name {host : Host σ} {limits : Limits} {s : Store σ} {outer outer' : σ} (name : String) (p : Place)
    (first : Nat) (hlimit : limits.maxOperations = 0 ∨ 2 ≤ limits.maxOperations)
    (hfirst : host.progress s.outer = (true, outer)) (hsecond : host.progress outer = (true, outer'))
    (hplain : ∀ v, (Value.flat s.cells v).isShared = false) :
    (Program.eval host limits Eval.endless ⟨[.expr (.var name false p)], first, []⟩).run.run s =
      (Eval.found s name p, { s with operations := 2, this := none, globals := [], outer := outer' }) := by
  have hback (v : Value) : Eval.found s name p ≠ .error (.giveBack v) := by
    unfold Eval.found
    split
    · exact nofun
    · exact nofun
  refine eval_operand first hlimit hfirst hsecond rfl (fun m env t henv hscope hcells => ?_)
    (Eval.flat_found hplain name p) hback
  have hfound : Eval.found t name p = Eval.found s name p := by rw [Eval.found, Eval.found, hscope, hcells]
  exact (Eval.readVariable_run henv t name p).trans (congrArg (·, t) hfound)

end Lang

namespace Sandbox

/-- What a script is answered that asks for a name. -/
def answer (b : Sandbox) (name : String) : Except SandboxError Value :=
  match b.get? name with
  | none => .error (.failed (.mk (.variableNotFound name) (some ⟨1, 1⟩)))
  | some .unit => .error .noValue
  | some v => .ok v

/-- A sandbox without its constants. -/
def writable (b : Sandbox) : Sandbox := { b with scope := b.scope.writable }

/-- What is listed under a name. -/
abbrev listed? (b : Sandbox) (name : String) : Option Value := Json.find? name b.values

/-- A name is listed with what it has in the sandbox without its constants. -/
theorem listed?_eq (b : Sandbox) (name : String) : b.listed? name = b.writable.get? name := by
  rw [listed?, values, Json.find?_map, Lang.Scope.find?_values, Option.map_map]
  rfl

end Sandbox

namespace Act

variable {o : Outside σ} {p : Lang.Program} {s : Scene σ} {t : Lang.Store (World σ)}

theorem evalProgram_of_value {v : Value}
    (h : (p.eval (Devices.host o s.sandbox.sleepPoll) s.sandbox.limits Lang.Eval.endless).run.run s.store = (.ok v, t)) :
    (evalProgram o p).run.run s = (.ok (.ok v), s.leave p t) := by
  unfold evalProgram
  dsimp only [ExceptT.run, ExceptT.mk, StateT.run] at h ⊢
  rw [h]

theorem evalProgram_of_failure {f : Lang.Failure}
    (h : (p.eval (Devices.host o s.sandbox.sleepPoll) s.sandbox.limits Lang.Eval.endless).run.run s.store =
      (.error (.failure f), t)) : (evalProgram o p).run.run s = (.ok (.error (.failed f)), s.leave p t) := by
  unfold evalProgram
  dsimp only [ExceptT.run, ExceptT.mk, StateT.run] at h ⊢
  rw [h]

end Act

/-- A script may take a step as long as the run is not asked to stop. -/
theorem Devices.progress_of_running {o : Outside σ} (poll : Nat) {w : World σ} (h : w.cancelled = false) :
    (host o poll).progress w = (true, w.advance o stepTime) := by
  simp [host, h]

/-- Whether nothing keeps a script from taking two steps. -/
structure Scene.GoesOn (o : Outside σ) (s : Scene σ) : Prop where
  limit : s.sandbox.limits.maxOperations = 0 ∨ 2 ≤ s.sandbox.limits.maxOperations
  first : s.world.cancelled = false
  second : (s.world.advance o Devices.stepTime).cancelled = false

/-- **An expression that consists of a name has the value of its newest binding**; nothing changes but the time. -/
theorem Act.tryEvaluate_name {o : Outside σ} {s : Scene σ} {name : String} (hs : s.GoesOn o) (hfits : s.sandbox.Fits)
    (hname : Lang.isReadable name = true) :
    (tryEvaluate o name).run.run s = (.ok (s.sandbox.answer name),
      s.onWorld fun w => (w.advance o Devices.stepTime).advance o Devices.stepTime) := by
  have heval := Lang.Program.eval_name (s := s.store) name (some ⟨1, 1⟩) s.sandbox.routines hs.limit
    (Devices.progress_of_running s.sandbox.sleepPoll hs.first)
    (Devices.progress_of_running s.sandbox.sleepPoll hs.second) hfits.isShared_flat
  have hscope : s.store.scope.lookup name = s.sandbox.scope.lookup name := rfl
  rw [tryEvaluate, Failing.run_get_bind]
  dsimp only
  rw [Lang.Bounds.parseExpression_name _ _ hname]
  dsimp only
  rw [Failing.run_bind]
  unfold Lang.Eval.found at heval
  unfold Sandbox.answer Sandbox.get?
  rw [hscope] at heval
  cases hlookup : s.sandbox.scope.lookup name with
  | none =>
    rw [hlookup] at heval
    rw [evalProgram_of_failure heval]
    rfl
  | some b =>
    rw [hlookup] at heval
    rw [evalProgram_of_value heval]
    have hflat : b.value.flat s.store.cells = s.sandbox.flat b.value := rfl
    rw [hflat, Option.map_some]
    cases s.sandbox.flat b.value <;> rfl

/-! ## What is reported -/

/-- What a scene reports of a name, as it stands to what scripts find under it. -/
structure Scene.Reports (o : Outside σ) (s : Scene σ) (name : String) : Prop where
  /-- A name is listed if it has a variable at all, also behind a constant. -/
  listed : (s.sandbox.listed? name).isSome = true ↔ ∃ b ∈ s.sandbox.scope, b.name = name ∧ b.readOnly = false
  /-- It is listed with its newest variable. -/
  newest : s.sandbox.listed? name = s.sandbox.writable.get? name
  /-- This is what it has, unless the newest binding is a constant. -/
  current : s.sandbox.scope.isReadOnly? name ≠ some true → s.sandbox.listed? name = s.sandbox.get? name
  /-- An expression that consists of a name has the value that the name has. -/
  read : Lang.isReadable name = true → s.GoesOn o →
    ((Act.tryEvaluate o name).run.run s).1 = .ok (s.sandbox.answer name)

/-- **What a run reports of its variables**, whatever scripts, expressions and settings of variables were asked of it. -/
theorem Scene.reports_afterAll (o : Outside σ) (c : Config) (settings : Json) (w : World σ) (rs : List (Request σ))
    (name : String) : (Request.afterAll o rs ⟨.create c settings, w⟩).Reports o name := by
  have hfits := Request.fits_afterAll o rs (s := ⟨.create c settings, w⟩) (Sandbox.fits_create c settings)
  generalize Request.afterAll o rs ⟨.create c settings, w⟩ = s at hfits
  refine ⟨?_, s.sandbox.listed?_eq name, fun h => ?_, fun hname hs => ?_⟩
  · rw [Sandbox.listed?_eq, Sandbox.get?, Option.isSome_map, Lang.Scope.isSome_lookup]
    exact exists_congr fun b => by rw [Sandbox.writable, Lang.Scope.mem_writable, and_assoc, and_comm (b := b.name = name)]
  · rw [Sandbox.listed?_eq, Sandbox.get?, Sandbox.get?]
    exact congrArg _ (Lang.Scope.lookup_writable h)
  · rw [Act.tryEvaluate_name hs hfits hname]

/-- Scripts that hide a variable behind a constant. -/
def hidingRequests : List (Request Unit) := [.execute "let x = 1;", .execute "const x = 2;"]

/-- **A hidden variable is still listed**, with the value that it had, although scripts find the constant. -/
theorem Scene.reports_afterAll_hidingRequests :
    (Request.afterAll (.nobody Unit) hidingRequests fresh).Reports (.nobody Unit) "x" ∧
      ((Request.afterAll (.nobody Unit) hidingRequests fresh).sandbox.listed? "x").map Value.quoted = some "1" ∧
      ((Request.afterAll (.nobody Unit) hidingRequests fresh).sandbox.get? "x").map Value.quoted = some "2" :=
  ⟨reports_afterAll (.nobody Unit) .default nestedSettings (.initial ()) hidingRequests "x", by decide +kernel,
    by decide +kernel⟩

end ArmPilot
