import ArmPilot.Proofs.Sandbox.Assignments

/-!
# Reading back what was set

An expression that consists of a name gives what the name was set to, if the language reads the name as that of a
variable.  The names that can be set are more: words of the language, and underscores behind which a digit or nothing
stands.  What such a name was set to can be looked up and is listed, but no expression has it (`Scene.evaluate_set`).
-/

namespace ArmPilot

open Lang (Value)

variable {σ : Type} {o : Outside σ} {s : Scene σ} {name : String} {v : Value}

theorem Except.eq_ok_of_toOption {ε α : Type} {x : Except ε α} {a : α} (h : x.toOption = some a) : x = .ok a := by
  cases x with
  | error e => cases h
  | ok b => exact congrArg Except.ok (Option.some.inj h)

namespace Act

/-- An expression that consists of a truth value has it. -/
theorem tryEvaluate_truth (hs : s.GoesOn o) {truth : Bool} {p : Lang.Place}
    (hparse : s.sandbox.bounds.parseExpression s.sandbox.routines name =
      .ok ⟨[.expr (.const (.bool truth) p)], s.sandbox.routines, []⟩) :
    ((tryEvaluate o name).run.run s).1 = .ok (.ok (.bool truth)) := by
  have heval := Lang.Program.eval_operand (s := s.store) (e := .const (.bool truth) p) (r := .ok (.bool truth))
    s.sandbox.routines hs.limit (Devices.progress_of_running s.sandbox.sleepPoll hs.first)
    (Devices.progress_of_running s.sandbox.sleepPoll hs.second) rfl (fun _ _ _ _ _ _ => rfl) rfl (fun _ => nofun)
  rw [tryEvaluate, Failing.run_get_bind]
  dsimp only
  rw [hparse]
  dsimp only
  rw [Failing.run_bind, evalProgram_of_value heval]
  rfl

/-- The evaluation of an expression gives the value if there is one. -/
theorem evaluate_fst (text : String) {r : Except SandboxError Value}
    (h : ((tryEvaluate o text).run.run s).1 = .ok r) : ((evaluate o text).run.run s).1 = .ok r.toOption := by
  rw [evaluate, Failing.run_bind]
  generalize (tryEvaluate o text).run.run s = answer at h ⊢
  obtain ⟨answer, s'⟩ := answer
  obtain rfl : answer = .ok r := h
  cases r <;> rfl

/-- An expression that cannot be read has no value. -/
theorem evaluate_refused {text : String}
    (hparse : (s.sandbox.bounds.parseExpression s.sandbox.routines text).toOption = none) :
    ((evaluate o text).run.run s).1 = .ok none := by
  cases hp : s.sandbox.bounds.parseExpression s.sandbox.routines text with
  | ok p =>
    rw [hp] at hparse
    cases hparse
  | error e =>
    have htry : ((tryEvaluate o text).run.run s).1 = .ok (.error (.refused e)) := by
      rw [tryEvaluate, Failing.run_get_bind]
      dsimp only
      rw [hp]
      rfl
    exact evaluate_fst text htry

end Act

/-- What an expression that consists of a name gives after the name was set to a value. -/
def Lang.readBack (name : String) (v : Value) : Option Value :=
  if isReadable name then some v
  else if name = "true" then some (.bool true)
  else if name = "false" then some (.bool false)
  else none

/-- A value is read back under the names that are read as variables, and by chance if it is the truth value so named. -/
theorem Lang.readBack_eq_some_iff :
    readBack name v = some v ↔ isReadable name = true ∨ ∃ truth, name = toString truth ∧ v = .bool truth := by
  have hnames : toString true = "true" ∧ toString false = "false" := ⟨rfl, rfl⟩
  rw [Bool.exists_bool, hnames.1, hnames.2]
  unfold readBack
  cases hreadable : isReadable name with
  | true => simp
  | false =>
    by_cases htrue : name = "true"
    · simp [htrue, eq_comm]
    · by_cases hfalse : name = "false"
      · simp [hfalse, eq_comm]
      · simp [htrue, hfalse]

/-- The names that can be set and are not read as variables. -/
theorem Lang.isReadable_eq_false_iff (h : isIdentifier name = true) :
    isReadable name = false ↔ (Keyword.ofText? name).isSome = true ∨ isReservedWord name = true ∨
      ∀ c ∈ (name.toList.dropWhile (· = '_')).head?, Text.isDigit c = true := by
  rw [← isProperName_eq_false_iff h, isReadable]
  cases isProperName name.toList <;> cases isReservedWord name <;> simp

/-- A name that was set can be set. -/
theorem Sandbox.writable_of_set {b b' : Sandbox} (hset : b.set name v = .ok b') :
    isIdentifier name = true ∧ b.scope.isReadOnly? name ≠ some true := by
  cases hname : isIdentifier name with
  | false =>
    rw [set_invalid hname] at hset
    cases hset
  | true =>
    refine ⟨rfl, fun hconst => ?_⟩
    rw [set_readOnly hname hconst] at hset
    cases hset

/-- An expression that consists of a name that was set gives what is read back of it. -/
theorem Sandbox.evaluate_of_set {b : Sandbox} (hfits : s.sandbox.Fits) (hset : s.sandbox.set name v = .ok b)
    (hv : s.sandbox.flat v ≠ .unit) (hs : Scene.GoesOn o ⟨b, s.world⟩) :
    ((Act.evaluate o name).run.run ⟨b, s.world⟩).1 = .ok (Lang.readBack name (s.sandbox.flat v)) := by
  obtain ⟨hname, hconst⟩ := writable_of_set hset
  have hb : b.get? name = some (s.sandbox.flat v) := by
    rw [set_writable hname hconst] at hset
    cases hset
    exact (assigns_assign hconst (hfits.isShared_flat v)).get?_self
  have hparse := b.bounds.parseExpression_identifier b.routines hname
  unfold Lang.readBack
  unfold Lang.nameExpr? at hparse
  cases hreadable : Lang.isReadable name with
  | true =>
    have hanswer : b.answer name = .ok (s.sandbox.flat v) := by
      unfold answer
      rw [hb]
      split
      · rename_i h; cases h
      · rename_i h; exact absurd (Option.some.inj h) hv
      · rename_i w h; exact congrArg Except.ok (Option.some.inj h).symm
    have htry := Act.tryEvaluate_name hs (hfits.of_set hset) hreadable
    exact Act.evaluate_fst (r := .ok (s.sandbox.flat v)) name (by rw [htry, hanswer])
  | false =>
    rw [hreadable, if_neg Bool.false_ne_true] at hparse
    rw [if_neg Bool.false_ne_true]
    by_cases htrue : name = "true"
    · rw [if_pos htrue] at hparse ⊢
      exact Act.evaluate_fst name (Act.tryEvaluate_truth (s := ⟨b, s.world⟩) hs (Except.eq_ok_of_toOption hparse))
    · rw [if_neg htrue] at hparse ⊢
      by_cases hfalse : name = "false"
      · rw [if_pos hfalse] at hparse ⊢
        exact Act.evaluate_fst name (Act.tryEvaluate_truth (s := ⟨b, s.world⟩) hs (Except.eq_ok_of_toOption hparse))
      · rw [if_neg hfalse] at hparse ⊢
        exact Act.evaluate_refused (s := ⟨b, s.world⟩) hparse

/-- **What can be read back of a variable that was set.**  An expression that consists of its name has the value exactly
if the language reads the name as that of a variable, or the value happens to be the truth value of that name.  The names
that can be set and are read otherwise are the words of the language, and those in which nothing, or a digit, stands
behind the underscores. -/
theorem Scene.evaluate_set (o : Outside σ) {s : Scene σ} {name : String} {v : Value} {b : Sandbox}
    (hfits : s.sandbox.Fits) (hset : s.sandbox.set name v = .ok b) (hv : s.sandbox.flat v ≠ .unit)
    (hs : GoesOn o ⟨b, s.world⟩) :
    let answer := ((Act.evaluate o name).run.run ⟨b, s.world⟩).1
    answer = .ok (Lang.readBack name (s.sandbox.flat v)) ∧
      (answer = .ok (some (s.sandbox.flat v)) ↔
        Lang.isReadable name = true ∨ ∃ truth, name = toString truth ∧ s.sandbox.flat v = .bool truth) ∧
      (Lang.isReadable name = false ↔
        (Lang.Keyword.ofText? name).isSome = true ∨ Lang.isReservedWord name = true ∨
          ∀ c ∈ (name.toList.dropWhile (· = '_')).head?, Text.isDigit c = true) := by
  have hanswer := Sandbox.evaluate_of_set hfits hset hv hs
  have hname := (Sandbox.writable_of_set hset).1
  refine ⟨hanswer, ?_, Lang.isReadable_eq_false_iff hname⟩
  rw [hanswer, ← Lang.readBack_eq_some_iff]
  simp

/-- A name of letters is read back; a word of the language, and a name without a letter, are not. -/
theorem Scene.evaluate_set_fresh :
    (∃ b, fresh.sandbox.set "speed" (.int 3) = .ok b ∧
      ((Act.evaluate (.nobody Unit) "speed").run.run ⟨b, fresh.world⟩).1 = .ok (some (.int 3))) ∧
      (∃ b, fresh.sandbox.set "true" (.int 3) = .ok b ∧
        ((Act.evaluate (.nobody Unit) "true").run.run ⟨b, fresh.world⟩).1 = .ok (some (.bool true))) ∧
      ∃ b, fresh.sandbox.set "_1" (.int 3) = .ok b ∧
        ((Act.evaluate (.nobody Unit) "_1").run.run ⟨b, fresh.world⟩).1 = .ok none := by
  have hfits : fresh.sandbox.Fits := Sandbox.fits_create .default nestedSettings
  have hgoes (b : Sandbox) (hb : b.limits = fresh.sandbox.limits) : GoesOn (.nobody Unit) ⟨b, fresh.world⟩ :=
    ⟨.inl (by rw [hb]; rfl), rfl, rfl⟩
  have hset (name : String) (hname : isIdentifier name = true)
      (hconst : fresh.sandbox.scope.isReadOnly? name ≠ some true) := Sandbox.set_writable hname hconst (.int 3)
  refine ⟨⟨_, hset "speed" (by decide) (by decide +kernel), ?_⟩,
    ⟨_, hset "true" (by decide) (by decide +kernel), ?_⟩, ⟨_, hset "_1" (by decide) (by decide +kernel), ?_⟩⟩
  · exact (evaluate_set (.nobody Unit) hfits (hset "speed" (by decide) (by decide +kernel)) nofun (hgoes _ rfl)).1
  · exact (evaluate_set (.nobody Unit) hfits (hset "true" (by decide) (by decide +kernel)) nofun (hgoes _ rfl)).1
  · exact (evaluate_set (.nobody Unit) hfits (hset "_1" (by decide) (by decide +kernel)) nofun (hgoes _ rfl)).1

end ArmPilot
