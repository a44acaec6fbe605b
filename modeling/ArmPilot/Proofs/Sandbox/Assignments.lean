import ArmPilot.Proofs.Sandbox.Variables

/-!
# Setting a variable

A variable that is set has the new value for scripts and in the list of the variables alike, and no other name is
touched; a variable that is not set leaves everything as it is (`Scene.outcome_setVariable`).  Variables that are set
again take up no more room: a series of settings adds one binding for each of its names that can be set and had none
(`Request.length_settings`).
-/

namespace ArmPilot

open Lang (Value)

variable {σ : Type}

namespace Lang.Scope

variable {name other : String} {v : Value} {s : Scope}

/-! ## Scopes -/

/-- A name that is assigned has the value. -/
theorem lookup_assign_self (name : String) (v : Value) (s : Scope) :
    lookup name (assign name v s) = some ⟨name, v, (s.isReadOnly? name).getD false⟩ := by
  unfold assign isReadOnly?
  cases hlookup : s.lookup name with
  | none => simp [push, lookup]
  | some b =>
    have hname : b.name = name := (lookup_mem hlookup).2
    rw [if_pos Option.isSome_some, lookup_update_self, hlookup, ← hname]
    rfl

theorem lookup_assign_of_ne (h : other ≠ name) (v : Value) (s : Scope) :
    lookup other (assign name v s) = lookup other s := by
  unfold assign
  split
  · exact lookup_update_of_ne h v s
  · simp [push, lookup, Ne.symm h]

/-- An assignment says nothing about which bindings are constants. -/
theorem isReadOnly?_assign (name : String) (v : Value) (s : Scope) (h : s.isReadOnly? name ≠ some true) :
    (assign name v s).isReadOnly? name = some false := by
  rw [isReadOnly?, lookup_assign_self, Option.map_some]
  cases hreadOnly : s.isReadOnly? name with
  | none => rfl
  | some readOnly =>
    rw [hreadOnly] at h
    simpa using h

/-- The variables of other names are the same, also those behind constants. -/
theorem lookup_writable_assign_of_ne (h : other ≠ name) (v : Value) (s : Scope) :
    (assign name v s).writable.lookup other = s.writable.lookup other := by
  have hupdate : (update name v s).writable.lookup other = s.writable.lookup other := by
    unfold writable
    induction s with
    | nil => rfl
    | cons b rest ih =>
      rw [update]
      split
      · rename_i hb
        cases hreadOnly : b.readOnly <;> simp [hreadOnly, lookup, hb, Ne.symm h]
      · cases hreadOnly : b.readOnly with
        | true => simpa [hreadOnly] using ih
        | false =>
          by_cases ho : b.name = other
          · simp [hreadOnly, lookup, ho]
          · simpa [hreadOnly, lookup, ho] using ih
  unfold assign
  split
  · exact hupdate
  · unfold writable
    simp [push, lookup, Ne.symm h]

theorem length_update (name : String) (v : Value) (s : Scope) : (update name v s).length = s.length := by
  induction s with
  | nil => rfl
  | cons b rest ih =>
    rw [update]
    split
    · rfl
    · rw [List.length_cons, List.length_cons, ih]

/-- A scope grows by a name that it did not have. -/
theorem length_assign (name : String) (v : Value) (s : Scope) :
    (assign name v s).length = s.length + if (s.lookup name).isSome then 0 else 1 := by
  unfold assign
  split
  · exact length_update name v s
  · rfl

end Lang.Scope

/-! ## Sandboxes -/

namespace Sandbox

/-- What it means that a name, and nothing else, was given a value. -/
structure Assigns (b b' : Sandbox) (name : String) (v : Value) : Prop where
  /-- Scripts find the value under the name. -/
  get?_self : b'.get? name = some v
  /-- The name is listed with the value. -/
  listed?_self : b'.listed? name = some v
  /-- Scripts find under other names what they did before. -/
  get?_other : ∀ other, other ≠ name → b'.get? other = b.get? other
  /-- Other names are listed as before. -/
  listed?_other : ∀ other, other ≠ name → b'.listed? other = b.listed? other
  /-- There is one binding more if the name had none. -/
  length : b'.scope.length = b.scope.length + if (b.get? name).isSome then 0 else 1
  /-- Only the bindings are touched. -/
  rest : b' = { b with scope := b'.scope }

variable {b : Sandbox} {name : String}

theorem set_invalid (h : isIdentifier name = false) (v : Value) : b.set name v = .error (.invalidName name) := by
  rw [set, h]
  rfl

theorem set_readOnly (h : isIdentifier name = true) (hconst : b.scope.isReadOnly? name = some true) (v : Value) :
    b.set name v = .error (.readOnly name) := by
  rw [set, h, if_pos hconst]
  rfl

theorem set_writable (h : isIdentifier name = true) (hconst : b.scope.isReadOnly? name ≠ some true) (v : Value) :
    b.set name v = .ok { b with scope := b.scope.assign name (b.flat v) } := by
  rw [set, h, if_neg hconst]
  rfl

/-- A name that is no constant is given a value. -/
theorem assigns_assign {v : Value} (hconst : b.scope.isReadOnly? name ≠ some true) (hv : (b.flat v).isShared = false) :
    b.Assigns { b with scope := b.scope.assign name (b.flat v) } name (b.flat v) := by
  have hflat : (b.flat v).flat b.cells = b.flat v := Value.flat_of_core rfl hv _
  have hself : Sandbox.get? { b with scope := b.scope.assign name (b.flat v) } name = some (b.flat v) := by
    rw [get?, Lang.Scope.lookup_assign_self, Option.map_some, flat, hflat]
  have hwritable : (b.scope.assign name (b.flat v)).isReadOnly? name ≠ some true := by
    rw [Lang.Scope.isReadOnly?_assign _ _ _ hconst]
    simp
  constructor
  · exact hself
  · rw [listed?_eq, get?, writable, Lang.Scope.lookup_writable hwritable]
    exact hself
  · intro other hother
    rw [get?, get?, Lang.Scope.lookup_assign_of_ne hother]
    rfl
  · intro other hother
    rw [listed?_eq, listed?_eq, get?, get?, writable, Lang.Scope.lookup_writable_assign_of_ne hother]
    rfl
  · rw [get?, Option.isSome_map]
    exact Lang.Scope.length_assign ..
  · rfl

/-- Whether a name can be set and has no binding. -/
def lacks (b : Sandbox) (name : String) : Bool := isIdentifier name && (b.scope.lookup name).isNone

/-- A name that was set has a binding. -/
theorem lacks_assign (b : Sandbox) (name : String) (v : Value) (other : String) :
    lacks { b with scope := b.scope.assign name v } other = (b.lacks other && other != name) := by
  unfold lacks
  by_cases h : other = name
  · rw [h, Lang.Scope.lookup_assign_self]
    simp
  · rw [Lang.Scope.lookup_assign_of_ne h]
    simp [h]

end Sandbox

/-! ## Settings -/

theorem Act.run_setVariable (name : String) (v : Value) (s : Scene σ) :
    (setVariable name v).run.run s =
      match s.sandbox.set name v with
      | .ok b => (.ok (.ok ()), { s with sandbox := b })
      | .error e => (.ok (.error e), s) := by
  rw [setVariable, Failing.run_get_bind]
  cases s.sandbox.set name v <;> rfl

namespace Request

/-- Settings of variables, one after the other. -/
def settings (sets : List (String × Value)) : List (Request σ) := sets.map fun (name, v) => .setVariable name v

/-- A setting adds a binding for a name that can be set and has none. -/
theorem lacks_act (o : Outside σ) (name : String) (v : Value) (s : Scene σ) :
    let s' := (((setVariable name v).act o).run.run s).2
    (∀ other, s'.sandbox.lacks other = (s.sandbox.lacks other && other != name)) ∧
      s'.sandbox.scope.length = s.sandbox.scope.length + if s.sandbox.lacks name then 1 else 0 := by
  have hact : (((setVariable name v).act o).run.run s).2 = ((Act.setVariable name v).run.run s).2 := by
    rw [act, Failing.run_bind]
    rcases (Act.setVariable name v).run.run s with ⟨_ | _, _⟩ <;> rfl
  intro s'
  have hs' : s' = ((Act.setVariable name v).run.run s).2 := hact
  rw [hs', Act.run_setVariable]
  -- a name that cannot be set is not lacking
  have hkept (h : s.sandbox.lacks name = false) :
      (∀ other, s.sandbox.lacks other = (s.sandbox.lacks other && other != name)) ∧
        s.sandbox.scope.length = s.sandbox.scope.length + if s.sandbox.lacks name then 1 else 0 := by
    refine ⟨fun other => ?_, by simp [h]⟩
    by_cases hother : other = name
    · simp [hother, h]
    · simp [hother]
  cases hname : isIdentifier name with
  | false =>
    rw [Sandbox.set_invalid hname]
    exact hkept (by simp [Sandbox.lacks, hname])
  | true =>
    by_cases hconst : s.sandbox.scope.isReadOnly? name = some true
    · rw [Sandbox.set_readOnly hname hconst]
      obtain ⟨b, hb, -⟩ := Option.map_eq_some_iff.1 hconst
      exact hkept (by simp [Sandbox.lacks, hb])
    · rw [Sandbox.set_writable hname hconst]
      refine ⟨s.sandbox.lacks_assign name _, ?_⟩
      refine (Lang.Scope.length_assign ..).trans ?_
      unfold Sandbox.lacks
      cases s.sandbox.scope.lookup name <;> simp [hname]

/-- **Settings add one binding for each of their names** that can be set and had none. -/
theorem length_settings (o : Outside σ) (sets : List (String × Value)) (s : Scene σ) :
    (afterAll o (settings sets) s).sandbox.scope.length =
      s.sandbox.scope.length + ((sets.map Prod.fst).filter s.sandbox.lacks).toFinset.card := by
  induction sets generalizing s with
  | nil => simp [settings, afterAll]
  | cons x rest ih =>
    obtain ⟨name, v⟩ := x
    obtain ⟨hlacks, hlength⟩ := lacks_act o name v s
    have hafter : afterAll o (settings ((name, v) :: rest)) s =
        afterAll o (settings rest) (((setVariable name v).act o).run.run s).2 := rfl
    let new : Finset String := (((name, v) :: rest).map Prod.fst |>.filter s.sandbox.lacks).toFinset
    have herase : ((rest.map Prod.fst).filter (((setVariable name v).act o).run.run s).2.sandbox.lacks).toFinset =
        new.erase name := by
      ext other
      simp only [new, List.mem_toFinset, List.mem_filter, Finset.mem_erase, hlacks, List.map_cons, List.mem_cons,
        Bool.and_eq_true, bne_iff_ne]
      tauto
    have hcard : new.card = (if s.sandbox.lacks name then 1 else 0) + (new.erase name).card := by
      cases hname : s.sandbox.lacks name with
      | true =>
        have hmem : name ∈ new := by simp [new, hname]
        rw [if_pos rfl, Nat.add_comm, Finset.card_erase_add_one hmem]
      | false =>
        have hmem : name ∉ new := by simp [new, hname]
        rw [if_neg Bool.false_ne_true, Nat.zero_add, Finset.erase_eq_of_notMem hmem]
    rw [hafter, ih, hlength, herase, Nat.add_assoc, ← hcard]

end Request

/-- **Setting a variable is exact.**  It is refused for a text that can be no name and for a name whose newest binding is
a constant, and the scene stays as it is then; otherwise the name, and no other, has the value for scripts and in the list
of the variables.  A series of settings adds one binding for each of its names that can be set and had none. -/
theorem Scene.outcome_setVariable (o : Outside σ) (s : Scene σ) (name : String) {v : Value}
    (hv : (s.sandbox.flat v).isShared = false) :
    let after := (Act.setVariable name v).run.run s
    (∀ sets, (Request.afterAll o (Request.settings sets) s).sandbox.scope.length =
        s.sandbox.scope.length + ((sets.map Prod.fst).filter s.sandbox.lacks).toFinset.card) ∧
      (after.1 = .ok (.error (.invalidName name)) ↔ isIdentifier name = false) ∧
      (after.1 = .ok (.error (.readOnly name)) ↔
        isIdentifier name = true ∧ s.sandbox.scope.isReadOnly? name = some true) ∧
      (after.1 = .ok (.ok ()) ↔ isIdentifier name = true ∧ s.sandbox.scope.isReadOnly? name ≠ some true) ∧
      (after.1 ≠ .ok (.ok ()) → after.2 = s) ∧
      (after.1 = .ok (.ok ()) →
        s.sandbox.Assigns after.2.sandbox name (s.sandbox.flat v) ∧ after.2.world = s.world) := by
  intro after
  have hafter : after = (Act.setVariable name v).run.run s := rfl
  rw [Act.run_setVariable] at hafter
  refine ⟨fun sets => Request.length_settings o sets s, ?_⟩
  cases hname : isIdentifier name with
  | false =>
    rw [Sandbox.set_invalid hname] at hafter
    simp [hafter]
  | true =>
    by_cases hconst : s.sandbox.scope.isReadOnly? name = some true
    · rw [Sandbox.set_readOnly hname hconst] at hafter
      simp [hafter, hconst]
    · rw [Sandbox.set_writable hname hconst] at hafter
      have hassigns := Sandbox.assigns_assign hconst hv
      simp [hafter, hconst, hassigns]

/-- A scene with a variable that is hidden by another one of its name, and with a variable that is hidden by a constant. -/
@[irreducible]
def shadowedScene : Scene Unit :=
  Request.afterAll (.nobody Unit)
    [.execute "let x = 1; let y = 2;", .execute "let x = 3; const y = 4;", .setVariable "x" (.int 5)] .fresh

/-- The newest of the variables is the one that is set, and a variable behind a constant is not. -/
theorem Scene.outcome_setVariable_shadowedScene :
    (shadowedScene.sandbox.flat (.int 6)).isShared = false ∧
      shadowedScene.sandbox.Assigns ((Act.setVariable "x" (.int 6)).run.run shadowedScene).2.sandbox "x" (.int 6) ∧
      (Act.setVariable "y" (.int 6)).run.run shadowedScene = (.ok (.error (.readOnly "y")), shadowedScene) := by
  have hv : (shadowedScene.sandbox.flat (.int 6)).isShared = false := rfl
  have hx : shadowedScene.sandbox.scope.isReadOnly? "x" ≠ some true := by decide +kernel
  have hy : shadowedScene.sandbox.scope.isReadOnly? "y" = some true := by decide +kernel
  obtain ⟨-, -, -, hok, -, hassigns⟩ := outcome_setVariable (.nobody Unit) shadowedScene "x" hv
  obtain ⟨-, -, hrefused, hok', hkept, -⟩ := outcome_setVariable (.nobody Unit) shadowedScene "y" hv
  refine ⟨hv, (hassigns (hok.2 ⟨by decide, hx⟩)).1, Prod.ext (hrefused.2 ⟨by decide, hy⟩) (hkept fun h => ?_)⟩
  exact (hok'.1 h).2 hy

end ArmPilot
