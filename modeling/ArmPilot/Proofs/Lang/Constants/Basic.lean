import ArmPilot.Proofs.Lang.Eval.Watch

/-!
# Constants of a script

A script gives its variables other values, shares them with closures and declares new ones, but no step of it changes
what a variable is called or whether it is a constant, nor the core of what a constant holds: all of its value, but for
what lies in a value with parts (`Store.Keeps`).
-/

namespace ArmPilot
namespace Lang

/-! ## What is kept -/

/-- What no script can change of the value of a constant.  What lies in a value with parts is left out, since a script
may add members to a constant map, and set the bits of a constant integer. -/
def Value.core : Value → Value
  | .int _ => .int 0
  | .string _ => .string ""
  | .array _ => .array []
  | .map _ => .map []
  | .bytes _ => .bytes []
  | v => v

@[simp]
theorem Value.isShared_core (v : Value) : v.core.isShared = v.isShared := by
  cases v <;> rfl

/-- A value whose core is as unshared as another is not taken from a cell. -/
theorem Value.flat_of_core {v w : Value} (h : v.core = w.core) (hw : w.isShared = false) (cells : Array Cell) :
    v.flat cells = v := by
  rw [← isShared_core, ← h, isShared_core] at hw
  cases v with
  | shared => cases hw
  | _ => rfl

/-- What is kept of a value: its core, if it is that of a constant. -/
def Value.fixed (readOnly : Bool) (v : Value) : Option Value := if readOnly then some v.core else none

@[simp]
theorem Value.isSome_fixed (readOnly : Bool) (v : Value) : (v.fixed readOnly).isSome = readOnly := by
  cases readOnly <;> rfl

/-- What is kept of a shared variable. -/
def Cell.stamp (c : Cell) : Option Value := c.value.fixed c.readOnly

/-- What is kept of what a function is called on. -/
def Subject.stamp (s : Subject) : Option Value := s.value.fixed s.readOnly

/-- A constant that a function is called on is a plain value. -/
def Subject.Plain (s : Subject) : Prop := s.readOnly = true → s.value.isShared = false

/-- What is kept of a variable: its name, and the core of its value if it is a constant. -/
abbrev Stamp := String × Option Value

/-- What is kept of a variable, whose value may lie in a cell. -/
def Binding.stamp (cells : Array Cell) (b : Binding) : Stamp := (b.name, (b.value.flat cells).fixed b.readOnly)

/-- What is kept of the variables of a scope. -/
def Scope.stamps (cells : Array Cell) (s : Scope) : List Stamp := s.map (·.stamp cells)

/-- What is kept of some cells is kept of others, at the same numbers. -/
def Cell.Kept (cells cells' : Array Cell) : Prop :=
  ∀ (c : Nat) (cell : Cell), cells[c]? = some cell → cells'[c]?.map stamp = some cell.stamp

namespace Cell.Kept

variable {cells cells' cells'' : Array Cell}

theorem refl (cells : Array Cell) : Kept cells cells := fun c cell h => by rw [h, Option.map_some]

theorem trans (h : Kept cells cells') (h' : Kept cells' cells'') : Kept cells cells'' := fun c cell hc => by
  obtain ⟨cell', hc', hstamp⟩ := Option.map_eq_some_iff.1 (h c cell hc)
  rw [h' c cell' hc', hstamp]

theorem push (cell : Cell) : Kept cells (cells.push cell) := fun c _ hc => by
  obtain ⟨hlt, -⟩ := Array.getElem?_eq_some_iff.1 hc
  rw [Array.getElem?_push_lt hlt, ← Array.getElem?_eq_getElem hlt, hc, Option.map_some]

/-- Another value in a cell is no change, if what is kept of the two is the same. -/
theorem modify {c : Nat} {v : Value} (h : ∀ cell, cells[c]? = some cell → v.fixed cell.readOnly = cell.stamp) :
    Kept cells (cells.modify c fun cell => { cell with value := v }) := fun d cell hd => by
  rw [Array.getElem?_modify]
  split
  · rename_i heq
    cases heq
    rw [hd, Option.map_some, Option.map_some]
    exact congrArg some (h cell hd)
  · rw [hd, Option.map_some]

end Cell.Kept

/-! ## Variables and their cells -/

namespace Scope

/-- The variables of a scope fit to the cells that closures share: a cell holds a plain value, and a variable in a cell
is a constant if the cell says so. -/
structure Fits (cells : Array Cell) (s : Scope) : Prop where
  plain : ∀ cell ∈ cells, cell.value.isShared = false
  shared : ∀ b ∈ s, ∀ c, b.value = .shared c → cells[c]?.map (·.readOnly) = some b.readOnly

variable {cells cells' : Array Cell} {s t : Scope}

namespace Fits

theorem isShared_flat (h : s.Fits cells) (v : Value) : (v.flat cells).isShared = false := by
  cases v with
  | shared c =>
    rw [Value.flat]
    cases hc : cells[c]? with
    | none => rfl
    | some cell => exact h.plain cell (Array.mem_of_getElem? hc)
  | _ => rfl

theorem of_subset (h : s.Fits cells) (hsub : ∀ b ∈ t, b ∈ s) : t.Fits cells :=
  ⟨h.plain, fun b hb => h.shared b (hsub b hb)⟩

theorem cons {b : Binding} (h : s.Fits cells) (hb : b.value.isShared = false) : Fits cells (b :: s) := by
  refine ⟨h.plain, fun d hd c hc => ?_⟩
  obtain rfl | hd := List.mem_cons.1 hd
  · rw [hc] at hb
    cases hb
  · exact h.shared d hd c hc

theorem append (h : s.Fits cells) (h' : t.Fits cells) : Fits cells (s ++ t) :=
  ⟨h.plain, fun b hb => (List.mem_append.1 hb).elim (h.shared b) (h'.shared b)⟩

/-- A variable in a cell finds what is kept of it there. -/
theorem stamp_shared (h : s.Fits cells) {b : Binding} (hb : b ∈ s) {c : Nat} (hc : b.value = .shared c) :
    ∃ cell, cells[c]? = some cell ∧ cell.readOnly = b.readOnly ∧ b.stamp cells = (b.name, cell.stamp) := by
  obtain ⟨cell, hcell, hro⟩ := Option.map_eq_some_iff.1 (h.shared b hb c hc)
  refine ⟨cell, hcell, hro, ?_⟩
  rw [Binding.stamp, hc, Value.flat, hcell, Cell.stamp, hro]
  rfl

/-- Variables fit to other cells as well, if these keep what is kept. -/
theorem of_kept (h : s.Fits cells) (hcells : Cell.Kept cells cells')
    (hplain : ∀ cell ∈ cells', cell.value.isShared = false) : s.Fits cells' := by
  refine ⟨hplain, fun b hb c hc => ?_⟩
  obtain ⟨cell, hcell, hro, -⟩ := h.stamp_shared hb hc
  obtain ⟨cell', hcell', hstamp⟩ := Option.map_eq_some_iff.1 (hcells c cell hcell)
  have hsome := congrArg Option.isSome hstamp
  rw [Cell.stamp, Cell.stamp, Value.isSome_fixed, Value.isSome_fixed, hro] at hsome
  rw [hcell', Option.map_some, hsome]

/-- What is kept of a variable does not depend on the cells, as long as these keep what is kept. -/
theorem stamp_of_kept (h : s.Fits cells) (hcells : Cell.Kept cells cells') {b : Binding} (hb : b ∈ s) :
    b.stamp cells' = b.stamp cells := by
  cases hv : b.value with
  | shared c =>
    obtain ⟨cell, hcell, hro, hstamp⟩ := h.stamp_shared hb hv
    obtain ⟨cell', hcell', hstamp'⟩ := Option.map_eq_some_iff.1 (hcells c cell hcell)
    have hsome := congrArg Option.isSome hstamp'
    rw [Cell.stamp, Cell.stamp, Value.isSome_fixed, Value.isSome_fixed, hro] at hsome
    rw [hstamp, ← hstamp', Binding.stamp, hv, Value.flat, hcell', Cell.stamp, hsome]
    rfl
  | _ => rw [Binding.stamp, Binding.stamp, hv]; rfl

theorem stamps_of_kept (h : s.Fits cells) (hcells : Cell.Kept cells cells') : s.stamps cells' = s.stamps cells :=
  List.map_congr_left fun _ hb => h.stamp_of_kept hcells hb

end Fits

/-- The newest binding of a name and what is kept of it. -/
theorem lookup_stamps (cells : Array Cell) (name : String) (s : Scope) :
    (s.stamps cells).find? (·.1 = name) = (s.lookup name).map (·.stamp cells) := by
  rw [stamps, List.find?_map]
  rfl

theorem lookup_mem {name : String} {b : Binding} (h : s.lookup name = some b) : b ∈ s ∧ b.name = name :=
  ⟨List.mem_of_find?_eq_some h, by simpa using List.find?_some h⟩

/-- What is kept of a variable tells whether it is a constant. -/
theorem isReadOnly?_eq (cells : Array Cell) (name : String) (s : Scope) :
    s.isReadOnly? name = ((s.stamps cells).find? (·.1 = name)).map (·.2.isSome) := by
  rw [lookup_stamps, Option.map_map, isReadOnly?]
  refine congrArg (Option.map · _) (funext fun b => ?_)
  rw [Function.comp_apply, Binding.stamp, Value.isSome_fixed]

/-- Every variable of a scope with another value for a name was in the scope, but for the one that has the value. -/
theorem mem_update {name : String} {v : Value} {b : Binding} (h : b ∈ s.update name v) :
    b ∈ s ∨ ∃ d, s.lookup name = some d ∧ b = { d with value := v } := by
  induction s with
  | nil => cases h
  | cons d rest ih =>
    by_cases hd : d.name = name
    · rw [update, if_pos hd] at h
      obtain rfl | h := List.mem_cons.1 h
      · exact .inr ⟨d, by simp [lookup, hd], rfl⟩
      · exact .inl (List.mem_cons_of_mem _ h)
    · rw [update, if_neg hd] at h
      obtain rfl | h := List.mem_cons.1 h
      · exact .inl List.mem_cons_self
      · obtain h | ⟨e, he, rfl⟩ := ih h
        · exact .inl (List.mem_cons_of_mem _ h)
        · exact .inr ⟨e, by simpa [lookup, hd] using he, rfl⟩

/-- Another value for a name leaves the variables of other names alone. -/
theorem mem_update_of_ne {name : String} {v : Value} {b : Binding} (hb : b ∈ s) (hne : b.name ≠ name) :
    b ∈ s.update name v := by
  induction s with
  | nil => cases hb
  | cons d rest ih =>
    rw [update]
    split
    · obtain rfl | hb := List.mem_cons.1 hb
      · contradiction
      · exact List.mem_cons_of_mem _ hb
    · exact List.mem_cons.2 ((List.mem_cons.1 hb).imp_right ih)

theorem length_rebind (name : String) (v : Value) (readOnly : Bool) (s : Scope) :
    (s.rebind name v readOnly).length = s.length := by
  induction s with
  | nil => rfl
  | cons d rest ih =>
    rw [rebind]
    split
    · rfl
    · rw [List.length_cons, ih, List.length_cons]

/-- Every variable of a scope in which a name is bound anew was in the scope, but for the one that is new. -/
theorem mem_rebind {name : String} {v : Value} {readOnly : Bool} {b : Binding} (h : b ∈ s.rebind name v readOnly) :
    b = ⟨name, v, readOnly⟩ ∨ b ∈ s := by
  induction s with
  | nil => cases h
  | cons d rest ih =>
    rw [rebind] at h
    split at h
    · exact (List.mem_cons.1 h).imp_right (List.mem_cons_of_mem _)
    · obtain rfl | h := List.mem_cons.1 h
      · exact .inr List.mem_cons_self
      · exact (ih h).imp_right (List.mem_cons_of_mem _)

/-- A name that is bound anew leaves the variables of other names alone. -/
theorem mem_rebind_of_ne {name : String} {v : Value} {readOnly : Bool} {b : Binding} (hb : b ∈ s) (hne : b.name ≠ name) :
    b ∈ s.rebind name v readOnly := by
  induction s with
  | nil => cases hb
  | cons d rest ih =>
    rw [rebind]
    split
    · obtain rfl | hb := List.mem_cons.1 hb
      · contradiction
      · exact List.mem_cons_of_mem _ hb
    · exact List.mem_cons.2 ((List.mem_cons.1 hb).imp_right ih)

/-- What is listed is a variable that can be written. -/
theorem mem_values {name : String} (h : name ∈ s.values.map Prod.fst) :
    ∃ b ∈ s, b.name = name ∧ b.readOnly = false := by
  induction s with
  | nil => cases h
  | cons d rest ih =>
    rw [values] at h
    split at h
    · obtain ⟨b, hb, hname⟩ := ih h
      exact ⟨b, List.mem_cons_of_mem _ hb, hname⟩
    · obtain ⟨m, hm, rfl⟩ := List.mem_map.1 h
      obtain rfl | hm := Json.eq_or_mem_of_mem_insert hm
      · exact ⟨d, List.mem_cons_self, rfl, Bool.eq_false_of_not_eq_true ‹_›⟩
      · obtain ⟨b, hb, hname⟩ := ih (List.mem_map_of_mem hm)
        exact ⟨b, List.mem_cons_of_mem _ hb, hname⟩

theorem stamps_update {name : String} {v : Value} {b : Binding} (hb : s.lookup name = some b)
    (hv : (v.flat cells).fixed b.readOnly = (b.value.flat cells).fixed b.readOnly) :
    (s.update name v).stamps cells = s.stamps cells := by
  induction s with
  | nil => rfl
  | cons d rest ih =>
    by_cases hd : d.name = name
    · obtain rfl : d = b := by simpa [lookup, hd] using hb
      rw [update, if_pos hd, stamps, stamps, List.map_cons, List.map_cons, Binding.stamp, Binding.stamp, hv]
    · have hrest : lookup name rest = some b := by simpa [lookup, hd] using hb
      rw [update, if_neg hd, stamps, stamps, List.map_cons, List.map_cons]
      exact congrArg _ (ih hrest)

theorem Fits.update {name : String} {v : Value} (h : s.Fits cells)
    (hv : ∀ b, s.lookup name = some b → ∀ c, v = .shared c → cells[c]?.map (·.readOnly) = some b.readOnly) :
    (s.update name v).Fits cells := by
  refine ⟨h.plain, fun b hb c hc => ?_⟩
  obtain hb | ⟨d, hd, rfl⟩ := mem_update hb
  · exact h.shared b hb c hc
  · exact hv d hd c hc

end Scope

/-! ## States -/

namespace Store

variable {σ : Type}

/-- The variables of a state fit to its cells. -/
structure Fits (s : Store σ) : Prop where
  scope : s.scope.Fits s.cells
  this : ∀ subject ∈ s.this, subject.Plain

/-- What is kept of the variables of a state. -/
abbrev stamps (s : Store σ) : List Stamp := s.scope.stamps s.cells

/-- A state keeps what is kept of the constants of another. -/
structure Keeps (s t : Store σ) : Prop where
  fits : t.Fits
  cells : Cell.Kept s.cells t.cells
  stamps : t.stamps = s.stamps
  this : t.this.map (·.stamp) = s.this.map (·.stamp)

/-- A state without the variables since there were `n`. -/
def trim (n : Nat) (s : Store σ) : Store σ := { s with scope := s.scope.drop (s.scope.length - n) }

variable {s t u : Store σ}

theorem Fits.keeps (h : s.Fits) : s.Keeps s := ⟨h, .refl _, rfl, rfl⟩

theorem Keeps.trans (h : s.Keeps t) (h' : t.Keeps u) : s.Keeps u :=
  ⟨h'.fits, h.cells.trans h'.cells, h'.stamps.trans h.stamps, h'.this.trans h.this⟩

theorem Keeps.length_eq (h : s.Keeps t) : t.scope.length = s.scope.length := by
  have hlength := congrArg List.length h.stamps
  rwa [Store.stamps, Store.stamps, Scope.stamps, Scope.stamps, List.length_map, List.length_map] at hlength

/-- A state with the same variables keeps all of them. -/
theorem Fits.keeps_elsewhere (h : s.Fits) (globals : List (String × Value)) (operations : Nat) (outer : σ) :
    s.Keeps { s with globals := globals, operations := operations, outer := outer } :=
  ⟨⟨h.scope, h.this⟩, .refl _, rfl, rfl⟩

theorem Fits.trim (h : s.Fits) (n : Nat) : (s.trim n).Fits :=
  ⟨h.scope.of_subset fun _ => List.mem_of_mem_drop, h.this⟩

theorem stamps_trim (n : Nat) (s : Store σ) : (s.trim n).stamps = s.stamps.drop (s.stamps.length - n) := by
  rw [stamps, stamps, trim, Scope.stamps, Scope.stamps, List.map_drop, List.length_map]

theorem Keeps.trim (h : s.Keeps t) (n : Nat) : (s.trim n).Keeps (t.trim n) :=
  ⟨h.fits.trim n, h.cells, by rw [stamps_trim, stamps_trim, h.stamps], h.this⟩

/-- A variable may be given another value, if what is kept of the two is the same. -/
theorem Fits.keeps_written (h : s.Fits) {name : String} {v : Value} {b : Binding} (hb : s.scope.lookup name = some b)
    (hv : (v.flat s.cells).fixed b.readOnly = (b.value.flat s.cells).fixed b.readOnly) :
    s.Keeps (Eval.written name v s) := by
  have hplain := h.scope.isShared_flat v
  obtain ⟨hmem, -⟩ := Scope.lookup_mem hb
  unfold Eval.written
  dsimp only
  split
  · rename_i c ro hlookup
    cases hb.symm.trans hlookup
    have hcells : Cell.Kept s.cells (s.cells.modify c fun cell => { cell with value := v.flat s.cells }) := by
      refine .modify fun cell hcell => ?_
      obtain ⟨cell', hcell', hro, hstamp⟩ := h.scope.stamp_shared hmem rfl
      cases hcell.symm.trans hcell'
      rw [hro, hv]
      exact congrArg Prod.snd hstamp
    refine ⟨⟨h.scope.of_kept hcells fun cell hcell => ?_, h.this⟩, hcells, h.scope.stamps_of_kept hcells, rfl⟩
    obtain ⟨i, hi, rfl⟩ := Array.getElem_of_mem hcell
    rw [Array.getElem_modify]
    split
    · exact hplain
    · exact h.scope.plain _ (Array.getElem_mem _)
  · have hflat : (v.flat s.cells).flat s.cells = v.flat s.cells := Value.flat_of_core rfl hplain _
    have hscope : (s.scope.update name (v.flat s.cells)).Fits s.cells := h.scope.update fun d _ c hc => by
      rw [hc] at hplain
      cases hplain
    exact ⟨⟨hscope, h.this⟩, .refl _, Scope.stamps_update hb (by rw [hflat, hv]), rfl⟩

/-- A variable may be moved to a cell. -/
theorem Fits.keeps_shared (h : s.Fits) {name : String} {b : Binding} (hb : s.scope.lookup name = some b)
    (hplain : b.value.isShared = false) :
    s.Keeps { s with cells := s.cells.push ⟨b.value, b.readOnly⟩,
                     scope := s.scope.update name (.shared s.cells.size) } := by
  have hcells : Cell.Kept s.cells (s.cells.push ⟨b.value, b.readOnly⟩) := .push _
  have hfits : s.scope.Fits (s.cells.push ⟨b.value, b.readOnly⟩) := h.scope.of_kept hcells fun cell hcell =>
    (Array.mem_push.1 hcell).elim (h.scope.plain cell) fun heq => heq ▸ hplain
  have hflat (cells : Array Cell) : b.value.flat cells = b.value := Value.flat_of_core rfl hplain cells
  refine ⟨⟨hfits.update fun d hd c hc => ?_, h.this⟩, hcells, ?_, rfl⟩
  · cases hb.symm.trans hd
    cases hc
    rw [Array.getElem?_push_size, Option.map_some]
  · rw [stamps, Scope.stamps_update hb, h.scope.stamps_of_kept hcells]
    rw [hflat, Value.flat, Array.getElem?_push_size]
    rfl

/-- A variable may be given another value later on, if what is kept of the two is the same. -/
theorem Keeps.written (h : s.Keeps t) (hs : s.Fits) {name : String} {v : Value} {b : Binding}
    (hb : s.scope.lookup name = some b)
    (hv : v.fixed b.readOnly = (b.value.flat s.cells).fixed b.readOnly) : t.Keeps (Eval.written name v t) := by
  have hstamps : t.scope.stamps t.cells = s.scope.stamps s.cells := h.stamps
  have hfind : (t.scope.lookup name).map (·.stamp t.cells) = some (b.stamp s.cells) := by
    rw [← Scope.lookup_stamps, hstamps, Scope.lookup_stamps, hb, Option.map_some]
  obtain ⟨b', hb', hstamp⟩ := Option.map_eq_some_iff.1 hfind
  have hkept := congrArg Prod.snd hstamp
  have hreadOnly := congrArg Option.isSome hkept
  rw [Binding.stamp, Binding.stamp, Value.isSome_fixed, Value.isSome_fixed] at hreadOnly
  refine h.fits.keeps_written hb' (Eq.trans ?_ hkept.symm)
  rw [hreadOnly, Binding.stamp, ← hv]
  cases hb : b.readOnly with
  | false => rfl
  | true =>
    rw [hb] at hv
    rw [Value.flat_of_core (Option.some_inj.1 hv) (hs.scope.isShared_flat _)]

/-- What a function is called on may be given another value, if what is kept of the two is the same. -/
theorem Keeps.this_written (h : s.Keeps t) (hs : s.Fits) {subject : Subject} (hthis : s.this = some subject) {v : Value}
    (hv : v.fixed subject.readOnly = (subject.value.flat s.cells).fixed subject.readOnly) :
    t.Keeps { t with this := some { subject with value := v } } := by
  have hplain : subject.Plain := hs.this subject hthis
  have hvalue : v.fixed subject.readOnly = subject.value.fixed subject.readOnly := by
    rw [hv]
    cases hreadOnly : subject.readOnly with
    | false => rfl
    | true => rw [Value.flat_of_core rfl (hplain hreadOnly)]
  refine ⟨⟨h.fits.scope, fun subject' hsubject hreadOnly => ?_⟩, .refl _, rfl, ?_⟩
  · cases hsubject
    change subject.readOnly = true at hreadOnly
    rw [hreadOnly] at hvalue
    rw [← Value.isShared_core, Option.some_inj.1 hvalue, Value.isShared_core]
    exact hplain hreadOnly
  · rw [h.this, hthis, Option.map_some, Option.map_some]
    exact congrArg some hvalue

end Store

end Lang
end ArmPilot
