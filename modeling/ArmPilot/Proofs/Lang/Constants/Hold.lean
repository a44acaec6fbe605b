import ArmPilot.Lang.Eval.Statement
import ArmPilot.Proofs.Lang.Constants.Basic

/-!
# Holding on to constants

A `Hold` is what holds of a state as long as nothing is changed of its constants.  Every step of the evaluator keeps every
hold, whatever else it does.  Variables that a step declares for itself lie above those that it found (`Hold.above`), and
are forgotten at its end.
-/

open Std.Do

set_option mvcgen.warning false

namespace ArmPilot
namespace Lang

variable {σ α : Type}

/-- What holds of a state as long as nothing is changed of its constants. -/
structure Hold (σ : Type) where
  holds : Store σ → Prop
  fits : ∀ {s}, holds s → s.Fits
  keeps : ∀ {s t}, holds s → s.Keeps t → holds t

/-- The name that a statement declares. -/
def Stmt.declared? : Stmt → Option String
  | .declare name _ _ _ _ => some name
  | _ => none

namespace Store

/-- A state in which a variable is declared in a block that began when there were `start` variables. -/
def declare (start : Nat) (name : String) (v : Value) (readOnly replaces : Bool) (s : Store σ) : Store σ :=
  { s with scope := if replaces then s.scope.redeclare start name v readOnly else s.scope.push name v readOnly }

theorem mem_declare {start : Nat} {name : String} {v : Value} {readOnly replaces : Bool} {s : Store σ} {b : Binding}
    (h : b ∈ (s.declare start name v readOnly replaces).scope) : b = ⟨name, v, readOnly⟩ ∨ b ∈ s.scope := by
  unfold declare at h
  dsimp only at h
  split at h
  · obtain h | h := List.mem_append.1 h
    · exact (Scope.mem_rebind h).imp_right List.mem_of_mem_take
    · exact .inr (List.mem_of_mem_drop h)
  · exact List.mem_cons.1 h

/-- A declaration leaves the variables of other names alone. -/
theorem mem_declare_of_ne {start : Nat} {name : String} {v : Value} {readOnly replaces : Bool} {s : Store σ}
    {b : Binding} (hb : b ∈ s.scope) (hne : b.name ≠ name) : b ∈ (s.declare start name v readOnly replaces).scope := by
  unfold declare
  dsimp only
  split
  · rw [← List.take_append_drop (s.scope.length - start) s.scope] at hb
    exact List.mem_append.2 ((List.mem_append.1 hb).imp_left fun hb => Scope.mem_rebind_of_ne hb hne)
  · exact List.mem_cons_of_mem _ hb

theorem Fits.declare {s : Store σ} (h : s.Fits) (start : Nat) (name : String) {v : Value} (hv : v.isShared = false)
    (readOnly replaces : Bool) : (s.declare start name v readOnly replaces).Fits := by
  have hcons : Scope.Fits s.cells (⟨name, v, readOnly⟩ :: s.scope) := h.scope.cons hv
  exact ⟨hcons.of_subset fun _ hb => List.mem_cons.2 (mem_declare hb), h.this⟩

/-- A declaration leaves the variables alone that there were before its block began. -/
theorem trim_declare {n start : Nat} {s : Store σ} (hn : n ≤ s.scope.length) (hstart : n ≤ start) (name : String)
    (v : Value) (readOnly replaces : Bool) : (s.declare start name v readOnly replaces).trim n = s.trim n := by
  cases replaces with
  | false =>
    have hlength : s.scope.length + 1 - n = s.scope.length - n + 1 := by omega
    rw [trim, trim, declare, if_neg Bool.false_ne_true, Scope.push, List.length_cons, hlength, List.drop_succ_cons]
  | true =>
    have hlength : (s.scope.redeclare start name v readOnly).length = s.scope.length := by
      rw [Scope.redeclare, List.length_append, Scope.length_rebind, ← List.length_append, List.take_append_drop]
    rw [trim, trim, declare, if_pos rfl, hlength, Scope.redeclare, List.drop_append, Scope.length_rebind, List.length_take,
      List.drop_drop, List.drop_eq_nil_of_le (by rw [Scope.length_rebind, List.length_take]; omega), List.nil_append]
    congr 2
    omega

end Store

namespace Hold

/-- A hold that also says that some names are those of variables, and not of constants. -/
def varying (H : Hold σ) (names : List String) : Hold σ where
  holds s := H.holds s ∧ ∀ x ∈ names, s.scope.isReadOnly? x = some false
  fits h := H.fits h.1
  keeps {s t} h hk := ⟨H.keeps h.1 hk, fun x hx => by
    have hstamps : t.scope.stamps t.cells = s.scope.stamps s.cells := hk.stamps
    rw [Scope.isReadOnly?_eq t.cells, hstamps, ← Scope.isReadOnly?_eq]
    exact h.2 x hx⟩

/-- A hold that also says that what is kept of a state has not changed since. -/
def since (H : Hold σ) (s : Store σ) : Hold σ where
  holds t := H.holds t ∧ s.Keeps t
  fits h := H.fits h.1
  keeps h hk := ⟨H.keeps h.1 hk, h.2.trans hk⟩

/-- What holds of a state that keeps what is kept of another, but for newer variables. -/
def above (s : Store σ) : Hold σ where
  holds t := t.Fits ∧ s.Keeps (t.trim s.scope.length)
  fits h := h.1
  keeps h hk := ⟨hk.fits, h.2.trans (hk.trim _)⟩

variable (H : Hold σ)

/-- A step keeps a hold and gives a result for which something holds. -/
abbrev Yields (m : Eval σ α) (Q : α → Store σ → Prop) : Prop :=
  ⦃fun s => ⌜H.holds s⌝⦄ m ⦃post⟨fun a s => ⌜Q a s⌝, fun _ s => ⌜H.holds s⌝⟩⦄

/-- A step keeps a hold. -/
abbrev Keeps (m : Eval σ α) : Prop := H.Yields m fun _ => H.holds

/-- A hold is kept by the declarations of a statement in a block that began when there were `start` variables. -/
def Admits (start : Nat) (st : Stmt) : Prop :=
  ∀ name ∈ st.declared?, ∀ {s : Store σ} {v : Value} (readOnly replaces : Bool), H.holds s → v.isShared = false →
    H.holds (s.declare start name v readOnly replaces)

variable {H}

/-- A step keeps a hold, whatever else is known of its result. -/
theorem Yields.forget {m : Eval σ α} {Q : α → Store σ → Prop} (h : H.Yields m fun a s => H.holds s ∧ Q a s) :
    H.Keeps m :=
  Failing.triple_iff.2 fun s hs => (Failing.triple_iff.1 h s hs).imp_left fun hok a ha => (hok a ha).1

/-- A hold does not depend on the steps taken, on the constants of the script and on what lies outside. -/
theorem elsewhere {s : Store σ} (h : H.holds s) (globals : List (String × Value)) (operations : Nat) (outer : σ) :
    H.holds { s with globals := globals, operations := operations, outer := outer } :=
  H.keeps h ((H.fits h).keeps_elsewhere globals operations outer)

theorem since_self {s : Store σ} (h : H.holds s) : (H.since s).holds s := ⟨h, (H.fits h).keeps⟩

theorem varying_nil {s : Store σ} (h : H.holds s) : (H.varying []).holds s := ⟨h, fun _ hx => nomatch hx⟩

/-- What is not constant may be given any value. -/
theorem written_of_varying {s : Store σ} {names : List String} (h : (H.varying names).holds s) {x : String}
    (hx : x ∈ names) (v : Value) : (H.varying names).holds (Eval.written x v s) := by
  obtain ⟨b, hb, hreadOnly⟩ := Option.map_eq_some_iff.1 (h.2 x hx)
  have hs : s.Fits := H.fits h.1
  exact (H.varying names).keeps h (hs.keeps_written hb (by rw [hreadOnly]; rfl))

/-- What may be given any value does not matter once a step is done. -/
theorem of_varying {names : List String} {m : Eval σ α} (h : (H.varying names).Keeps m) :
    ⦃fun s => ⌜(H.varying names).holds s⌝⦄ m ⦃post⟨fun _ s => ⌜H.holds s⌝, fun _ s => ⌜H.holds s⌝⟩⦄ :=
  Failing.triple_iff.2 fun s hs => (Failing.triple_iff.1 h s hs).imp (fun hok a ha => (hok a ha).1) fun herror e he => (herror e he).1

theorem of_since {s t : Store σ} (h : (H.since s).holds t) : H.holds t := h.1

theorem above_self {s : Store σ} (h : s.Fits) : (above s).holds s := by
  have htrim : s.trim s.scope.length = s := by rw [Store.trim, Nat.sub_self, List.drop_zero]
  exact ⟨h, htrim.symm ▸ h.keeps⟩

theorem length_of_above {s t : Store σ} (h : (above s).holds t) : s.scope.length ≤ t.scope.length := by
  have hlength := h.2.length_eq
  rw [Store.trim, List.length_drop] at hlength
  omega

/-- The variables of a block lie above those that there were when it began. -/
theorem declare_above {s t : Store σ} (h : (above s).holds t) {start : Nat} (hstart : s.scope.length ≤ start)
    (name : String) {v : Value} (hv : v.isShared = false) (readOnly replaces : Bool) :
    (above s).holds (t.declare start name v readOnly replaces) :=
  ⟨h.1.declare start name hv readOnly replaces, by
    rw [Store.trim_declare (length_of_above h) hstart]
    exact h.2⟩

/-- A new variable is one of those that may be given any value. -/
theorem varying_push {s t : Store σ} {names : List String} (h : ((above s).varying names).holds t) (name : String)
    {v : Value} (hv : v.isShared = false) :
    ((above s).varying (name :: names)).holds { t with scope := t.scope.push name v false } := by
  refine ⟨declare_above h.1 le_rfl name hv false false, fun x hx => ?_⟩
  by_cases hname : name = x
  · simp [Scope.isReadOnly?, Scope.lookup, Scope.push, hname]
  · have hx : x ∈ names := (List.mem_cons.1 hx).resolve_left fun h => hname h.symm
    simpa [Scope.isReadOnly?, Scope.lookup, Scope.push, hname] using h.2 x hx

theorem admits_above {s : Store σ} {start : Nat} (h : s.scope.length ≤ start) (st : Stmt) :
    (above s).Admits start st :=
  fun name _ _ _ readOnly replaces hs hv => declare_above hs h name hv readOnly replaces

end Hold

/-- A binding is what a name stands for: a function of the script, or the newest variable of the name. -/
def Env.Finds (E : Env σ) (name : String) (bound : Bool) (b : Binding) (s : Store σ) : Prop :=
  E.named? name bound ≠ none ∧ b.readOnly = true ∨ E.named? name bound = none ∧ s.scope.lookup name = some b

namespace Eval

variable {H : Hold σ} {E : Env σ}

/-- A step whose interruption is set aside is never interrupted. -/
theorem attempt_holds {m : Eval σ α} (h : H.Keeps m) :
    ⦃fun s => ⌜H.holds s⌝⦄ attempt m ⦃post⟨fun _ s => ⌜H.holds s⌝, fun _ _ => ⌜False⌝⟩⦄ := by
  intro s hs
  obtain ⟨hok, herror⟩ := Failing.triple_iff.1 h s hs
  have hleft : H.holds (m.run.run s).2 := by
    cases hm : (m.run.run s).1 with
    | ok a => exact hok a hm
    | error e => exact herror e hm
  simpa [wp, attempt_run, Id.run] using hleft

theorem resume_holds (r : Except Interrupt α) : H.Keeps (resume r : Eval σ α) := by
  mvcgen [resume]

theorem ofOutcome_holds (o : Outcome) (p : Place) : H.Keeps (ofOutcome o p) := by
  mvcgen [ofOutcome, fail]

theorem flat_holds (v : Value) :
    H.Yields (flat v) fun w s => H.holds s ∧ w.isShared = false ∧ w = v.flat s.cells := by
  mvcgen [flat]
  rename_i hs
  exact ⟨hs, (H.fits hs).scope.isShared_flat v⟩

theorem tick_holds (p : Place) : H.Keeps (tick E p) := by
  mvcgen [tick, fail]
  all_goals exact Hold.elsewhere ‹_› _ _ _

theorem binding_holds (name : String) (bound : Bool) (p : Place) :
    H.Yields (binding E name bound p) fun b s => H.holds s ∧ E.Finds name bound b s := by
  mvcgen [binding, fail]
  · rename_i hnamed s hs
    exact ⟨hs, .inl ⟨by simp [hnamed], rfl⟩⟩
  · rename_i hnamed s hs b hb
    exact ⟨hs, .inr ⟨hnamed, hb⟩⟩

theorem readVariable_holds (name : String) (bound : Bool) (p : Place) :
    H.Keeps (readVariable E name bound p) := by
  have hflat := @flat_holds σ H
  have hbinding := @binding_holds σ H E
  mvcgen [readVariable, hflat, hbinding]
  all_goals simp_all

theorem readQualified_holds (path : List String) (name : String) (p : Place) :
    H.Keeps (readQualified path name p : Eval σ Value) := by
  mvcgen [readQualified, fail]

theorem checkSizes_holds (s : Sizes) (p : Place) : H.Keeps (checkSizes E s p) := by
  mvcgen [checkSizes, fail]

theorem checkSize_holds (v : Value) (p : Place) : H.Keeps (checkSize E v p) := by
  mvcgen [checkSize, fail]

/-- A step that keeps every hold leaves a variable a variable, so that it can be written afterwards. -/
theorem still_writable {m : Eval σ α} (h : ∀ H : Hold σ, H.Keeps m) (name : String) (bound : Bool) (b : Binding) :
    ⦃fun s => ⌜H.holds s ∧ E.Finds name bound b s⌝⦄ m
    ⦃post⟨fun _ s => ⌜H.holds s ∧ (b.readOnly = false → ∀ v, H.holds (written name v s))⌝,
      fun _ s => ⌜H.holds s⌝⟩⦄ := by
  refine Failing.triple_iff.2 fun s hs => ?_
  obtain ⟨hs, ⟨-, hreadOnly⟩ | ⟨-, hlookup⟩⟩ := hs
  · obtain ⟨hok, herror⟩ := Failing.triple_iff.1 (h H) s hs
    exact ⟨fun a ha => ⟨hok a ha, fun hb => absurd (hreadOnly.symm.trans hb) Bool.noConfusion⟩, herror⟩
  · obtain ⟨hok, herror⟩ := Failing.triple_iff.1 (h (H.since s)) s (Hold.since_self hs)
    refine ⟨fun a ha => ?_, fun e he => (herror e he).1⟩
    obtain ⟨ht, hkeeps⟩ := hok a ha
    exact ⟨ht, fun hreadOnly v => H.keeps ht (hkeeps.written (H.fits hs) hlookup (by rw [hreadOnly]; rfl))⟩

/-- How code ends that has variables of its own, and in which state. -/
theorem withScope_run (m : Eval σ α) (s : Store σ) :
    (withScope m).run.run s = ((m.run.run s).1, (m.run.run s).2.trim s.scope.length) := by
  have hrun : (withScope m).run.run s =
      (resume (m.run.run s).1 : Eval σ α).run.run ((m.run.run s).2.trim s.scope.length) := rfl
  rw [hrun]
  cases (m.run.run s).1 <;> rfl

/-- Code with variables of its own keeps every hold, if it leaves those alone that it has found. -/
theorem withScope_holds {m : Eval σ α} (h : ∀ s : Store σ, (Hold.above s).Keeps m) : H.Keeps (withScope m) := by
  refine Failing.triple_iff.2 fun s hs => ?_
  obtain ⟨hok, herror⟩ := Failing.triple_iff.1 (h s) s (Hold.above_self (H.fits hs))
  rw [withScope_run]
  exact ⟨fun a ha => H.keeps hs (hok a ha).2, fun e he => H.keeps hs (herror e he).2⟩

theorem share_holds (name : String) (p : Place) : H.Keeps (share name p : Eval σ Value) := by
  mvcgen [share, fail]
  rename_i s hs b hplain hb c
  refine H.keeps hs ((H.fits hs).keeps_shared hb ?_)
  cases hv : b.value with
  | shared c => exact (hplain b.name c b.readOnly (hv ▸ rfl)).elim
  | _ => rfl

end Eval

end Lang
end ArmPilot
