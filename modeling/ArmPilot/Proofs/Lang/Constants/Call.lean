import ArmPilot.Proofs.Lang.Constants.Hold
import ArmPilot.Proofs.Lang.Eval.Call

/-!
# Calls hold on to constants

A call may change the value that it is made on, and tells its caller what becomes of it.  If the value is that of a
constant, its core stays (`Leaves`): a built-in function that changes its first argument is not called on a constant, the
others change at most what lies in an array or a map, and in a function of the script the value is a constant as well.
The evaluator of nested code is taken to keep every hold (`Machine.Steady`).
-/

open Std.Do

set_option mvcgen.warning false

namespace ArmPilot
namespace Lang

variable {σ : Type}

/-- A call leaves the core of the value alone that it is made on, if this is that of a constant. -/
def Leaves (readOnly : Bool) (v : Value) (c : Called) : Prop := ∀ w ∈ c.2, w.fixed readOnly = v.fixed readOnly

theorem leaves_none (readOnly : Bool) (v : Value) (r : Except Interrupt Value) : Leaves readOnly v (r, none) :=
  fun _ h => nomatch h

theorem leaves_some {readOnly : Bool} {v w : Value} (h : w.core = v.core) (r : Except Interrupt Value) :
    Leaves readOnly v (r, some w) := fun u hu => by
  cases hu
  rw [Value.fixed, Value.fixed, h]

theorem leaves_map {readOnly : Bool} {v : Value} {f : Value → Value} (h : ∀ w, (f w).core = v.core)
    (r : Except Interrupt Value) (changed : Option Value) : Leaves readOnly v (r, changed.map f) := fun u hu => by
  obtain ⟨w, -, rfl⟩ := Option.map_eq_some_iff.1 hu
  rw [Value.fixed, Value.fixed, h]

/-- A call that may change what it is made on leaves a constant alone. -/
theorem leaves_variable (v : Value) (c : Called) : Leaves false v c := fun _ _ => rfl

theorem Leaves.mono {v : Value} {c : Called} (h : Leaves true v c) (readOnly : Bool) : Leaves readOnly v c := by
  cases readOnly with
  | false => exact leaves_variable v c
  | true => exact h

/-- A call keeps a hold, and leaves the value alone that it is made on, if this is that of a constant. -/
abbrev Hold.Spares (H : Hold σ) (readOnly : Bool) (v : Value) (m : Eval σ Called) : Prop :=
  H.Yields m fun c s => H.holds s ∧ Leaves readOnly v c

theorem Hold.Spares.mono {H : Hold σ} {v : Value} {m : Eval σ Called} (h : H.Spares true v m) (readOnly : Bool) :
    H.Spares readOnly v m := by
  mvcgen [h]
  exact fun hs hleaves => ⟨hs, hleaves.mono _⟩

/-- A built-in function keeps a hold, and leaves its first argument alone, unless it says that it changes it. -/
abbrev Hold.SparesFirst (H : Hold σ) (args : List Value) (n : Native σ) : Prop :=
  H.Yields n.run fun c s => H.holds s ∧ ∀ v ∈ args.head?, Leaves (!n.changes) v c

/-- The evaluator of nested code keeps every hold. -/
structure Machine.Steady (m : Machine σ) : Prop where
  eval : ∀ (H : Hold σ) E e, H.Keeps (m.eval E e)
  exec : ∀ (H : Hold σ) {E st}, H.Admits E.blockStart st → H.Keeps (m.exec E st)
  invoke : ∀ (H : Hold σ) E r args {this : Option Subject} amongCaller p, (∀ subject ∈ this, subject.Plain) →
    H.Yields (m.invoke E r args this amongCaller p) fun c s =>
      H.holds s ∧ ∀ subject ∈ this, Leaves subject.readOnly subject.value c
  native : ∀ (H : Hold σ) {E name args p n}, m.native E name args p = some n → H.SparesFirst args n

namespace Callback

variable {m : Machine σ} {E : Env σ} (hm : m.Steady) (H : Hold σ) (f : Callback) (p : Place)

include hm

theorem target?_holds {w : Way} {act : Eval σ Called} (h : f.target? m E p w = some act) : H.Keeps act := by
  have hplain : ∀ subject ∈ w.2.map fun v => Subject.mk v false, subject.Plain := by
    intro subject hsubject hreadOnly
    obtain ⟨v, -, rfl⟩ := Option.map_eq_some_iff.1 hsubject
    cases hreadOnly
  unfold target? at h
  dsimp only at h
  split at h
  · split at h
    · cases h
      exact (hm.invoke H _ _ _ _ _ hplain).forget
    · cases h
  · split at h
    · cases h
      exact (hm.invoke H _ _ _ _ _ hplain).forget
    · obtain ⟨n, hn, rfl⟩ := Option.map_eq_some_iff.1 h
      have hrun := (hm.native H hn).forget
      mvcgen [hrun]

theorem apply_holds (caller : String) (args : List Value) (item : Option Value) (moveTo : Option Nat)
    (extras : List Value) : H.Keeps (f.apply m E caller args item moveTo extras p) := by
  have hflat (v : Value) : H.Keeps (Eval.flat v) := (Eval.flat_holds v).forget
  have htarget {act : Eval σ Called} (h : (ways args item moveTo extras).findSome? (f.target? m E p) = some act) :
      H.Keeps act := by
    obtain ⟨w, -, hw⟩ := List.exists_of_findSome?_eq_some h
    exact f.target?_holds hm H p hw
  unfold apply
  dsimp only
  split
  · rename_i act hact
    have hrun := htarget hact
    mvcgen [hrun, hflat]
    all_goals exact Hold.elsewhere ‹_› _ _ _
  · mvcgen [hflat]

theorem ask_holds (caller : String) (i : Nat) (v : Value) : H.Keeps (f.ask m E caller p i v) :=
  f.apply_holds hm H p _ _ _ _ _

theorem judge_holds (caller : String) (args : List Value) : H.Keeps (f.judge m E caller p args) := by
  have happly := f.apply_holds (E := E) hm H p
  mvcgen [judge, happly]

end Callback

section

variable {H : Hold σ}

theorem walk_holds {κ β : Type} {ask : β → κ → Value → Eval σ Called} (h : ∀ b k v, H.Keeps (ask b k v))
    (use : β → κ → Value → Value → Bool × β) : ∀ done acc items, H.Keeps (walk ask use done acc items)
  | done, acc, [] => by
    mvcgen [walk]
  | done, acc, (k, v) :: rest => by
    have ih := fun done acc => walk_holds h use done acc rest
    mvcgen [walk, h, ih]

theorem divide_holds {κ : Type} {ask : κ → Value → Eval σ Called} (h : ∀ k v, H.Keeps (ask k v))
    (items : List (κ × Value)) : H.Keeps (divide ask items) := by
  have hwalk := @walk_holds σ H κ (List (κ × Value) × List (κ × Value)) _ fun _ => h
  mvcgen [divide, hwalk]

/-! ## Sorting -/

namespace Library

variable {precedes : Value → Value → Eval σ Bool} (h : ∀ v w, H.Keeps (precedes v w))

include h

theorem insertBackwards_holds (v : Value) : ∀ vs, H.Keeps (insertBackwards precedes v vs)
  | [] => by
    mvcgen [insertBackwards]
  | w :: rest => by
    have ih := insertBackwards_holds v rest
    mvcgen [insertBackwards, h, ih]

theorem insertAll_holds : ∀ acc vs, H.Keeps (insertAll precedes acc vs)
  | acc, [] => by
    mvcgen [insertAll]
  | acc, v :: rest => by
    have hinsert := insertBackwards_holds h v
    have ih := fun acc => insertAll_holds acc rest
    mvcgen [insertAll, hinsert, ih]

theorem merge_holds (vs ws : List Value) : H.Keeps (merge precedes vs ws) := by
  fun_induction merge precedes vs ws with
  | case1 => mvcgen
  | case2 => mvcgen
  | case3 v vs w ws ih₁ ih₂ => mvcgen [h, ih₁, ih₂]

theorem sortBy_holds (vs : List Value) : H.Keeps (sortBy precedes vs) := by
  fun_induction sortBy precedes vs with
  | case1 vs => exact insertAll_holds h [] vs
  | case2 vs hvs half ih₁ ih₂ =>
    have hmerge := merge_holds h
    mvcgen [hmerge, ih₁, ih₂]

end Library

end

/-! ## Functions -/

namespace Eval

variable {m : Machine σ} {E : Env σ}

section

variable {H : Hold σ}

theorem looking_leaves {v : Value} {act : Eval σ Called} {n : Native σ}
    (h : H.Spares true v act) (hn : looking act = some n) : H.Spares true v n.run := by
  cases hn
  exact h

theorem changing_leaves {v : Value} {act : Eval σ Called} {n : Native σ}
    (h : H.Spares true v act) (hn : changing act = some n) : H.Spares true v n.run := by
  cases hn
  exact h

theorem alongArray_holds {β : Type} {ask : Nat → Value → Eval σ Called} (h : ∀ i v, H.Keeps (ask i v))
    (use : β → Nat → Value → Value → Bool × β) (answer : β → Value) (init : β) (vs : List Value) (start : Nat) :
    H.Spares true (.array vs) (alongArray ask use answer init vs start) := by
  have hwalk := @walk_holds σ H Nat β _ (fun _ => h) use
  mvcgen [alongArray, hwalk]
  exact ⟨‹_›, leaves_some rfl _⟩

end

section

variable (hm : m.Steady) (H : Hold σ) (f : Callback) (p : Place)

include hm

theorem reduce_holds (caller : String) (backwards : Bool) (init : Value) (vs : List Value) :
    H.Spares true (.array vs) (reduce m E caller f backwards init vs p) := by
  have happly := f.apply_holds (E := E) hm H p caller
  have hwalk := @walk_holds σ H Nat Value _ (fun acc i v => happly [acc] (some v) (some 1) [.int i])
  mvcgen [reduce, hwalk]
  exact ⟨‹_›, leaves_some rfl _⟩

theorem zip_holds (vs ws : List Value) :
    H.Spares true (.array vs) (zip m E f vs ws p) := by
  have happly := f.apply_holds (E := E) hm H p "zip"
  have hwalk := @walk_holds σ H (Nat × Value) (List Value) _
    (fun _ iw v => happly [iw.2] (some v) (some 0) [.int iw.1])
  mvcgen [zip, hwalk]
  exact ⟨‹_›, leaves_some rfl _⟩

theorem sortWith_holds (vs : List Value) : H.Keeps (sortWith m E f vs p) := by
  have hjudge := f.judge_holds (E := E) hm H p "sort"
  refine Library.sortBy_holds (fun v w => ?_) vs
  mvcgen [hjudge]

theorem dedupWith_holds : ∀ kept vs, H.Keeps (dedupWith m E f p kept vs)
  | kept, [] => by
    cases kept <;> mvcgen [dedupWith]
  | [], v :: rest => by
    have ih := fun kept => dedupWith_holds kept rest
    mvcgen [dedupWith, ih]
  | last :: kept, v :: rest => by
    have hjudge := f.judge_holds (E := E) hm H p "dedup"
    have ih := fun kept => dedupWith_holds kept rest
    mvcgen [dedupWith, hjudge, ih]

theorem arrayFunction?_holds {name : String} {vs rest : List Value} {n : Native σ}
    (h : arrayFunction? m E name vs f rest p = some n) :
    H.Spares true (.array vs) n.run := by
  have hask := f.ask_holds (E := E) hm H p
  have happly := f.apply_holds (E := E) hm H p
  have hreduce := reduce_holds (E := E) hm H f p
  have hsort := sortWith_holds (E := E) hm H f p
  have hdedup := dedupWith_holds (E := E) hm H f p
  have hdivide := fun caller => @divide_holds σ H Nat _ (hask caller)
  unfold arrayFunction? at h
  dsimp only at h
  split at h
  all_goals first
    | cases h; done
    | with_reducible exact looking_leaves (alongArray_holds (hask _) _ _ _ _ _) h
    | with_reducible exact looking_leaves (hreduce _ _ _ _) h
    | with_reducible exact changing_leaves (alongArray_holds (fun _ _ => happly _ _ _ _ _) _ _ _ _ _) h
    | (refine changing_leaves ?_ h; mvcgen [hsort, hdedup, hdivide])
    | (refine looking_leaves ?_ h; mvcgen [hsort])
  all_goals first
    | exact ⟨‹_›, leaves_some rfl _⟩
    | exact ⟨‹_›, leaves_none _ _ _⟩

theorem mapFunction?_holds {name : String} {ms : List (String × Value)} {n : Native σ}
    (h : mapFunction? m E name ms f p = some n) :
    H.Spares true (.map ms) n.run := by
  have happly := f.apply_holds (E := E) hm H p name
  have hask := fun (k : String) v => happly [.string k] (some v) (some 1) []
  have hwalk := @walk_holds σ H String (List (String × Value)) _ fun _ => hask
  have hdivide := divide_holds hask
  unfold mapFunction? at h
  dsimp only at h
  split at h
  · refine looking_leaves ?_ h
    mvcgen [hwalk]
    exact ⟨‹_›, leaves_some rfl _⟩
  · refine looking_leaves ?_ h
    mvcgen [hwalk]
    exact ⟨‹_›, leaves_some rfl _⟩
  · refine changing_leaves ?_ h
    mvcgen [hdivide]
    exact ⟨‹_›, leaves_some rfl _⟩
  · refine changing_leaves ?_ h
    mvcgen [hdivide]
    exact ⟨‹_›, leaves_some rfl _⟩
  · cases h

omit m hm f p E in
theorem sparesFirst {v : Value} {rest : List Value} {n : Native σ} (h : H.Spares true v n.run) :
    H.SparesFirst (v :: rest) n := by
  have h' := h.mono (!n.changes)
  mvcgen [h']
  exact fun hs hleaves => ⟨hs, fun w hw => by cases hw; exact hleaves⟩

omit f in
theorem callbackFunction?_holds {name : String} {args : List Value} {n : Native σ}
    (h : callbackFunction? m E name args p = some n) : H.SparesFirst args n := by
  unfold callbackFunction? at h
  split at h
  · exact sparesFirst H (arrayFunction?_holds hm H _ p h)
  · split at h
    · obtain ⟨n', hn', rfl⟩ := Option.map_eq_some_iff.1 h
      split
      · exact sparesFirst H (arrayFunction?_holds hm H _ p hn')
      · mvcgen
        exact ⟨‹_›, fun _ _ => leaves_none _ _ _⟩
    · cases h
  · split at h
    · exact sparesFirst H (looking_leaves (zip_holds hm H _ p _ _) h)
    · cases h
  · exact sparesFirst H (mapFunction?_holds hm H _ p h)
  · cases h

omit m hm f in
theorem counted_holds {n : Native σ} {args : List Value} (h : H.SparesFirst args n) :
    H.SparesFirst args (counted E p n) := by
  have htick := attempt_holds (tick_holds (H := H) (E := E) p)
  mvcgen [counted, htick, h]
  exact ⟨‹_›, fun _ _ => leaves_none _ _ _⟩

omit m hm f in
theorem bounded_holds {n : Native σ} {args : List Value} (h : H.SparesFirst args n) :
    H.SparesFirst args (bounded E p n) := by
  mvcgen [bounded, h]

omit m hm f in
theorem shown_holds {text : String} {show_ : String → σ → σ} {n : Native σ} (args : List Value)
    (h : native?.shown E p text show_ = some n) : H.SparesFirst args n := by
  cases h
  mvcgen
  · exact ⟨‹_›, fun _ _ => leaves_none _ _ _⟩
  · exact ⟨Hold.elsewhere ‹_› _ _ _, fun _ _ => leaves_none _ _ _⟩

omit f in
/-- A function of the host leaves its arguments alone, and one of the library that changes its first says so. -/
theorem beyond_holds {name : String} {args : List Value} {n : Native σ}
    (h : native?.beyond m E p name args = some n) : H.SparesFirst args n := by
  unfold native?.beyond at h
  split at h
  · cases h
    mvcgen
    all_goals exact ⟨Hold.elsewhere ‹_› _ _ _, fun _ _ => leaves_none _ _ _⟩
  · split at h
    · exact shown_holds H p _ h
    · exact shown_holds H p _ h
    · exact shown_holds H p _ h
    · exact shown_holds H p _ h
    · split at h
      · rename_i n' hn'
        cases h
        exact bounded_holds H p (callbackFunction?_holds hm H p hn')
      · obtain ⟨a, -, rfl⟩ := Option.map_eq_some_iff.1 h
        mvcgen
        refine ⟨‹_›, fun v _ w hw => ?_⟩
        have hreceiver : a.receiver = some w := hw
        rw [hreceiver]
        rfl

omit f in
theorem native?_holds {name : String} {args : List Value} {n : Native σ}
    (h : native? m E name args p = some n) : H.SparesFirst args n := by
  unfold native? at h
  split at h
  · cases h
    mvcgen
    exact ⟨‹_›, fun _ _ => leaves_none _ _ _⟩
  · cases h
    mvcgen
    exact ⟨‹_›, fun _ _ => leaves_none _ _ _⟩
  · obtain ⟨n', hn', rfl⟩ := Option.map_eq_some_iff.1 h
    exact counted_holds H p (beyond_holds hm H p hn')

omit f in
theorem callByName_holds (name : String) (args : List Value) (amongCaller : Bool) :
    H.Keeps (callByName m E name args amongCaller p) := by
  unfold callByName
  split
  · have hnone : ∀ subject ∈ (none : Option Subject), subject.Plain := fun _ h => nomatch h
    exact (hm.invoke H _ _ _ _ _ hnone).forget
  · split
    · rename_i n hn
      exact (hm.native H hn).forget
    · mvcgen

omit f p in
/-- The statements of a function keep what its declarations keep. -/
theorem runBody_holds : ∀ {stmts : List Stmt}, (∀ s ∈ stmts, H.Admits E.blockStart s) →
    H.Keeps (invokeWith.runBody m E stmts)
  | [], _ => by
    mvcgen [invokeWith.runBody]
  | [s], h => by
    have hexec := hm.exec H (h s (List.mem_singleton_self s))
    have hflat (v : Value) : H.Keeps (flat v) := (flat_holds v).forget
    mvcgen [invokeWith.runBody, hexec, hflat]
  | s :: t :: rest, h => by
    have hexec := hm.exec H (h s List.mem_cons_self)
    have hnext : ∀ u ∈ t :: rest, H.Admits E.blockStart u := fun u hu => h u (List.mem_cons_of_mem s hu)
    have ih := runBody_holds hnext
    mvcgen [invokeWith.runBody, hexec, ih]

end

/-! ## Functions of the script -/

theorem parameters_fit {cells : Array Cell} (h : ∀ cell ∈ cells, cell.value.isShared = false)
    (ps : List (String × Value)) : Scope.Fits cells (ps.map fun q => parameter cells q.1 q.2) := by
  refine ⟨h, fun b hb c hc => ?_⟩
  obtain ⟨⟨name, v⟩, -, rfl⟩ := List.mem_map.1 hb
  unfold parameter at hc ⊢
  dsimp only at hc ⊢
  split at hc
  · rename_i d
    split at hc
    · rename_i cell hcell
      cases hc
      simp [hcell]
    · cases hc
  · rename_i hplain
    exact (hplain c hc).elim

/-- What becomes of what a function is called on, told by what is kept of it. -/
theorem leaves_this {before after : Option Subject} (h : after.map Subject.stamp = before.map Subject.stamp)
    (r : Except Interrupt Value) :
    ∀ subject ∈ before, Leaves subject.readOnly subject.value (r, after.map Subject.value) := by
  intro subject hbefore w hw
  obtain ⟨subject', hafter, rfl⟩ := Option.map_eq_some_iff.1 hw
  rw [hafter, Option.mem_def.1 hbefore, Option.map_some, Option.map_some, Option.some_inj] at h
  have hreadOnly := congrArg Option.isSome h
  rw [Subject.stamp, Subject.stamp, Value.isSome_fixed, Value.isSome_fixed] at hreadOnly
  rwa [Subject.stamp, Subject.stamp, hreadOnly] at h

/-- The variables with which a function begins: its parameters, above those of its caller or alone. -/
theorem above_entered {s : Store σ} {parameters outer : Scope} {this : Option Subject}
    (hparameters : parameters.Fits s.cells) (houter : outer.Fits s.cells) (hthis : ∀ subject ∈ this, subject.Plain) :
    (Hold.above { s with scope := outer, this := this }).holds { s with scope := parameters ++ outer, this := this } := by
  have htrim : Store.trim outer.length { s with scope := parameters ++ outer, this := this } =
      { s with scope := outer, this := this } := by
    rw [Store.trim, List.length_append, Nat.add_sub_cancel, List.drop_left]
  exact ⟨⟨hparameters.append houter, hthis⟩, htrim.symm ▸ Store.Fits.keeps ⟨houter, hthis⟩⟩

/-- At the end of a function its caller finds its variables again. -/
theorem keeps_left {s s' t : Store σ} (h : s.Fits) (hs : s.Keeps s') (amongCaller : Bool) {this : Option Subject}
    (ht : (Hold.above { s' with scope := if amongCaller then s.scope else [], this := this }).holds t) :
    s.Keeps { t with
      scope := if amongCaller then t.scope.drop (t.scope.length - s.scope.length) else s.scope
      this := s.this } := by
  obtain ⟨hfits, hkeeps⟩ := ht
  have hcells : Cell.Kept s.cells t.cells := hs.cells.trans hkeeps.cells
  cases amongCaller with
  | false =>
    exact ⟨⟨h.scope.of_kept hcells hfits.scope.plain, h.this⟩, hcells, h.scope.stamps_of_kept hcells, rfl⟩
  | true =>
    exact ⟨⟨hkeeps.fits.scope, h.this⟩, hcells, hkeeps.stamps.trans (h.scope.stamps_of_kept hs.cells), rfl⟩

/-- A function of the script keeps every hold.  Its variables lie above those of its caller, or there are none below. -/
theorem invokeWith_holds (hm : m.Steady) (H : Hold σ) (r : Routine) (args : List Value) {this : Option Subject}
    (amongCaller : Bool) (p : Place) (hthis : ∀ subject ∈ this, subject.Plain) :
    H.Yields (invokeWith m E r args this amongCaller p) fun c s =>
      H.holds s ∧ ∀ subject ∈ this, Leaves subject.readOnly subject.value c := by
  have henter (H : Hold σ) : H.Keeps (invokeWith.enter E p) := by
    have htick := tick_holds (H := H) (E := E) p
    mvcgen [invokeWith.enter, htick, fail]
  have hbody (base : Store σ) (level start : Nat) (hstart : base.scope.length ≤ start) :
      (Hold.above base).Keeps (invokeWith.runBody m { E with level := level, blockStart := start } r.body) :=
    runBody_holds hm _ fun st _ => Hold.admits_above hstart st
  mvcgen [invokeWith]
  · rename_i s hs
    exact ⟨hs, leaves_this rfl _⟩
  · rename_i s hs
    have henter' := attempt_holds (henter (H.since s))
    mvcgen [henter']
    · exact Hold.since_self hs
    · exact ⟨And.left ‹_›, leaves_this rfl _⟩
    · rename_i s' hs' _
      obtain ⟨-, hs'⟩ := hs'
      have hfits : s'.Fits := hs'.fits
      have hcells : Cell.Kept s.cells s'.cells := hs'.cells
      let outer : Scope := if amongCaller then s.scope else []
      have houter : outer.Fits s'.cells :=
        Scope.Fits.of_subset ((H.fits hs).scope.of_kept hcells hfits.scope.plain) (by
          unfold outer
          split <;> simp)
      have hparameters : Scope.Fits s'.cells
          ((r.parameters.zip args).reverse.map fun q => parameter s.cells q.1 q.2) :=
        Scope.Fits.of_kept (parameters_fit (H.fits hs).scope.plain _) hcells hfits.scope.plain
      have hbody' :=
        attempt_holds (hbody { s' with scope := outer, this := this } (E.level + 1) outer.length le_rfl)
      mvcgen [hbody']
      · exact above_entered hparameters houter hthis
      · rename_i ended t ht
        exact ⟨H.keeps hs (keeps_left (H.fits hs) hs' amongCaller ht), leaves_this ht.2.this _⟩

end Eval

end Lang
end ArmPilot
