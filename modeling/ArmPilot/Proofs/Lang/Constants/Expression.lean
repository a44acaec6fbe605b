import ArmPilot.Proofs.Lang.Constants.Call
import ArmPilot.Proofs.Lang.Eval.Expression

/-!
# Expressions hold on to constants

An expression changes variables through a chain of members, whose root is a variable, or by handing a variable over to a
function.  Both find the variable first and write it last; what lies in between leaves the variable what it is, so that
what is written to a constant has its core (`Hold.also`).
-/

open Std.Do

set_option mvcgen.warning false

namespace ArmPilot
namespace Lang
namespace Eval

variable {σ : Type} {m : Machine σ} {E : Env σ}

section

variable {H : Hold σ}

theorem check_holds (s : Stored) : H.Keeps (s.check : Eval σ Unit) := by
  mvcgen [Stored.check]

theorem asBool_holds (v : Value) (p : Place) : H.Keeps (asBool v p : Eval σ Bool) := by
  mvcgen [asBool, fail]

theorem writing_apply_holds (w : Writing) (old : Value) : H.Keeps (w.apply E old) := by
  have htick := @tick_holds σ H E
  mvcgen [Writing.apply, htick]

end

/-! ## Storing a value -/

/-- An item of a value may be replaced, but the value stays of its kind. -/
theorem core_of_setItem {base i v w : Value} (h : base.setItem? i v = some (.ok w)) : w.core = base.core := by
  unfold Value.setItem? at h
  split at h
  case h_11 n first last inclusive =>
    rw [Option.some_inj] at h
    rcases hf : BitField.ofRange first last inclusive with c | f
    · rw [hf] at h
      cases h
    · rw [hf] at h
      have hset : ∃ k, w = .int k := by
        cases v with
        | int k =>
          injection h with h
          exact ⟨f.set n k, h.symm⟩
        | _ => injection h
      obtain ⟨k, rfl⟩ := hset
      rfl
  all_goals try dsimp only at h
  all_goals try split at h
  all_goals cases h
  all_goals rfl

theorem leaves_stored {w : Writing} {v base : Value} {base' : Option Value} (s : Stored)
    (h : ∀ b ∈ base', b.core = base.core) : Leaves true base (s.ending E w v base') := by
  have hleaves (r : Except Interrupt Value) : Leaves true base (r, base') := fun u hu => congrArg some (h u hu)
  unfold Stored.ending
  split <;> exact hleaves _

section

variable (H : Hold σ)

theorem writeMember_holds (ms : List (String × Value)) (key : String) (w : Writing)
    (bounded : Value → Value → Value) : H.Spares true (.map ms) (writeMember E ms key w bounded) := by
  have htick := @tick_holds σ H E
  have happly := @writing_apply_holds σ E H
  mvcgen [writeMember, htick, happly]
  · exact ⟨‹_›, leaves_none _ _ _⟩
  · exact ⟨‹_›, leaves_stored _ fun b hb => by cases hb; rfl⟩

theorem writeProperty_holds (base : Value) (name : String) (p : Place) (w : Writing) :
    H.Spares true base (writeProperty E base name p w) := by
  unfold writeProperty
  split
  · exact writeMember_holds H _ _ _ _
  · split
    all_goals
      mvcgen
      exact ⟨‹_›, leaves_none _ _ _⟩

theorem writeItem_holds (base i : Value) (p q : Place) (w : Writing) :
    H.Spares true base (writeItem E base i p q w) := by
  have htick := @tick_holds σ H E
  have happly := @writing_apply_holds σ E H
  unfold writeItem
  split
  · exact writeMember_holds H _ _ _ _
  · mvcgen [htick, happly]
    · exact ⟨‹_›, leaves_none _ _ _⟩
    · exact ⟨‹_›, leaves_none _ _ _⟩
    · exact ⟨‹_›, leaves_none _ _ _⟩
    · refine ⟨‹_›, leaves_stored _ fun b hb => ?_⟩
      cases hb
    · rename_i hset _ _
      refine ⟨‹_›, leaves_stored _ fun b hb => ?_⟩
      cases hb
      exact core_of_setItem hset
    · exact ⟨‹_›, leaves_none _ _ _⟩
    · exact ⟨‹_›, leaves_none _ _ _⟩

end

section

variable (hm : m.Steady) (H : Hold σ)

include hm

theorem arguments_holds : ∀ es, H.Keeps (arguments m E es)
  | [] => by
    mvcgen [arguments]
  | e :: rest => by
    have heval := hm.eval H E e
    have hflat (v : Value) : H.Keeps (flat v) := (flat_holds v).forget
    have ih := arguments_holds rest
    mvcgen [arguments, heval, hflat, ih]

theorem items_holds : ∀ total es, H.Keeps (items m E total es)
  | _, [] => by
    mvcgen [items]
  | _, e :: rest => by
    have heval := hm.eval H E e
    have hflat (v : Value) : H.Keeps (flat v) := (flat_holds v).forget
    have hsizes := @checkSizes_holds σ H E
    have ih := fun total => items_holds total rest
    mvcgen [items, heval, hflat, hsizes, ih]

theorem members_holds : ∀ total ms, H.Keeps (members m E total ms)
  | _, [] => by
    mvcgen [members]
  | _, (k, e) :: rest => by
    have heval := hm.eval H E e
    have hflat (v : Value) : H.Keeps (flat v) := (flat_holds v).forget
    have hsizes := @checkSizes_holds σ H E
    have ih := fun total => members_holds total rest
    mvcgen [members, heval, hflat, hsizes, ih]

theorem textOf_holds : ∀ acc es, H.Keeps (textOf m E acc es)
  | _, [] => by
    mvcgen [textOf]
  | _, e :: rest => by
    have heval := hm.eval H E e
    have hflat (v : Value) : H.Keeps (flat v) := (flat_holds v).forget
    have htick := @tick_holds σ H E
    have hsize := @checkSize_holds σ H E
    have ih := fun acc => textOf_holds acc rest
    mvcgen [textOf, heval, hflat, htick, hsize, ih]

theorem hop_holds (l : Link) : H.Keeps (hop m E l) := by
  have hflat (v : Value) : H.Keeps (flat v) := (flat_holds v).forget
  have hargs := arguments_holds (E := E) hm H
  have heval := hm.eval H E
  cases l <;> mvcgen [hop, hargs, heval, hflat]

theorem hopsOf_holds : ∀ links, H.Keeps (hopsOf m E links)
  | [] => by
    mvcgen [hopsOf]
  | [l] => by
    have htick := @tick_holds σ H E
    have hhop := hop_holds (E := E) hm H
    mvcgen [hopsOf, htick, hhop]
  | l :: next :: rest => by
    have htick := @tick_holds σ H E
    have hhop := hop_holds (E := E) hm H
    have ih := hopsOf_holds (next :: rest)
    mvcgen [hopsOf, htick, hhop, ih]

theorem hops_holds (links : List Link) : H.Keeps (hops m E links) := by
  have hhops := hopsOf_holds (E := E) hm H links
  unfold hops
  split
  · mvcgen
  · mvcgen
  · mvcgen
  · exact hhops

/-- A method of a constant may not change it. -/
theorem callMethod_holds (readOnly : Bool) {base : Value} (hbase : base.isShared = false) (name : String)
    (args : List Value) (p : Place) : H.Spares readOnly base (callMethod m E readOnly base name args p) := by
  unfold callMethod
  dsimp only
  split
  · rename_i r hr
    have hplain : ∀ subject ∈ some (Subject.mk base readOnly), subject.Plain := fun _ h _ => by cases h; exact hbase
    have hinvoke := hm.invoke H E r ((methodOf base name).captured ++ args) false p hplain
    mvcgen [hinvoke]
    exact fun hs hleaves => ⟨hs, hleaves _ rfl⟩
  · split
    · mvcgen
      exact ⟨‹_›, leaves_none _ _ _⟩
    · rename_i n hn
      have hrun := hm.native H hn
      have hchanges (hn : ¬(n.changes && readOnly) = true) {c : Called} {r : Except Interrupt Value}
          (h : Leaves (!n.changes) base c) : Leaves readOnly base (r, c.2) := by
        cases readOnly with
        | false => exact leaves_variable base _
        | true =>
          rw [Bool.and_true, Bool.not_eq_true] at hn
          rw [hn] at h
          exact h
      mvcgen [hrun]
      · exact ⟨‹_›, leaves_none _ _ _⟩
      · rename_i hleft
        exact ⟨hleft.1, hchanges ‹_› (hleft.2 base rfl)⟩
      · rename_i hleft
        exact ⟨hleft.1, hchanges ‹_› (hleft.2 base rfl)⟩

omit hm in
/-- A step on a value that is taken out of its cell. -/
theorem flat_bind {α : Type} {root base : Value} {f : Value → Eval σ α}
    {Q : PostCond α (.except Interrupt (.arg (Store σ) .pure))}
    (h : base.isShared = false → ⦃fun s => ⌜H.holds s⌝⦄ f base ⦃Q⦄) :
    ⦃fun s => ⌜H.holds s ∧ root.flat s.cells = base⌝⦄ (flat root >>= f) ⦃Q⦄ := by
  mvcgen [flat]
  rename_i s hs
  rw [hs.2]
  exact h (hs.2 ▸ (H.fits hs.1).scope.isShared_flat root) s hs.1

/-- What is written through a chain is put back along it. -/
theorem follow_holds (readOnly : Bool) (w : Option Writing) : ∀ hops root base,
    ⦃fun s => ⌜H.holds s ∧ root.flat s.cells = base⌝⦄ follow m E readOnly w hops root
    ⦃post⟨fun c s => ⌜H.holds s ∧ Leaves readOnly base c⌝, fun _ s => ⌜H.holds s⌝⟩⦄
  | [], v, base => by
    mvcgen [follow, flat]
    rename_i hs
    exact ⟨hs.1, leaves_none _ _ _⟩
  | hop :: rest, root, base => by
    have htick := @tick_holds σ H E
    have hproperty (base : Value) (name : String) (p : Place) (w : Writing) :
        H.Spares readOnly base (writeProperty E base name p w) := (writeProperty_holds H base name p w).mono _
    have hitem (base i : Value) (p q : Place) (w : Writing) : H.Spares readOnly base (writeItem E base i p q w) :=
      (writeItem_holds H base i p q w).mono _
    have hrest (readOnly : Bool) (v : Value) : H.Keeps (follow m E readOnly w rest v) :=
      Failing.triple_iff.2 fun s hs => by
        have hleaves := Failing.triple_iff.1 (follow_holds readOnly w rest v (v.flat s.cells)) s ⟨hs, rfl⟩
        exact ⟨fun a ha => (hleaves.1 a ha).1, hleaves.2⟩
    unfold follow
    refine flat_bind H fun hbase => ?_
    cases hop with
    | property name optional p =>
      mvcgen [htick, hproperty]
      · exact ⟨‹_›, leaves_none _ _ _⟩
      · subst_vars
        mvcgen [hrest]
        refine ⟨‹_›, leaves_map ?_ _ _⟩
        exact fun _ => rfl
      · subst_vars
        mvcgen [hrest]
        exact ⟨‹_›, leaves_none _ _ _⟩
      · exact ⟨‹_›, leaves_none _ _ _⟩
      · exact ⟨‹_›, leaves_none _ _ _⟩
    | method name args optional p =>
      have hmethod := callMethod_holds (E := E) hm H readOnly hbase
      cases rest with
      | nil =>
        mvcgen [hmethod]
        · exact ⟨‹_›, leaves_none _ _ _⟩
        · exact ⟨‹_›, leaves_none _ _ _⟩
      | cons next more =>
        mvcgen [hmethod, hrest]
        · exact ⟨‹_›, leaves_none _ _ _⟩
        · exact ⟨‹_›, leaves_none _ _ _⟩
        · exact And.left ‹_›
        · rename_i hleaves _ _ ht
          exact ⟨ht, fun u hu => hleaves.2 u hu⟩
    | index i optional p q =>
      mvcgen [htick, hitem]
      · exact ⟨‹_›, leaves_none _ _ _⟩
      · subst_vars
        mvcgen [hrest]
        · exact ⟨‹_›, leaves_none _ _ _⟩
        · rename_i hset _ ht
          exact ⟨ht, leaves_some (core_of_setItem hset) _⟩
        · exact ⟨‹_›, leaves_none _ _ _⟩
      · exact ⟨‹_›, leaves_none _ _ _⟩
      · exact ⟨‹_›, leaves_none _ _ _⟩

/-- What becomes of a variable at the root of a chain can be written to it. -/
theorem follow_writable (name : String) (bound : Bool) (b : Binding) (w : Option Writing) (hops : List Hop) :
    ⦃fun s => ⌜H.holds s ∧ E.Finds name bound b s⌝⦄ follow m E b.readOnly w hops b.value
    ⦃post⟨fun c s => ⌜H.holds s ∧ (E.named? name bound = none → ∀ v ∈ c.2, H.holds (written name v s))⌝,
      fun _ s => ⌜H.holds s⌝⟩⦄ := by
  refine Failing.triple_iff.2 fun s hs => ?_
  obtain ⟨hs, ⟨hnamed, -⟩ | ⟨-, hlookup⟩⟩ := hs
  · obtain ⟨hok, herror⟩ := Failing.triple_iff.1 (follow_holds hm H b.readOnly w hops b.value _) s ⟨hs, rfl⟩
    exact ⟨fun c hc => ⟨(hok c hc).1, fun h => (hnamed h).elim⟩, herror⟩
  · obtain ⟨hok, herror⟩ := Failing.triple_iff.1 (follow_holds hm (H.since s) b.readOnly w hops b.value _) s
      ⟨Hold.since_self hs, rfl⟩
    refine ⟨fun c hc => ?_, fun e he => (herror e he).1⟩
    obtain ⟨⟨ht, hkeeps⟩, hleaves⟩ := hok c hc
    exact ⟨ht, fun _ v hv => H.keeps ht (hkeeps.written (H.fits hs) hlookup (hleaves v hv))⟩

/-- What becomes of what a function is called on, at the root of a chain, can be written to it. -/
theorem follow_this_writable (subject : Subject) (w : Option Writing) (hops : List Hop) :
    ⦃fun s => ⌜H.holds s ∧ s.this = some subject⌝⦄ follow m E subject.readOnly w hops subject.value
    ⦃post⟨fun c s => ⌜H.holds s ∧ ∀ v ∈ c.2, H.holds { s with this := some { subject with value := v } }⌝,
      fun _ s => ⌜H.holds s⌝⟩⦄ := by
  refine Failing.triple_iff.2 fun s hs => ?_
  obtain ⟨hs, hthis⟩ := hs
  obtain ⟨hok, herror⟩ := Failing.triple_iff.1 (follow_holds hm (H.since s) subject.readOnly w hops subject.value _) s
    ⟨Hold.since_self hs, rfl⟩
  refine ⟨fun c hc => ?_, fun e he => (herror e he).1⟩
  obtain ⟨⟨ht, hkeeps⟩, hleaves⟩ := hok c hc
  exact ⟨ht, fun v hv => H.keeps ht (hkeeps.this_written (H.fits hs) hthis (hleaves v hv))⟩

theorem follow_keeps (readOnly : Bool) (w : Option Writing) (hops : List Hop) (root : Value) :
    H.Keeps (follow m E readOnly w hops root) := by
  refine Failing.triple_iff.2 fun s hs => ?_
  obtain ⟨hok, herror⟩ := Failing.triple_iff.1 (follow_holds hm H readOnly w hops root _) s ⟨hs, rfl⟩
  exact ⟨fun c hc => (hok c hc).1, herror⟩

theorem shareAll_holds : ∀ es, H.Keeps (shareAll m E es)
  | [] => by
    mvcgen [shareAll]
  | e :: rest => by
    have heval := hm.eval H E
    have hflat (v : Value) : H.Keeps (flat v) := (flat_holds v).forget
    have htick := @tick_holds σ H E
    have hshare := @share_holds σ H
    have ih := shareAll_holds rest
    cases e <;> mvcgen [shareAll, heval, hflat, htick, hshare, ih]

theorem chain_holds (root : Expr) (links : List Link) (w : Option Writing) : H.Keeps (chain m E root links w) := by
  have hhops := hops_holds (E := E) hm H links
  have htick := @tick_holds σ H E
  have hbinding := @binding_holds σ H E
  have hqualified := @readQualified_holds σ H
  have hresume := @resume_holds σ Value H
  have hwrite := @writeVariable_spec σ
  have heval := hm.eval H E
  cases root with
  | var name bound p =>
    have hfollow := follow_writable (E := E) hm H name bound
    mvcgen [chain, hhops, htick, hbinding, hfollow, hresume, hwrite, fail]
    · rename_i hchanged hnamed _ ht
      exact ht.2 (Option.isNone_iff_eq_none.1 hnamed) _ hchanged
    · exact And.left ‹_›
    · exact And.left ‹_›
  | this p =>
    have hfollow := follow_this_writable (E := E) hm H
    mvcgen [chain, hhops, htick, hfollow, hresume, fail]
    · rename_i hchanged _ ht _
      exact ht.2 _ hchanged
    · exact And.left ‹_›
  | _ =>
    have hfollow := follow_keeps (E := E) hm H
    mvcgen [chain, hhops, htick, hqualified, hfollow, hresume, heval]

theorem call_holds (name : String) (args : List Expr) (amongCaller : Bool) (p : Place) :
    H.Keeps (call m E name args amongCaller p) := by
  have htick := @tick_holds σ H E
  have hbinding := @binding_holds σ H E
  have hargs := arguments_holds (E := E) hm H
  have hcall := callByName_holds (E := E) hm H p
  have hresume := @resume_holds σ Value H
  have hwrite := @writeVariable_spec σ
  have hsize := @checkSize_holds σ H E
  unfold call
  split
  · rename_i x bound vp rest
    mvcgen [hargs, htick, hbinding, flat, hresume, hwrite, hsize]
    · exact And.left ‹_›
    · rename_i b _ s hs
      have hcall' (args : List Value) := still_writable (H := H) (E := E)
        (fun H => callByName_holds (E := E) hm H p name args amongCaller) x bound b
      mvcgen [hcall', hresume, hwrite, hsize]
      · exact And.left ‹_›
      · rename_i hvariable _ ht
        exact ht.2 (Bool.eq_false_of_not_eq_true (not_or.1 hvariable).1) _
      · exact And.left ‹_›
  · mvcgen [fail]
    rename_i q rest s hs subject hthis
    have htick' := @tick_holds σ (H.since s) E
    have hargs' := arguments_holds (E := E) hm (H.since s)
    have hcall' := callByName_holds (E := E) hm (H.since s) p
    mvcgen [htick', hargs', hcall', hresume, fail]
    · exact Hold.since_self hs
    · exact Hold.of_since ‹_›
    · exact Hold.of_since ‹_›
    · rename_i hvariable _ ht _
      have hreadOnly : subject.readOnly = false := Bool.eq_false_of_not_eq_true hvariable
      exact H.keeps ht.1 (ht.2.this_written (H.fits hs) hthis (by rw [hreadOnly]; rfl))
    · exact Hold.of_since ‹_›
    all_goals exact Hold.of_since
  · mvcgen [hargs, hcall, hresume]

/-- Statements keep what their declarations keep. -/
theorem statements_holds : ∀ {stmts : List Stmt}, (∀ s ∈ stmts, H.Admits E.blockStart s) →
    H.Keeps (statements m E stmts)
  | [], _ => by
    mvcgen [statements]
  | [s], h => hm.exec H (h s (List.mem_singleton_self s))
  | s :: t :: rest, h => by
    have hexec := hm.exec H (h s List.mem_cons_self)
    have hnext : ∀ u ∈ t :: rest, H.Admits E.blockStart u := fun u hu => h u (List.mem_cons_of_mem s hu)
    have ih := statements_holds hnext
    mvcgen [statements, hexec, ih]

omit H in
/-- A block that begins above the variables of a state leaves them alone. -/
theorem blockHere_holds (s : Store σ) (stmts : List Stmt) : (Hold.above s).Keeps (blockHere m E stmts) := by
  mvcgen [blockHere]
  rename_i t ht
  have hadmits (st : Stmt) : (Hold.above s).Admits t.scope.length st :=
    Hold.admits_above (Hold.length_of_above ht) st
  have hstatements := statements_holds (E := { E with blockStart := t.scope.length }) hm (Hold.above s)
    fun st (_ : st ∈ stmts) => hadmits st
  exact hstatements t ht

theorem block_holds (stmts : List Stmt) : H.Keeps (block m E stmts) := by
  unfold block
  split
  · mvcgen
  · exact withScope_holds fun s => blockHere_holds hm s _

theorem valueOf_holds (e : Expr) : H.Keeps (valueOf m E e) := by
  have hflat (v : Value) : H.Keeps (flat v) := (flat_holds v).forget
  have htick := @tick_holds σ H E
  have heval := hm.eval H E
  cases e with
  | const => mvcgen [valueOf]
  | text =>
    have htext := textOf_holds (E := E) hm H
    mvcgen [valueOf, htext]
  | array =>
    have hitems := items_holds (E := E) hm H
    mvcgen [valueOf, hitems]
  | map =>
    have hmembers := members_holds (E := E) hm H
    mvcgen [valueOf, hmembers]
  | var =>
    have hvariable := @readVariable_holds σ H E
    mvcgen [valueOf, hvariable]
  | qualified =>
    have hqualified := @readQualified_holds σ H
    mvcgen [valueOf, hqualified]
  | this => mvcgen [valueOf, hflat, fail]
  | call name op args p =>
    have hcall := call_holds (E := E) hm H
    have houtcome := @ofOutcome_holds σ H
    have hsize := @checkSize_holds σ H E
    unfold valueOf
    split
    all_goals mvcgen [heval, hflat, htick, houtcome, hsize, hcall, fail]
  | scopedCall =>
    have hcall := call_holds (E := E) hm H
    mvcgen [valueOf, hcall]
  | moduleCall path name args p q =>
    have hargs := arguments_holds (E := E) hm H
    have hvariable := @readVariable_holds σ H E
    mvcgen [valueOf, hargs, hvariable, fail]
  | and =>
    have hbool := @asBool_holds σ H
    mvcgen [valueOf, heval, hflat, hbool]
  | or =>
    have hbool := @asBool_holds σ H
    mvcgen [valueOf, heval, hflat, hbool]
  | coalesce => mvcgen [valueOf, heval, hflat]
  | block =>
    have hblock := block_holds (E := E) hm H
    mvcgen [valueOf, hblock]
  | chain =>
    have hchain := chain_holds (E := E) hm H
    mvcgen [valueOf, hchain]
  | closure id captures p =>
    have hshare := shareAll_holds (E := E) hm H
    cases captures <;> mvcgen [valueOf, htick, hshare]

theorem evalWith_holds (e : Expr) : H.Keeps (evalWith m E e) := by
  have htick := @tick_holds σ H E
  have hvalue := valueOf_holds (E := E) hm H
  mvcgen [evalWith, htick, hvalue]

end

end Eval

end Lang
end ArmPilot
