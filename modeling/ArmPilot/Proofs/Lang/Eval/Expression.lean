import ArmPilot.Lang.Eval.Expression
import ArmPilot.Proofs.Lang.Eval.Call

/-!
# Expressions keep watch

An expression changes the state outside by what it calls alone.  What is written through a chain of members is put back
along the chain, and an interruption on the way is set aside meanwhile: it has left the state as it was (`Watch.Behind`).
-/

open Std.Do

set_option mvcgen.warning false

namespace ArmPilot
namespace Lang
namespace Eval

variable {σ : Type} {W : Watch σ} {m : Machine σ} {env : Env σ}

theorem writing_apply_keeps (henv : env.Sound W) (w : Writing) (old : Value) : W.Keeps (w.apply env old) :=
  Invariant.keeps_apply (I := W.invariant) (tick_keeps henv.host) w old

theorem behind_stored (s : Stored) (w : Writing) (bounded : Value) (base : Option Value) {o : σ} (h : W.calm o) :
    W.Behind (s.ending env w bounded base).1 o := by
  unfold Stored.ending
  split <;> exact h

section

variable (hm : m.Sound W) (henv : env.Sound W)

include hm henv

theorem arguments_keeps {es : List Expr} (h : ∀ e ∈ es, e.Placed) : W.Keeps (arguments m env es) :=
  Invariant.keeps_arguments (I := W.invariant) fun e he => hm.eval henv (h e he)

theorem hops_keeps {links : List Link} (h : ∀ l ∈ links, l.Placed) : W.Keeps (hops m env links) := by
  refine Invariant.keeps_hops (I := W.invariant) (tick_keeps henv.host) fun l hl => ?_
  have hflat := flat_keeps W
  cases h l hl with
  | property => mvcgen [hop]
  | method hargs =>
    have hargs' := arguments_keeps hm henv hargs
    mvcgen [hop, hargs']
  | index hi =>
    have heval := hm.eval henv hi
    mvcgen [hop, heval, hflat]

omit hm in
theorem writeMember_settles (ms : List (String × Value)) (key : String) (w : Writing)
    (bounded : Value → Value → Value) : W.Settles (writeMember env ms key w bounded) := by
  have htick := tick_keeps henv.host
  have happly := writing_apply_keeps henv
  mvcgen [writeMember, htick, happly]
  all_goals exact behind_stored _ _ _ _ ‹_›

omit hm in
theorem writeProperty_settles (base : Value) (name : String) (p : Place) (w : Writing) :
    W.Settles (writeProperty env base name p w) := by
  have hmember := fun ms => writeMember_settles henv ms
  mvcgen [writeProperty, hmember]

omit hm in
theorem writeItem_settles (base i : Value) (p q : Place) (w : Writing) :
    W.Settles (writeItem env base i p q w) := by
  have hmember := fun ms => writeMember_settles henv ms
  have htick := tick_keeps henv.host
  have happly := writing_apply_keeps henv
  mvcgen [writeItem, hmember, htick, happly]
  all_goals exact behind_stored _ _ _ _ ‹_›

omit hm in
theorem placed_methodRoutine {f : Callback} {base : Value} {n : Nat} {r : Routine}
    (h : methodRoutine? env f base n = some r) : r.Placed := by
  unfold methodRoutine? at h
  split at h
  · rename_i r' hr
    obtain ⟨id, -, hid⟩ := Option.bind_eq_some_iff.1 hr
    split at h
    · cases h
      exact henv.closure? hid
    · cases h
  · exact henv.function? h

theorem callMethod_settles (readOnly : Bool) (base : Value) (name : String) (args : List Value) (p : Place) :
    W.Settles (callMethod m env readOnly base name args p) := by
  unfold callMethod
  dsimp only
  split
  · rename_i r hr
    exact hm.invoke henv (placed_methodRoutine henv hr) _ _ _ _
  · split
    · mvcgen
    · rename_i n hn
      have hrun := hm.native henv hn
      mvcgen [hrun]
      all_goals simp_all

theorem follow_settles (readOnly : Bool) (w : Option Writing) :
    ∀ hops root, W.Settles (follow m env readOnly w hops root)
  | [], v => by
    have hflat := flat_keeps W
    mvcgen [follow, hflat]
  | hop :: rest, root => by
    have hflat := flat_keeps W
    have htick := tick_keeps henv.host
    have hmethod := callMethod_settles hm henv
    have hproperty := writeProperty_settles henv
    have hitem := writeItem_settles henv
    have ih := fun readOnly => follow_settles readOnly w rest
    cases hop with
    | property name optional p =>
      unfold follow
      mvcgen [hflat, htick, hproperty]
      all_goals subst_vars
      all_goals mvcgen [ih]
    | method name args optional p =>
      unfold follow
      cases rest with
      | nil =>
        mvcgen [hflat, hmethod]
        all_goals simp_all
      | cons next more =>
        mvcgen [hflat, hmethod, ih]
        all_goals simp_all
    | index i optional p q =>
      unfold follow
      mvcgen [hflat, htick, hitem]
      all_goals subst_vars
      all_goals mvcgen [ih]

theorem chain_keeps {root : Expr} {links : List Link} (hr : root.Placed) (hl : ∀ l ∈ links, l.Placed)
    (w : Option Writing) : W.Keeps (chain m env root links w) := by
  have hhops := hops_keeps hm henv hl
  have htick := tick_keeps henv.host
  have hbinding := binding_keeps W env
  have hqualified := readQualified_keeps W
  have hfollow := follow_settles hm henv
  have hresume := @resume_keeps σ Value W
  have hwrite := @writeVariable_spec σ
  have heval := hm.eval henv hr
  cases root <;> mvcgen [chain, hhops, htick, hbinding, hqualified, hfollow, hresume, hwrite, fail, heval]
  rwa [outer_written]

/-- A call in which a constant is changed fails, unless it breaks down. -/
theorem call_keeps (name : String) {args : List Expr} (h : ∀ e ∈ args, e.Placed) (amongCaller : Bool) (p : Place) :
    W.Keeps (call m env name args amongCaller p) := by
  have htick := tick_keeps henv.host
  have hbinding := binding_keeps W env
  have hflat := flat_keeps W
  have hcall := callByName_settles hm henv
  have hresume := @resume_keeps σ Value W
  have hwrite := @writeVariable_spec σ
  have hsize := checkSize_keeps W env
  unfold call
  split
  · have hargs := arguments_keeps hm henv fun d hd => h d (List.mem_cons_of_mem _ hd)
    mvcgen [hargs, htick, hbinding, hflat, hcall, hresume, hwrite, hsize]
    rwa [outer_written]
  · have hargs := arguments_keeps hm henv fun d hd => h d (List.mem_cons_of_mem _ hd)
    mvcgen [hargs, htick, hcall, hresume, fail]
    · simp_all
    · rename_i hpanic hr s hs
      exact hs.calm (hr ▸ hpanic)
  · have hargs := arguments_keeps hm henv h
    mvcgen [hargs, hcall, hresume]

theorem blockHere_keeps {stmts : List Stmt} (h : ∀ s ∈ stmts, s.Placed) : W.Keeps (blockHere m env stmts) := by
  have hstatements (start : Nat) : W.Keeps (statements m { env with blockStart := start } stmts) :=
    Invariant.keeps_statements (I := W.invariant) fun s hs => hm.exec (henv.within env.level start) (h s hs)
  mvcgen [blockHere, hstatements]

theorem block_keeps {stmts : List Stmt} (h : ∀ s ∈ stmts, s.Placed) : W.Keeps (block m env stmts) := by
  unfold block
  split
  · mvcgen
  · exact withScope_keeps (blockHere_keeps hm henv h)

theorem valueOf_keeps {e : Expr} (h : e.Placed) : W.Keeps (valueOf m env e) := by
  have hflat := flat_keeps W
  have htick := tick_keeps henv.host
  have hvariable := readVariable_keeps W env
  have hqualified := readQualified_keeps W
  have houtcome := ofOutcome_keeps W
  have hsize := checkSize_keeps W env
  have hbool := asBool_keeps W
  cases h with
  | const => mvcgen [valueOf]
  | text hparts =>
    have htext := Invariant.keeps_textOf (I := W.invariant) htick fun e he => hm.eval henv (hparts e he)
    mvcgen [valueOf, htext]
  | array hitems =>
    have hitems' := Invariant.keeps_items (I := W.invariant) fun e he => hm.eval henv (hitems e he)
    mvcgen [valueOf, hitems']
  | map hmembers =>
    have hmembers' := Invariant.keeps_members (I := W.invariant) fun e he => hm.eval henv (hmembers e he)
    mvcgen [valueOf, hmembers']
  | var => mvcgen [valueOf, hvariable]
  | qualified => mvcgen [valueOf, hqualified]
  | this => mvcgen [valueOf, hflat, fail]
  | @call name op args p hargs =>
    cases op with
    | none => exact call_keeps hm henv _ hargs _ _
    | some op =>
      rcases args with _ | ⟨l, _ | ⟨r, _ | ⟨_, _⟩⟩⟩
      · exact call_keeps hm henv _ hargs _ _
      · have hl := hm.eval henv (hargs l (List.mem_singleton_self l))
        mvcgen [valueOf, hl, hflat, htick, houtcome, fail]
      · have hl := hm.eval henv (hargs l List.mem_cons_self)
        have hr := hm.eval henv (hargs r (List.mem_cons_of_mem l (List.mem_singleton_self r)))
        mvcgen [valueOf, hl, hr, hflat, htick, houtcome, hsize, fail]
      · exact call_keeps hm henv _ hargs _ _
  | scopedCall hargs =>
    have hcall := call_keeps hm henv (h := hargs)
    mvcgen [valueOf, hcall]
  | @moduleCall path name args p q hargs =>
    have hargs' := arguments_keeps hm henv hargs
    cases args with
    | nil => mvcgen [valueOf, hargs', fail]
    | cons e rest =>
      have hrest := arguments_keeps hm henv fun d hd => hargs d (List.mem_cons_of_mem e hd)
      cases e <;> mvcgen [valueOf, hargs', hrest, hvariable, fail]
  | and hl hr =>
    have hl' := hm.eval henv hl
    have hr' := hm.eval henv hr
    mvcgen [valueOf, hl', hr', hflat, hbool]
  | or hl hr =>
    have hl' := hm.eval henv hl
    have hr' := hm.eval henv hr
    mvcgen [valueOf, hl', hr', hflat, hbool]
  | coalesce hl hr =>
    have hl' := hm.eval henv hl
    have hr' := hm.eval henv hr
    mvcgen [valueOf, hl', hr', hflat]
  | block hstmts =>
    have hblock := block_keeps hm henv hstmts
    mvcgen [valueOf, hblock]
  | chain hr hl =>
    have hchain := chain_keeps hm henv hr hl
    mvcgen [valueOf, hchain]
  | @closure id captures p hcaptures =>
    have hshare := Invariant.keeps_shareAll (I := W.invariant) htick
      (fun _ => Invariant.keeps_share fun _ _ hs _ _ => hs) fun e he => hm.eval henv (hcaptures e he)
    cases captures <;> mvcgen [valueOf, htick, hshare]

theorem evalWith_keeps {e : Expr} (h : e.Placed) : W.Keeps (evalWith m env e) := by
  have htick := tick_keeps henv.host
  have hvalue := valueOf_keeps hm henv h
  mvcgen [evalWith, htick, hvalue]

end

end Eval
end Lang
end ArmPilot
