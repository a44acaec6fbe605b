import ArmPilot.Proofs.Lang.Constants.Expression
import ArmPilot.Proofs.Lang.Eval.Statement

/-!
# Statements hold on to constants

Only a declaration adds a variable to those that a statement finds, so that a statement keeps every hold that its own
declaration keeps.  A whole script then keeps whatever the declarations outside of its blocks keep (`Program.eval_holds`).
-/

open Std.Do

set_option mvcgen.warning false

namespace ArmPilot
namespace Lang

variable {σ : Type}

namespace Eval

variable {m : Machine σ} {E : Env σ}

theorem rounds_holds {H : Hold σ} {round : Eval σ (Option Value)} (h : H.Keeps round) : ∀ n, H.Keeps (rounds round n)
  | 0 => by
    mvcgen [rounds]
  | n + 1 => by
    have ih := rounds_holds h n
    mvcgen [rounds, h, ih]

section

variable (hm : m.Steady) (H : Hold σ)

include hm

theorem bodyOf_holds (body : List Stmt) : H.Keeps (bodyOf m E body) := by
  have hblock := attempt_holds (block_holds (E := E) hm H body)
  mvcgen [bodyOf, hblock]

theorem chooseCase_holds : ∀ cases, H.Keeps (chooseCase m E cases)
  | [] => by
    mvcgen [chooseCase]
  | c :: rest => by
    have heval := hm.eval H E
    have hflat (v : Value) : H.Keeps (flat v) := (flat_holds v).forget
    have hbool := @asBool_holds σ H
    have ih := chooseCase_holds rest
    mvcgen [chooseCase, heval, hflat, hbool, ih]

/-- The variables of a loop are no constants, and stay none. -/
theorem forRounds_holds {names : List String} {name : String} (hname : name ∈ names) {counter : Option String}
    (hcounter : ∀ c, counter = some c → c ∈ names) (body : List Stmt) (p : Place) : ∀ fuel i walk,
    (H.varying names).Keeps (forRounds m E name counter body p fuel i walk)
  | 0, _, _ => by
    mvcgen [forRounds]
  | fuel + 1, i, walk => by
    have ih := forRounds_holds hname hcounter body p fuel
    have hflat (v : Value) : (H.varying names).Keeps (flat v) := (flat_holds v).forget
    have htick := tick_holds (H := H.varying names) (E := E)
    have hwrite := @writeVariable_spec σ
    have hbody := bodyOf_holds (E := E) hm (H.varying names) body
    mvcgen [forRounds, hflat, htick, hwrite, hbody, ih]
    · exact Hold.written_of_varying ‹_› (hcounter _ ‹_›) _
    · exact Hold.written_of_varying ‹_› hname _
    · exact Hold.written_of_varying ‹_› hname _

theorem assign_holds (op : Option Mark) (target value : Expr) (p : Place) :
    H.Keeps (assign m E op target value p) := by
  have heval := hm.eval H E
  have hflat (v : Value) : H.Keeps (flat v) := (flat_holds v).forget
  have htick := @tick_holds σ H E
  have hbinding := @binding_holds σ H E
  have hqualified := @readQualified_holds σ H
  have hwrite := @writeVariable_spec σ
  have hcheck := @check_holds σ H
  cases target with
  | var name bound vp =>
    mvcgen [assign, heval, flat, htick, hbinding, fail]
    · exact And.left ‹_›
    · rename_i b _ hvariable s hs
      have happly (w : Writing) (old : Value) := still_writable (H := H) (E := E)
        (fun H => writing_apply_holds (E := E) (H := H) w old) name bound b
      mvcgen [happly, hwrite, hcheck]
      · rename_i ht
        exact ht.2 (Bool.eq_false_of_not_eq_true hvariable) _
      · exact And.left ‹_›
  | this vp =>
    mvcgen [assign, heval, flat, fail]
    rename_i s hs _ subject hthis _ hvariable
    have hreadOnly : subject.readOnly = false := Bool.eq_false_of_not_eq_true hvariable
    have happly := writing_apply_holds (E := E) (H := H.since s)
    mvcgen [happly, hcheck]
    · exact Hold.since_self hs
    · rename_i _ ht _
      exact H.keeps ht.1 (ht.2.this_written (H.fits hs) hthis (by rw [hreadOnly]; rfl))
    · exact Hold.of_since ‹_›
    · exact Hold.of_since
  | qualified path name p q => mvcgen [assign, heval, hflat, htick, hqualified, fail]
  | chain root links =>
    have hchain := chain_holds (E := E) hm H
    mvcgen [assign, heval, hflat, hchain]
  | _ => mvcgen [assign, heval, hflat]

/-- A statement keeps every hold that its own declaration keeps. -/
theorem execWith_holds {s : Stmt} (h : H.Admits E.blockStart s) : H.Keeps (execWith m E s) := by
  have htick := @tick_holds σ H E
  have hflat (v : Value) : H.Keeps (flat v) := (flat_holds v).forget
  have hbool := @asBool_holds σ H
  have heval := hm.eval H E
  have hblock := block_holds (E := E) hm H
  have hblock' := fun stmts => attempt_holds (hblock stmts)
  have hrounds := @rounds_holds σ H
  cases s with
  | noop => mvcgen [execWith, htick]
  | expr e =>
    have hvalue := valueOf_holds (E := E) hm H
    mvcgen [execWith, htick, heval, hvalue, hflat]
  | assign =>
    have hassign := assign_holds (E := E) hm H
    mvcgen [execWith, htick, hassign]
  | declare name value readOnly replaces p =>
    have hflat' := @flat_holds σ H
    mvcgen [execWith, htick, heval, hflat']
    rename_i s hs _
    exact h name rfl readOnly replaces hs.1 hs.2.1
  | block => mvcgen [execWith, htick, hblock]
  | ifElse => mvcgen [execWith, htick, heval, hflat, hbool, hblock]
  | switch value cases p =>
    have hchoose := chooseCase_holds (E := E) hm H
    mvcgen [execWith, htick, heval, hflat, hchoose]
  | repeatWhile cond body p q =>
    have hbody := bodyOf_holds (E := E) hm H
    cases cond with
    | none =>
      mvcgen [execWith, htick, hrounds]
      all_goals mvcgen [htick, hbody]
    | some e =>
      mvcgen [execWith, htick, hrounds]
      mvcgen [heval, hflat, hbool, hbody]
  | doWhile body cond negated p q =>
    mvcgen [execWith, htick, hrounds]
    mvcgen [hblock', heval, hflat, hbool]
  | forIn name counter source body p q =>
    have hscope := @withScope_holds σ Value H
    have hfor (s : Store σ) {names : List String} (hname : name ∈ names)
        (hcounter : ∀ c, counter = some c → c ∈ names) (fuel i : Nat) (walk : Walk) :=
      Hold.of_varying (forRounds_holds (E := E) hm (Hold.above s) hname hcounter body p fuel i walk)
    mvcgen [execWith, htick, heval, hflat, hscope, fail]
    -- the variables of the loop lie above those that there were before it
    · rename_i c hc s hs _ _
      have hs := Hold.varying_push (v := .unit) (Hold.varying_push (v := .unit) (Hold.varying_nil hs) c rfl) name rfl
      exact hfor _ (by simp) (by simp [hc]) _ _ _ _ hs
    · rename_i hnone hc s hs _
      have hs := Hold.varying_push (v := .unit) (Hold.varying_nil hs) name rfl
      exact hfor _ (by simp) (fun c h => (hnone c (hc ▸ h)).elim) _ _ _ _ hs
  | leave => mvcgen [execWith, htick, heval, hflat]
  | giveBack => mvcgen [execWith, htick, heval, hflat, fail]
  | tryCatch body name handler p =>
    have hhandler := @blockHere_holds σ m E hm
    have hscope := @withScope_holds σ Value H
    have hattempt := @attempt_holds σ Value H
    mvcgen [execWith, htick, hattempt, hscope]
    · exact hblock body
    · rename_i x _ s hs _
      exact hhandler _ _ _ (Hold.declare_above hs le_rfl x (hs.1.scope.isShared_flat _) false false)
    · exact hhandler _ handler

end

end Eval

/-- The evaluator keeps every hold, however deep code is nested. -/
theorem machine_steady : ∀ depth, (machine σ depth).Steady
  | 0 =>
    { eval := fun _ _ _ => by mvcgen [machine]
      exec := fun _ {_ _} _ => by mvcgen [machine]
      invoke := fun _ _ _ _ {_} _ _ _ => by mvcgen [machine]
      native := fun H {_ _ _ _ _} hn => by
        cases hn
        mvcgen [Hold.SparesFirst] }
  | depth + 1 =>
    have ih := machine_steady depth
    { eval := fun H E e => Eval.evalWith_holds ih H e
      exec := fun H {_ _} h => Eval.execWith_holds ih H h
      invoke := fun H E r args {_} amongCaller p h => Eval.invokeWith_holds ih H r args amongCaller p h
      native := fun H {_ _ _ p _} h => Eval.native?_holds ih H p h }

namespace Eval

variable {m : Machine σ} {E : Env σ}

theorem publish_holds (H : Hold σ) (s : Stmt) : H.Keeps (publish E s) := by
  have hread := @readVariable_holds σ H E
  mvcgen [publish, hread]
  exact Hold.elsewhere ‹_› _ _ _

theorem topLevel_holds (hm : m.Steady) {H : Hold σ} :
    ∀ {stmts : List Stmt}, (∀ s ∈ stmts, H.Admits E.blockStart s) → H.Keeps (topLevel m E stmts)
  | [], _ => by
    mvcgen [topLevel]
  | [s], h => hm.exec H (h s List.mem_cons_self)
  | s :: t :: rest, h => by
    have hexec := hm.exec H (h s List.mem_cons_self)
    have hpublish := @publish_holds σ E H
    have hnext : ∀ u ∈ t :: rest, H.Admits E.blockStart u := fun u hu => h u (List.mem_cons_of_mem s hu)
    have ih := topLevel_holds hm hnext
    mvcgen [topLevel, hexec, hpublish, ih]

end Eval

/-- A script keeps whatever the declarations outside of its blocks keep. -/
theorem Program.eval_holds {H : Hold σ} {p : Program} (h : ∀ start, ∀ s ∈ p.body, H.Admits start s) (host : Host σ)
    (limits : Limits) (depth : Nat) :
    ⦃fun s => ⌜H.holds { s with this := none }⌝⦄ p.eval host limits depth
    ⦃post⟨fun _ s => ⌜H.holds s⌝, fun _ s => ⌜H.holds s⌝⟩⦄ := by
  have htop (start : Nat) := Eval.attempt_holds (Eval.topLevel_holds
    (E := ⟨host, limits, p.first, p.routines.toArray, 0, start⟩) (machine_steady depth) (h start))
  have hflat (v : Value) : H.Keeps (Eval.flat v) := (Eval.flat_holds v).forget
  mvcgen [Program.eval, htop, hflat]
  exact Hold.elsewhere ‹_› _ _ _

end Lang
end ArmPilot
