import ArmPilot.Lang.Eval.Statement
import ArmPilot.Proofs.Lang.Eval.Expression

/-!
# Statements keep watch

A loop keeps watch by induction on its rounds, and the evaluator as a whole by induction on how deep code is nested
(`machine_sound`).  A breakdown passes through every `try`, so that a script keeps watch from its first statement to its
last (`Program.eval_keeps`).
-/

open Std.Do

set_option mvcgen.warning false

namespace ArmPilot
namespace Lang

variable {σ : Type} {W : Watch σ}

namespace Eval

variable {m : Machine σ} {env : Env σ}

theorem rounds_keeps {round : Eval σ (Option Value)} (h : W.Keeps round) (n : Nat) : W.Keeps (rounds round n) :=
  Invariant.keeps_rounds (I := W.invariant) h n

section

variable (hm : m.Sound W) (henv : env.Sound W)

include hm henv

theorem bodyOf_keeps {body : List Stmt} (h : ∀ s ∈ body, s.Placed) : W.Keeps (bodyOf m env body) := by
  have hblock := attempt_yields (block_keeps hm henv h)
  mvcgen [bodyOf, hblock]

theorem chooseCase_yields : ∀ {cases : List Case}, (∀ c ∈ cases, c.Placed) →
    W.Yields (chooseCase m env cases) fun c w => W.calm w ∧ ∀ d ∈ c, d.Placed
  | [], _ => by
    mvcgen [chooseCase]
    exact ⟨‹_›, by simp⟩
  | c :: rest, h => by
    have hc := h c List.mem_cons_self
    have heval := fun e he => hm.eval henv (hc.condition e he)
    have hflat := flat_keeps W
    have hbool := asBool_keeps W
    have ih := chooseCase_yields fun d hd => h d (List.mem_cons_of_mem c hd)
    mvcgen [chooseCase, heval, hflat, hbool, ih]
    all_goals simp_all

theorem forRounds_keeps (name : String) (counter : Option String) {body : List Stmt} (h : ∀ s ∈ body, s.Placed)
    (p : Place) : ∀ fuel i walk, W.Keeps (forRounds m env name counter body p fuel i walk)
  | 0, _, _ => by
    mvcgen [forRounds]
  | fuel + 1, _, _ => by
    have hflat := flat_keeps W
    have htick := tick_keeps henv.host
    have hwrite := @writeVariable_spec σ
    have hbody := bodyOf_keeps hm henv h
    have ih := forRounds_keeps name counter h p fuel
    mvcgen [forRounds, hflat, htick, hwrite, hbody, ih]
    all_goals rwa [outer_written]

theorem assign_keeps (op : Option Mark) {target value : Expr} (hp : target.IsPlace) (ht : target.Placed)
    (hv : value.Placed) (p : Place) : W.Keeps (assign m env op target value p) := by
  have heval := hm.eval henv hv
  have hflat := flat_keeps W
  have htick := tick_keeps henv.host
  have hbinding := binding_keeps W env
  have hqualified := readQualified_keeps W
  have hwrite := @writeVariable_spec σ
  have happly := writing_apply_keeps henv
  have hcheck (s : Stored) : W.Keeps s.check := Invariant.keeps_check (I := W.invariant) s
  cases ht with
  | var =>
    mvcgen [assign, heval, hflat, htick, hbinding, happly, hwrite, hcheck, fail]
    rwa [outer_written]
  | this =>
    mvcgen [assign, heval, hflat, happly, hcheck, fail]
  | qualified =>
    mvcgen [assign, heval, hflat, htick, hqualified, fail]
  | chain hr hl =>
    have hchain := chain_keeps hm henv hr hl
    mvcgen [assign, heval, hflat, hchain]
  | _ => exact hp.elim

theorem execWith_keeps {s : Stmt} (h : s.Placed) : W.Keeps (execWith m env s) := by
  have htick := tick_keeps henv.host
  have hflat := flat_keeps W
  have hbool := asBool_keeps W
  cases h with
  | noop => mvcgen [execWith, htick]
  | expr he =>
    have heval := hm.eval henv he
    have hvalue := valueOf_keeps hm henv he
    mvcgen [execWith, htick, heval, hvalue, hflat]
  | assign hp ht hv =>
    have hassign := fun op => assign_keeps hm henv op hp ht hv
    mvcgen [execWith, htick, hassign]
  | declare hv =>
    have heval := hm.eval henv hv
    mvcgen [execWith, htick, heval, hflat]
  | block hb =>
    have hblock := block_keeps hm henv hb
    mvcgen [execWith, htick, hblock]
  | ifElse hc ht he =>
    have heval := hm.eval henv hc
    have hthen := block_keeps hm henv ht
    have helse := block_keeps hm henv he
    mvcgen [execWith, htick, heval, hflat, hbool, hthen, helse]
  | @switch value cases p hv hc =>
    have heval := hm.eval henv hv
    have hconsidered (v : Value) : ∀ c ∈ Case.considered v cases, c.Placed := fun c h => hc c (Case.mem_of_considered h)
    have hchoose := fun v => chooseCase_yields hm henv (hconsidered v)
    have haction := fun (c : Case) (h : c.Placed) => hm.eval henv h.action
    mvcgen [execWith, htick, heval, hflat, hchoose, haction]
    · simp_all
    · rename_i chosen c hor
      intro s _ hchosen
      obtain h | ⟨-, h⟩ := Option.or_eq_some_iff.1 hor
      · exact hchosen c h
      · exact hc c (List.mem_of_find?_eq_some h)
    · simp_all
  | @repeatWhile cond body p q hc hb =>
    have hbody := bodyOf_keeps hm henv hb
    have hrounds := @rounds_keeps σ W
    cases cond with
    | none =>
      mvcgen [execWith, htick, hrounds]
      mvcgen [htick, hbody]
      mvcgen [hbody]
    | some e =>
      have heval := hm.eval henv (hc e rfl)
      mvcgen [execWith, htick, hrounds]
      mvcgen [heval, hflat, hbool, hbody]
  | doWhile hb hc =>
    have heval := hm.eval henv hc
    have hblock := attempt_yields (block_keeps hm henv hb)
    have hrounds := @rounds_keeps σ W
    mvcgen [execWith, htick, hrounds]
    mvcgen [hblock, heval, hflat, hbool]
  | forIn hs hb =>
    have heval := hm.eval henv hs
    have hrounds := forRounds_keeps hm henv (h := hb)
    have hscope := @withScope_keeps σ
    mvcgen [execWith, htick, heval, hflat, hscope, fail]
    all_goals mvcgen [hrounds]
  | leave hv =>
    have heval := fun e he => hm.eval henv (hv e he)
    mvcgen [execWith, htick, heval, hflat]
  | giveBack hv =>
    have heval := fun e he => hm.eval henv (hv e he)
    mvcgen [execWith, htick, heval, hflat, fail]
  | @tryCatch body name handler p hb hh =>
    have hblock := block_keeps hm henv hb
    have hhandler := blockHere_keeps hm henv hh
    have hattempt := @attempt_yields σ Value W
    mvcgen [execWith, htick, hattempt]
    exact withScope_keeps (by cases name <;> mvcgen [hhandler])

end

end Eval

/-- The evaluator keeps watch, however deep code is nested. -/
theorem machine_sound (W : Watch σ) : ∀ depth, (machine σ depth).Sound W
  | 0 =>
    { eval := fun _ _ => by mvcgen [machine]
      exec := fun _ _ => by mvcgen [machine]
      invoke := fun _ _ _ _ _ _ => by mvcgen [machine]
      native := fun {_ _ _ _ n} _ hn => by
        cases hn
        mvcgen }
  | depth + 1 =>
    have ih := machine_sound W depth
    { eval := fun henv he => Eval.evalWith_keeps ih henv he
      exec := fun henv hs => Eval.execWith_keeps ih henv hs
      invoke := fun henv hr args this amongCaller p => Eval.invokeWith_settles ih henv p hr args this amongCaller
      native := fun henv hn => Eval.native?_settles ih henv _ hn }

namespace Eval

variable {m : Machine σ} {env : Env σ}

theorem publish_keeps (s : Stmt) : W.Keeps (publish env s) := by
  have hread := readVariable_keeps W env
  mvcgen [publish, hread]

theorem topLevel_keeps (hm : m.Sound W) (henv : env.Sound W) :
    ∀ {stmts : List Stmt}, (∀ s ∈ stmts, s.Placed) → W.Keeps (topLevel m env stmts)
  | [], _ => by
    mvcgen [topLevel]
  | [s], h => hm.exec henv (h s (List.mem_singleton_self s))
  | s :: t :: rest, h => by
    have hexec := hm.exec henv (h s List.mem_cons_self)
    have hpublish := @publish_keeps σ W env
    have hnext : ∀ u ∈ t :: rest, u.Placed := fun u hu => h u (List.mem_cons_of_mem s hu)
    have ih := topLevel_keeps hm henv hnext
    mvcgen [topLevel, hexec, hpublish, ih]

end Eval

/-- A script keeps watch if the host does and all of its assignments go to places. -/
theorem Program.eval_keeps {host : Host σ} (hh : W.Holds host) {p : Program} (hp : p.Placed) (limits : Limits)
    (depth : Nat) : W.Keeps (p.eval host limits depth) := by
  have henv (start : Nat) : Env.Sound W ⟨host, limits, p.first, p.routines.toArray, 0, start⟩ :=
    ⟨hh, by simpa using hp.routines⟩
  have htop := fun start => Eval.attempt_yields (Eval.topLevel_keeps (machine_sound W depth) (henv start) hp.body)
  have hflat := Eval.flat_keeps W
  mvcgen [Program.eval, htop, hflat]

end Lang
end ArmPilot
