import ArmPilot.Lang.Eval.Call
import ArmPilot.Proofs.Lang.Places
import ArmPilot.Proofs.Lang.Eval.Watch

/-!
# Calls keep watch

A call ends in a function of the script, in one that the evaluator brings along, or in one of the host.  Functions call
others in turn, by name or as a callback of an array or a map, so that the evaluator of nested code is taken to keep
watch (`Machine.Sound`).  A call hands its interruption to its caller as a result, which is why it settles
(`Watch.Settles`).
-/

open Std.Do

set_option mvcgen.warning false

namespace ArmPilot
namespace Lang

variable {σ : Type} {W : Watch σ}

/-- An evaluation can rely on a host that keeps watch and on functions whose assignments go to places. -/
structure Env.Sound (W : Watch σ) (env : Env σ) : Prop where
  host : W.Holds env.host
  routines : ∀ r ∈ env.routines, r.Placed

/-- The evaluator of nested code keeps watch. -/
structure Machine.Sound (W : Watch σ) (m : Machine σ) : Prop where
  eval : ∀ {env} {e : Expr}, env.Sound W → e.Placed → W.Keeps (m.eval env e)
  exec : ∀ {env} {s : Stmt}, env.Sound W → s.Placed → W.Keeps (m.exec env s)
  invoke : ∀ {env} {r : Routine}, env.Sound W → r.Placed → ∀ args this amongCaller p,
    W.Settles (m.invoke env r args this amongCaller p)
  native : ∀ {env name args p n}, env.Sound W → m.native env name args p = some n → W.Settles n.run

namespace Env.Sound

variable {env : Env σ} (h : env.Sound W)

include h

theorem within (level start : Nat) : Env.Sound W { env with level := level, blockStart := start } :=
  ⟨h.host, h.routines⟩

theorem closure? {id : Nat} {r : Routine} (hr : env.closure? id = some r) : r.Placed := by
  unfold Env.closure? at hr
  split at hr
  · exact h.routines r (Array.mem_of_getElem? (Option.filter_eq_some_iff.1 hr).1)
  · cases hr

theorem function? {on : Option Value} {name : String} {n : Nat} {r : Routine}
    (hr : env.function? on name n = some r) : r.Placed := by
  unfold Env.function? at hr
  split at hr
  · rename_i r' hr'
    cases hr
    obtain ⟨_, _, hfind⟩ := Option.bind_eq_some_iff.1 hr'
    exact h.routines r (Array.mem_of_find?_eq_some hfind)
  · exact h.routines r (Array.mem_of_find?_eq_some hr)

end Env.Sound

namespace Callback

variable {m : Machine σ} {env : Env σ} (hm : m.Sound W) (henv : env.Sound W) (f : Callback) (p : Place)

include hm henv

theorem target?_settles {w : Way} {act : Eval σ Called} (h : f.target? m env p w = some act) : W.Settles act := by
  have hin : Env.Sound W (within env) := henv.within _ _
  unfold target? at h
  dsimp only at h
  split at h
  · rename_i r hr
    split at h
    · obtain ⟨id, -, hid⟩ := Option.bind_eq_some_iff.1 hr
      cases h
      exact hm.invoke hin (henv.closure? hid) _ _ _ _
    · cases h
  · split at h
    · rename_i r hr
      cases h
      exact hm.invoke hin (henv.function? hr) _ _ _ _
    · obtain ⟨n, hn, rfl⟩ := Option.map_eq_some_iff.1 h
      have hrun := hm.native hin hn
      mvcgen [hrun]

theorem apply_settles (caller : String) (args : List Value) (item : Option Value) (moveTo : Option Nat)
    (extras : List Value) : W.Settles (f.apply m env caller args item moveTo extras p) := by
  have hflat := Eval.flat_keeps W
  have htarget {act : Eval σ Called} (h : (ways args item moveTo extras).findSome? (f.target? m env p) = some act) :
      W.Settles act := by
    obtain ⟨w, -, hw⟩ := List.exists_of_findSome?_eq_some h
    exact f.target?_settles hm henv p hw
  unfold apply
  dsimp only
  split
  · rename_i act hact
    have hrun := htarget hact
    mvcgen [hrun, hflat]
    all_goals simp_all +zetaDelta
  · mvcgen [hflat]

theorem ask_settles (caller : String) (i : Nat) (v : Value) : W.Settles (f.ask m env caller p i v) :=
  f.apply_settles hm henv p _ _ _ _ _

theorem judge_keeps (caller : String) (args : List Value) : W.Keeps (f.judge m env caller p args) := by
  have happly := f.apply_settles hm henv p
  mvcgen [judge, happly]

end Callback

theorem walk_yields {κ β : Type} {ask : β → κ → Value → Eval σ Called} (h : ∀ b k v, W.Settles (ask b k v))
    (use : β → κ → Value → Value → Bool × β) :
    ∀ done acc items, W.Yields (walk ask use done acc items) fun r => W.Behind r.ending
  | done, acc, [] => by
    mvcgen [walk]
  | done, acc, (k, v) :: rest => by
    have ih := fun done acc => walk_yields h use done acc rest
    mvcgen [walk, h, ih]
    all_goals simp_all

theorem divide_yields {κ : Type} {ask : κ → Value → Eval σ Called} (h : ∀ k v, W.Settles (ask k v))
    (items : List (κ × Value)) : W.Yields (divide ask items) fun d => W.Behind d.ending := by
  have hwalk := @walk_yields σ W κ (List (κ × Value) × List (κ × Value)) _ fun _ => h
  mvcgen [divide, hwalk]

/-! ## Functions -/

namespace Eval

variable {m : Machine σ} {env : Env σ}

theorem looking_settles {act : Eval σ Called} {n : Native σ} (h : W.Settles act) (hn : looking act = some n) :
    W.Settles n.run := by
  cases hn
  exact h

theorem changing_settles {act : Eval σ Called} {n : Native σ} (h : W.Settles act) (hn : changing act = some n) :
    W.Settles n.run := by
  cases hn
  exact h

theorem alongArray_settles {β : Type} {ask : Nat → Value → Eval σ Called} (h : ∀ i v, W.Settles (ask i v))
    (use : β → Nat → Value → Value → Bool × β) (answer : β → Value) (init : β) (vs : List Value) (start : Nat) :
    W.Settles (alongArray ask use answer init vs start) := by
  have hwalk := @walk_yields σ W Nat β _ (fun _ => h) use
  mvcgen [alongArray, hwalk]
  all_goals exact Watch.Behind.map ‹_›

section

variable (hm : m.Sound W) (henv : env.Sound W) (f : Callback) (p : Place)

include hm henv

theorem reduce_settles (caller : String) (backwards : Bool) (init : Value) (vs : List Value) :
    W.Settles (reduce m env caller f backwards init vs p) := by
  have happly := f.apply_settles hm henv p caller
  have hwalk := @walk_yields σ W Nat Value _ (fun acc i v => happly [acc] (some v) (some 1) [.int i])
  mvcgen [reduce, hwalk]
  all_goals exact Watch.Behind.map ‹_›

theorem zip_settles (vs ws : List Value) : W.Settles (zip m env f vs ws p) := by
  have happly := f.apply_settles hm henv p "zip"
  have hwalk := @walk_yields σ W (Nat × Value) (List Value) _
    (fun _ iw v => happly [iw.2] (some v) (some 0) [.int iw.1])
  mvcgen [zip, hwalk]
  all_goals exact Watch.Behind.map ‹_›

theorem sortWith_keeps (vs : List Value) : W.Keeps (sortWith m env f vs p) :=
  Invariant.keeps_sortWith (I := W.invariant) (f.judge_keeps hm henv p "sort") vs

theorem dedupWith_keeps (kept vs : List Value) : W.Keeps (dedupWith m env f p kept vs) :=
  Invariant.keeps_dedupWith (I := W.invariant) (f.judge_keeps hm henv p "dedup") kept vs

theorem arrayFunction?_settles {name : String} {vs rest : List Value} {n : Native σ}
    (h : arrayFunction? m env name vs f rest p = some n) : W.Settles n.run := by
  have hask := f.ask_settles hm henv p
  have happly := f.apply_settles hm henv p
  have hreduce := reduce_settles hm henv f p
  have hsort := sortWith_keeps hm henv f p
  have hdedup := dedupWith_keeps hm henv f p
  have hdivide := fun caller => @divide_yields σ W Nat _ (hask caller)
  unfold arrayFunction? at h
  dsimp only at h
  split at h
  all_goals first
    | cases h; done
    | with_reducible exact looking_settles (alongArray_settles (hask _) _ _ _ _ _) h
    | with_reducible exact looking_settles (hreduce _ _ _ _) h
    | with_reducible exact changing_settles (alongArray_settles (fun _ _ => happly _ _ _ _ _) _ _ _ _ _) h
    | (refine changing_settles ?_ h; mvcgen [hsort, hdedup, hdivide])
    | (refine looking_settles ?_ h; mvcgen [hsort])
  all_goals exact Watch.Behind.map ‹_›

theorem mapFunction?_settles {name : String} {ms : List (String × Value)} {n : Native σ}
    (h : mapFunction? m env name ms f p = some n) : W.Settles n.run := by
  have happly := f.apply_settles hm henv p name
  have hask := fun (k : String) v => happly [.string k] (some v) (some 1) []
  have hwalk := @walk_yields σ W String (List (String × Value)) _ fun _ => hask
  have hdivide := divide_yields hask
  unfold mapFunction? at h
  dsimp only at h
  split at h
  · refine looking_settles ?_ h
    mvcgen [hwalk]
    exact Watch.Behind.map ‹_›
  · refine looking_settles ?_ h
    mvcgen [hwalk]
    exact Watch.Behind.map ‹_›
  · refine changing_settles ?_ h
    mvcgen [hdivide]
    exact Watch.Behind.map ‹_›
  · refine changing_settles ?_ h
    mvcgen [hdivide]
    exact Watch.Behind.map ‹_›
  · cases h

omit f in
theorem callbackFunction?_settles {name : String} {args : List Value} {n : Native σ}
    (h : callbackFunction? m env name args p = some n) : W.Settles n.run := by
  unfold callbackFunction? at h
  split at h
  · exact arrayFunction?_settles hm henv _ p h
  · split at h
    · obtain ⟨n', hn', rfl⟩ := Option.map_eq_some_iff.1 h
      have hrun := arrayFunction?_settles hm henv _ p hn'
      split
      · exact hrun
      · mvcgen
    · cases h
  · split at h
    · exact looking_settles (zip_settles hm henv _ p _ _) h
    · cases h
  · exact mapFunction?_settles hm henv _ p h
  · cases h

omit m hm f in
theorem counted_settles {n : Native σ} (h : W.Settles n.run) : W.Settles (counted env p n).run := by
  have htick := attempt_yields (tick_keeps henv.host p)
  mvcgen [counted, htick, h]

omit m hm f henv in
theorem behind_ending (o : Outcome) {w : σ} (h : W.calm w) : W.Behind (ending env o p) w := by
  unfold ending
  split
  · exact h
  · split <;> exact h

omit m hm f henv in
theorem bounded_settles {n : Native σ} (h : W.Settles n.run) : W.Settles (bounded env p n).run := by
  mvcgen [bounded, h]
  exact Watch.Behind.bind ‹_› fun v hw => behind_ending p (.ok v) hw

omit m hm f henv in
theorem shown_settles {text : String} {show_ : String → σ → σ} {n : Native σ}
    (hshow : ∀ text {w}, W.calm w → W.calm (show_ text w)) (h : native?.shown env p text show_ = some n) :
    W.Settles n.run := by
  have hending := @behind_ending σ W env p (.ok (.string text))
  refine looking_settles ?_ h
  mvcgen
  · rename_i e he s hs
    exact he ▸ hending hs
  · exact hshow text ‹_›

omit f in
/-- Only here the host may break down, and the breakdown goes to the caller as it is. -/
theorem beyond_settles {name : String} {args : List Value} {n : Native σ}
    (h : native?.beyond m env p name args = some n) : W.Settles n.run := by
  have hending := fun o => @behind_ending σ W env p o
  unfold native?.beyond at h
  split at h
  · rename_i act hact
    refine looking_settles ?_ h
    have hcall := fun w => henv.host.call hact (w := w)
    mvcgen
    · rename_i s hs breakdown hr
      have hbroken := hcall s.outer hs
      rw [hr] at hbroken
      exact hbroken
    · rename_i s hs o hr
      have hcalm := hcall s.outer hs
      rw [hr] at hcalm
      exact hending o hcalm
  · split at h
    · exact shown_settles p henv.host.print h
    · exact shown_settles p henv.host.print h
    · exact shown_settles p (henv.host.debug p) h
    · exact shown_settles p (henv.host.debug p) h
    · split at h
      · rename_i n' hn'
        cases h
        exact bounded_settles p (callbackFunction?_settles hm henv p hn')
      · obtain ⟨a, -, rfl⟩ := Option.map_eq_some_iff.1 h
        mvcgen
        exact hending _ ‹_›

omit f in
theorem native?_settles {name : String} {args : List Value} {n : Native σ}
    (h : native? m env name args p = some n) : W.Settles n.run := by
  unfold native? at h
  split at h
  · refine looking_settles ?_ h
    mvcgen
  · refine looking_settles ?_ h
    mvcgen
  · obtain ⟨n', hn', rfl⟩ := Option.map_eq_some_iff.1 h
    exact counted_settles henv p (beyond_settles hm henv p hn')

omit f in
theorem callByName_settles (name : String) (args : List Value) (amongCaller : Bool) :
    W.Settles (callByName m env name args amongCaller p) := by
  unfold callByName
  split
  · rename_i r hr
    exact hm.invoke henv (henv.function? hr) _ _ _ _
  · split
    · rename_i n hn
      exact hm.native henv hn
    · mvcgen

omit f in
theorem runBody_keeps {stmts : List Stmt} (h : ∀ s ∈ stmts, s.Placed) : W.Keeps (invokeWith.runBody m env stmts) :=
  Invariant.keeps_runBody (I := W.invariant) fun s hs => hm.exec henv (h s hs)

omit f in
theorem invokeWith_settles {r : Routine} (hr : r.Placed) (args : List Value) (this : Option Subject)
    (amongCaller : Bool) : W.Settles (invokeWith m env r args this amongCaller p) := by
  have htick := tick_keeps henv.host p
  have henter : W.Keeps (invokeWith.enter env p) := by
    mvcgen [invokeWith.enter, htick, fail]
  have hbody := fun start => runBody_keeps hm (henv.within (env.level + 1) start) hr
  have henter' := attempt_yields henter
  have hbody' := fun start => attempt_yields (hbody start)
  mvcgen [invokeWith, henter', hbody']
  dsimp +zetaDelta only
  split
  · assumption
  · assumption
  · split <;> assumption
  · assumption

end

end Eval

end Lang
end ArmPilot
