import ArmPilot.Proofs.Lang.Tied.Basic

/-!
# Calls side by side

A call of a function by a built-in one does the same with tied hosts, and so does the built-in function.  Functions call
others in turn: the evaluators of nested code are taken to be tied (`Machine.Tied`).
-/

namespace ArmPilot
namespace Lang

variable {σ τ α : Type} {R : σ → τ → Prop}

/-- Whether two evaluators of nested code do the same with tied hosts. -/
structure Machine.Tied (R : σ → τ → Prop) (m : Machine σ) (l : Machine τ) : Prop where
  eval : ∀ {env k}, env.host.Tied R k → ∀ e, Eval.Tied R (m.eval env e) (l.eval (env.withHost k) e)
  exec : ∀ {env k}, env.host.Tied R k → ∀ s, Eval.Tied R (m.exec env s) (l.exec (env.withHost k) s)
  invoke : ∀ {env k}, env.host.Tied R k → ∀ r args this amongCaller p,
    Eval.Tied R (m.invoke env r args this amongCaller p) (l.invoke (env.withHost k) r args this amongCaller p)
  native : ∀ {env k}, env.host.Tied R k → ∀ name args p,
    Option.Rel (Native.Tied R) (m.native env name args p) (l.native (env.withHost k) name args p)

/-- What is made of tied options in the same way is tied. -/
theorem rel_map {α β γ δ : Type} {r : α → β → Prop} {q : γ → δ → Prop} {a : Option α} {b : Option β} {f : α → γ}
    {g : β → δ} (h : Option.Rel r a b) (hf : ∀ x y, r x y → q (f x) (g y)) : Option.Rel q (a.map f) (b.map g) := by
  cases h with
  | some h => exact .some (hf _ _ h)
  | none => exact .none

/-- The first of tied options that is there is tied. -/
theorem rel_findSome? {α β γ : Type} {r : β → γ → Prop} {f : α → Option β} {g : α → Option γ}
    (h : ∀ a, Option.Rel r (f a) (g a)) : ∀ as : List α, Option.Rel r (as.findSome? f) (as.findSome? g)
  | [] => .none
  | a :: as => by
    have ha := h a
    rw [List.findSome?_cons, List.findSome?_cons]
    generalize f a = b, g a = c at ha
    cases ha with
    | some h => exact .some h
    | none => exact rel_findSome? h as

namespace Callback

variable {m : Machine σ} {l : Machine τ} (hm : m.Tied R l) {env : Env σ} {k : Host τ} (hk : env.host.Tied R k)
  (f : Callback) (p : Place)

include hm hk

theorem target?_tied (w : Way) :
    Option.Rel (Eval.Tied R) (f.target? m env p w) (f.target? l (env.withHost k) p w) := by
  have hin : (within env).host.Tied R k := hk
  unfold target?
  dsimp only
  simp only [Env.closure?_withHost, Env.function?_withHost]
  split
  · split
    · exact .some (hm.invoke hin _ _ _ _ _)
    · exact .none
  · split
    · exact .some (hm.invoke hin _ _ _ _ _)
    · exact rel_map (hm.native hin _ _ _) fun n n' h => h.run.bind fun _ => .pure _

theorem apply_tied (caller : String) (args : List Value) (item : Option Value) (moveTo : Option Nat)
    (extras : List Value) :
    Eval.Tied R (f.apply m env caller args item moveTo extras p)
      (f.apply l (env.withHost k) caller args item moveTo extras p) := by
  have hfind := rel_findSome? (f.target?_tied hm hk p) (ways args item moveTo extras)
  unfold apply
  refine Eval.get_tied fun s w _ => ?_
  dsimp only
  generalize (ways args item moveTo extras).findSome? (f.target? m env p) = x,
    (ways args item moveTo extras).findSome? (f.target? l (env.withHost k) p) = y at hfind
  refine .bind ?_ fun r => .bind ?_ fun _ => ?_
  · cases hfind with
    | some h => exact h
    | none => exact .pure _
  · exact Eval.modify_tied (fun w => w) fun s w hw => ⟨hw, rfl⟩
  · split
    · exact (Eval.flat_tied _).bind fun _ => .pure _
    · exact .pure _
    · exact .pure _

theorem ask_tied (caller : String) (i : Nat) (v : Value) :
    Eval.Tied R (f.ask m env caller p i v) (f.ask l (env.withHost k) caller p i v) :=
  apply_tied hm hk f p _ _ _ _ _

theorem judge_tied (caller : String) (args : List Value) :
    Eval.Tied R (f.judge m env caller p args) (f.judge l (env.withHost k) caller p args) := by
  refine (apply_tied hm hk f p _ _ _ _ _).bind fun r => ?_
  split
  · exact .pure _
  · exact .pure _
  · exact .throw _

end Callback

theorem walk_tied {κ β : Type} {ask : β → κ → Value → Eval σ Called} {ask' : β → κ → Value → Eval τ Called}
    (h : ∀ b i v, Eval.Tied R (ask b i v) (ask' b i v)) (use : β → κ → Value → Value → Bool × β) :
    ∀ done acc items, Eval.Tied R (walk ask use done acc items) (walk ask' use done acc items)
  | _, _, [] => .pure _
  | done, acc, (i, v) :: rest => by
    refine (h acc i v).bind fun r => ?_
    dsimp only
    split
    · exact .pure _
    · exact .ite (fun _ => walk_tied h use _ _ rest) fun _ => .pure _

theorem divide_tied {κ : Type} {ask : κ → Value → Eval σ Called} {ask' : κ → Value → Eval τ Called}
    (h : ∀ i v, Eval.Tied R (ask i v) (ask' i v)) (items : List (κ × Value)) :
    Eval.Tied R (divide ask items) (divide ask' items) :=
  (walk_tied (fun _ => h) _ _ _ _).bind fun _ => .pure _

/-! ## Functions -/

namespace Eval

theorem looking_tied {x : Eval σ Called} {y : Eval τ Called} (h : Tied R x y) :
    Option.Rel (Native.Tied R) (looking x) (looking y) := .some ⟨rfl, h⟩

theorem changing_tied {x : Eval σ Called} {y : Eval τ Called} (h : Tied R x y) :
    Option.Rel (Native.Tied R) (changing x) (changing y) := .some ⟨rfl, h⟩

theorem alongArray_tied {β : Type} {ask : Nat → Value → Eval σ Called} {ask' : Nat → Value → Eval τ Called}
    (h : ∀ i v, Tied R (ask i v) (ask' i v)) (use : β → Nat → Value → Value → Bool × β) (answer : β → Value) (init : β)
    (vs : List Value) (start : Nat) :
    Tied R (alongArray ask use answer init vs start) (alongArray ask' use answer init vs start) :=
  (walk_tied (fun _ => h) _ _ _ _).bind fun _ => .pure _

variable {m : Machine σ} {l : Machine τ} {env : Env σ} {k : Host τ}

section

variable (hm : m.Tied R l) (hk : env.host.Tied R k) (f : Callback) (p : Place)

include hm hk

theorem reduce_tied (caller : String) (backwards : Bool) (init : Value) (vs : List Value) :
    Tied R (reduce m env caller f backwards init vs p) (reduce l (env.withHost k) caller f backwards init vs p) :=
  (walk_tied (fun _ _ _ => f.apply_tied hm hk p _ _ _ _ _) _ _ _ _).bind fun _ => .pure _

theorem zip_tied (vs ws : List Value) : Tied R (zip m env f vs ws p) (zip l (env.withHost k) f vs ws p) :=
  (walk_tied (fun _ _ _ => f.apply_tied hm hk p _ _ _ _ _) _ _ _ _).bind fun _ => .pure _

theorem sortWith_tied (vs : List Value) : Tied R (sortWith m env f vs p) (sortWith l (env.withHost k) f vs p) := by
  refine Library.sortBy_tied (fun v w => (f.judge_tied hm hk p _ _).bind fun answer => ?_) vs
  split <;> exact .pure _

theorem dedupWith_tied : ∀ kept vs,
    Tied R (dedupWith m env f p kept vs) (dedupWith l (env.withHost k) f p kept vs)
  | kept, [] => by
    cases kept <;> exact .pure _
  | [], v :: rest => dedupWith_tied [v] rest
  | last :: kept, v :: rest => (f.judge_tied hm hk p _ _).bind fun _ => dedupWith_tied _ rest

theorem arrayFunction?_tied (name : String) (vs rest : List Value) :
    Option.Rel (Native.Tied R) (arrayFunction? m env name vs f rest p)
      (arrayFunction? l (env.withHost k) name vs f rest p) := by
  have hask := f.ask_tied hm hk p
  have hdivide := fun caller items => divide_tied (hask caller) items
  unfold arrayFunction?
  dsimp only
  split
  all_goals first
    | with_reducible exact .none
    | with_reducible exact looking_tied (alongArray_tied (hask _) _ _ _ _ _)
    | with_reducible exact looking_tied (reduce_tied hm hk f p _ _ _ _)
    | with_reducible exact looking_tied ((sortWith_tied hm hk f p vs).bind fun _ => .pure _)
    | with_reducible exact changing_tied ((sortWith_tied hm hk f p vs).bind fun _ => .pure _)
    | with_reducible exact changing_tied ((dedupWith_tied hm hk f p _ vs).bind fun _ => .pure _)
    | with_reducible exact changing_tied ((hdivide _ _).bind fun _ => .pure _)
    | with_reducible exact changing_tied (alongArray_tied (fun _ _ => f.apply_tied hm hk p _ _ _ _ _) _ _ _ _ _)

theorem mapFunction?_tied (name : String) (ms : List (String × Value)) :
    Option.Rel (Native.Tied R) (mapFunction? m env name ms f p) (mapFunction? l (env.withHost k) name ms f p) := by
  have hask := fun (key : String) v => f.apply_tied hm hk p name [.string key] (some v) (some 1) []
  unfold mapFunction?
  dsimp only
  split
  · exact looking_tied ((walk_tied (fun _ => hask) _ _ _ _).bind fun _ => .pure _)
  · exact looking_tied ((walk_tied (fun _ => hask) _ _ _ _).bind fun _ => .pure _)
  · exact changing_tied ((divide_tied hask _).bind fun _ => .pure _)
  · exact changing_tied ((divide_tied hask _).bind fun _ => .pure _)
  · exact .none

omit f in
theorem callbackFunction?_tied (name : String) (args : List Value) :
    Option.Rel (Native.Tied R) (callbackFunction? m env name args p)
      (callbackFunction? l (env.withHost k) name args p) := by
  have harray := fun f => arrayFunction?_tied hm hk f p
  unfold callbackFunction?
  split
  · exact harray _ _ _ _
  · split
    · refine rel_map (harray _ _ _ _) fun n n' h => ?_
      split
      · exact h
      · exact ⟨h.changes, .pure _⟩
    · exact .none
  · split
    · exact looking_tied (zip_tied hm hk _ p _ _)
    · exact .none
  · exact mapFunction?_tied hm hk _ p _ _
  · exact .none

omit f hm hk in
theorem ending_withHost : ending (env.withHost k) = ending env := rfl

omit f hm in
theorem counted_tied {n : Native σ} {n' : Native τ} (h : n.Tied R n') :
    (counted env p n).Tied R (counted (env.withHost k) p n') := by
  refine ⟨h.changes, (attempt_tied (tick_tied hk p)).bind fun r => ?_⟩
  split
  · exact .pure _
  · exact h.run

omit f hm hk in
theorem bounded_tied {n : Native σ} {n' : Native τ} (h : n.Tied R n') :
    (bounded env p n).Tied R (bounded (env.withHost k) p n') :=
  ⟨h.changes, h.run.bind fun _ => .pure _⟩

omit f hm hk in
theorem shown_tied {text : String} {show_ : String → σ → σ} {show' : String → τ → τ}
    (h : ∀ text {v w}, R v w → R (show_ text v) (show' text w)) :
    Option.Rel (Native.Tied R) (native?.shown env p text show_) (native?.shown (env.withHost k) p text show') := by
  refine looking_tied ?_
  simp only [ending_withHost]
  split
  · exact .pure _
  · exact .bind (modify_tied (show' text) fun s w hw => ⟨h text hw, rfl⟩) fun _ => .pure _

omit f in
theorem beyond_tied (name : String) (args : List Value) :
    Option.Rel (Native.Tied R) (native?.beyond m env p name args) (native?.beyond l (env.withHost k) p name args) := by
  have hcall := hk.call name args
  unfold native?.beyond
  simp only [Env.host_withHost]
  generalize env.host.call name args = a, k.call name args = b at hcall
  cases hcall with
  | some h =>
    refine looking_tied (get_tied fun s w hw => ?_)
    obtain ⟨hanswer, hleft⟩ := h _ _ hw
    simp only [ending_withHost, Store.outer_withOuter, ← hanswer]
    refine .bind (set_tied hleft) fun _ => ?_
    split <;> exact .pure _
  | none =>
    dsimp only
    split
    · exact shown_tied p hk.print
    · exact shown_tied p hk.print
    · exact shown_tied p (hk.debug p)
    · exact shown_tied p (hk.debug p)
    · have hcallback := callbackFunction?_tied hm hk p name args
      generalize callbackFunction? m env name args p = a, callbackFunction? l (env.withHost k) name args p = b at hcallback
      cases hcallback with
      | some h => exact .some (bounded_tied p h)
      | none =>
        simp only [Env.limits_withHost]
        cases Library.call? env.limits name args with
        | none => exact .none
        | some a => exact .some ⟨rfl, .pure _⟩

omit f in
theorem native?_tied (name : String) (args : List Value) :
    Option.Rel (Native.Tied R) (native? m env name args p) (native? l (env.withHost k) name args p) := by
  unfold native?
  split
  · exact looking_tied (.pure _)
  · exact looking_tied (.pure _)
  · exact rel_map (beyond_tied hm hk p _ _) fun _ _ => counted_tied hk p

omit f in
theorem callByName_tied (name : String) (args : List Value) (amongCaller : Bool) :
    Tied R (callByName m env name args amongCaller p) (callByName l (env.withHost k) name args amongCaller p) := by
  unfold callByName
  simp only [Env.function?_withHost]
  split
  · exact hm.invoke hk _ _ _ _ _
  · have hnative := hm.native hk name args p
    generalize m.native env name args p = a, l.native (env.withHost k) name args p = b at hnative
    cases hnative with
    | some h => exact h.run
    | none => exact .pure _

omit f in
theorem runBody_tied : ∀ stmts,
    Tied R (invokeWith.runBody m env stmts) (invokeWith.runBody l (env.withHost k) stmts)
  | [] => .pure _
  | [s] => (hm.exec hk s).bind fun _ => flat_tied _
  | s :: t :: rest => (hm.exec hk s).bind fun _ => runBody_tied (t :: rest)

omit f in
theorem invokeWith_tied (r : Routine) (args : List Value) (this : Option Subject) (amongCaller : Bool) :
    Tied R (invokeWith m env r args this amongCaller p) (invokeWith l (env.withHost k) r args this amongCaller p) := by
  have henter : Tied R (invokeWith.enter env p) (invokeWith.enter (env.withHost k) p) :=
    (tick_tied hk p).bind fun _ => .ite (fun _ => fail_tied _ _) fun _ => .pure _
  have hbody (start : Nat) := @runBody_tied _ _ R m l { env with level := env.level + 1, blockStart := start } k hm hk r.body
  unfold invokeWith
  refine .ite (fun _ => .pure _) fun _ => get_tied fun before w _ => ?_
  refine (attempt_tied henter).bind fun entered => ?_
  split
  · exact .pure _
  refine .bind (modify_tied (fun w => w) fun s w hw => ⟨hw, rfl⟩) fun _ => ?_
  refine .bind (attempt_tied (hbody _)) fun ended => get_tied fun after w' hw' => ?_
  exact .bind (set_tied hw') fun _ => .pure _

end

end Eval

end Lang
end ArmPilot
