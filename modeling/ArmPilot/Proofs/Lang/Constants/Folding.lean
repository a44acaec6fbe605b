import ArmPilot.Lang.Folding
import ArmPilot.Proofs.Lang.Constants.Hold

/-!
# Simplified scripts declare nothing new

A script is simplified before it runs.  Statements go, stand in a block of their own or give way to a part of theirs, but
what a statement outside of every block declares was declared there before (`Program.declares_of_fold`).
-/

namespace ArmPilot
namespace Lang

/-- Whether a script declares a name outside of its blocks and functions. -/
def Program.declares (p : Program) (name : String) : Bool := p.body.any (·.declared? = some name)

theorem Program.declares_iff {p : Program} {name : String} :
    p.declares name = true ↔ ∃ s ∈ p.body, s.declared? = some name := by
  simp [declares]

namespace Stmt

theorem declared?_of_not_declares {s : Stmt} (h : s.declares = false) : s.declared? = none := by
  cases s with
  | declare => cases h
  | _ => rfl

/-! ## A single statement -/

theorem declared?_ofBlock (stmts : List Stmt) (p : Place) : (ofBlock stmts p).declared? = none := by
  unfold ofBlock
  split
  · rfl
  · split
    · rfl
    · exact declared?_of_not_declares (Bool.eq_false_of_not_eq_true ‹_›)
  · rfl

theorem declared?_ofExpr (e : Expr) : (ofExpr e).declared? = none := by
  cases e <;> rfl

theorem declared?_whileLoop (cond : Option Expr) (body : List Stmt) (bodyPlace p : Place) :
    (whileLoop cond body bodyPlace p).declared? = none := by
  unfold whileLoop
  split <;> rfl

theorem declared?_guarded (body : List Stmt) (name : Option String) (handler : List Stmt) (p : Place) :
    (guarded body name handler p).declared? = none := by
  unfold guarded
  split
  · exact declared?_ofBlock body p
  · rfl

theorem declared?_branch (valued : Bool) (cond : Expr) (a : List Stmt) (aPlace : Place) (b : List Stmt) (p : Place) :
    (branch valued cond a aPlace b p).declared? = none := by
  unfold branch
  split
  · dsimp only
    split <;> rfl
  · dsimp only
    split <;> rfl
  · split
    · split <;> rfl
    · rfl

theorem declared?_choice (valued : Bool) (value : Expr) (cases : List Case) (p : Place) :
    (choice valued value cases p).declared? = none := by
  -- what is left is the action of a case, a branch on its condition or a smaller switch
  unfold choice
  dsimp only
  repeat' split
  all_goals first
    | exact declared?_ofExpr _
    | exact declared?_branch _ _ _ _ _ _
    | rfl

theorem declared?_assignment (op : Option Mark) (target value : Expr) (p : Place) :
    (assignment op target value p).declared? = none := by
  unfold assignment
  split
  · split <;> rfl
  · rfl

/-- A statement declares after its simplification what it declared before. -/
theorem declared?_fold (first : Nat) (k : Known) (valued : Bool) (s : Stmt) :
    (s.fold first k valued).declared? = s.declared? := by
  cases s with
  | expr => exact declared?_ofExpr _
  | assign => exact declared?_assignment _ _ _ _
  | block => exact declared?_ofBlock _ _
  | ifElse => exact declared?_branch _ _ _ _ _ _
  | switch => exact declared?_choice _ _ _ _
  | repeatWhile => exact declared?_whileLoop _ _ _ _
  | tryCatch => exact declared?_guarded _ _ _ _
  | _ => rfl

/-! ## The statements of a block -/

theorem mem_reached {s : Stmt} : ∀ {stmts : List Stmt}, s ∈ reached stmts → s ∈ stmts
  | [], h => h
  | t :: rest, h => by
    rw [reached] at h
    split at h
    · exact List.mem_singleton.1 h ▸ List.mem_cons_self
    · exact List.mem_cons.2 ((List.mem_cons.1 h).imp_right mem_reached)

theorem mem_dropIdle {s : Stmt} {inner valued : Bool} : ∀ {kept : Nat} {stmts : List Stmt},
    s ∈ dropIdle inner valued kept stmts → s ∈ stmts
  | _, [], h => h
  | kept, t :: rest, h => by
    rw [dropIdle] at h
    split at h
    · exact List.mem_singleton.1 h ▸ List.mem_cons_self
    · split at h
      · exact List.mem_cons_of_mem _ (mem_dropIdle h)
      · exact List.mem_cons.2 ((List.mem_cons.1 h).imp_right mem_dropIdle)

/-- The end of a block is left out, or replaced by statements that declare nothing. -/
theorem mem_trimValued {s : Stmt} {inner final : Bool} (stmts : List Stmt) (h : s ∈ trimValued inner final stmts) :
    s ∈ stmts ∨ s.declared? = none := by
  fun_induction trimValued inner final stmts with
  | case1 => exact .inl h
  | case2 => exact .inl h
  | case3 p rest hfinal e =>
    obtain rfl | h := List.mem_cons.1 h
    · exact .inr rfl
    · exact .inl (List.mem_cons_of_mem _ h)
  | case4 => exact .inl (List.mem_cons_of_mem _ h)
  | case5 p hfinal t rest hvalue =>
    obtain rfl | h := List.mem_cons.1 h
    · exact .inr rfl
    · exact .inl (List.mem_cons_of_mem _ h)
  | case6 p hfinal t rest hvalue ih => exact (ih h).imp_left (List.mem_cons_of_mem _)
  | case7 => exact .inl (List.mem_cons_of_mem _ h)
  | case8 t hother hidle u rest hvalue =>
    obtain rfl | h := List.mem_cons.1 h
    · exact .inr rfl
    · exact .inl (List.mem_cons_of_mem _ h)
  | case9 t hother hidle u rest hvalue ih => exact (ih h).imp_left (List.mem_cons_of_mem _)
  | case10 => exact .inl h

/-- A block without the statements that do nothing declares what it declared before. -/
theorem mem_pruned {s : Stmt} {valued inner final : Bool} {stmts : List Stmt} (h : s ∈ pruned valued inner final stmts) :
    s ∈ stmts ∨ s.declared? = none := by
  unfold pruned at h
  dsimp only at h
  rw [List.mem_reverse] at h
  have hdropped {s : Stmt} {kept : Nat} (h : s ∈ (dropIdle inner valued kept (reached stmts)).reverse) : s ∈ stmts :=
    mem_reached (mem_dropIdle (List.mem_reverse.1 h))
  split at h
  · exact (mem_trimValued _ h).imp_left hdropped
  · exact .inl (hdropped ((List.dropWhile_sublist _).mem h))

/-- What a statement declares after the simplification of a block, one of its statements declared before. -/
theorem declared?_of_foldAll {first : Nat} {valued : Bool} {s : Stmt} : ∀ {k : Known} {stmts : List Stmt},
    s ∈ foldAll first k valued stmts → ∃ t ∈ stmts, s.declared? = t.declared?
  | _, [], h => by
    rw [foldAll] at h
    cases h
  | k, t :: rest, h => by
    have hrest {k : Known} (h : s ∈ foldAll first k valued rest) : ∃ u ∈ t :: rest, s.declared? = u.declared? :=
      (declared?_of_foldAll h).imp fun _ => And.imp_left (List.mem_cons_of_mem t)
    by_cases hblock : ∃ stmts p, t = .block stmts p
    · obtain ⟨stmts, p, rfl⟩ := hblock
      rw [foldAll] at h
      obtain h | h := List.mem_append.1 h
      · refine ⟨_, List.mem_cons_self, ?_⟩
        split at h
        · exact List.mem_singleton.1 h ▸ declared?_ofBlock _ p
        · obtain ⟨u, hu, hdeclared⟩ := declared?_of_foldAll h
          have hnone : stmts.any declares = false := Bool.eq_false_of_not_eq_true ‹_›
          exact hdeclared.trans (declared?_of_not_declares (by simpa using List.any_eq_false.1 hnone u hu))
      · exact hrest h
    · rw [foldAll] at h
      · obtain rfl | h := List.mem_cons.1 h
        · exact ⟨t, List.mem_cons_self, declared?_fold first k valued t⟩
        · exact hrest h
      · exact fun stmts p heq => hblock ⟨stmts, p, heq⟩
termination_by _ stmts => sizeOf stmts

end Stmt

/-- What a script declares after its simplification, it declared before. -/
theorem Program.declares_of_fold {k : Known} {p : Program} {name : String} (h : (p.fold k).declares name = true) :
    p.declares name = true := by
  rw [declares_iff] at h ⊢
  obtain ⟨s, hs, hname⟩ := h
  obtain hs | hnone := Stmt.mem_pruned hs
  · obtain ⟨t, ht, hdeclared⟩ := Stmt.declared?_of_foldAll hs
    exact ⟨t, ht, hdeclared ▸ hname⟩
  · rw [hnone] at hname
    cases hname

end Lang
end ArmPilot
