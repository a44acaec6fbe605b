import ArmPilot.Lang.Cases

/-!
# Places of assignments

Code is `Placed` if all of its assignments, however deep they stand, go to what can hold a value: a variable, a name in
a module, what the function in hand is called on, or the end of a chain.
-/

namespace ArmPilot
namespace Lang

/-- Whether an expression can hold a value that is assigned to it. -/
def Expr.IsPlace : Expr → Prop
  | .var _ _ _ | .qualified _ _ _ _ | .this _ | .chain _ _ _ => True
  | _ => False

mutual

/-- All assignments in an expression go to places. -/
inductive Expr.Placed : Expr → Prop where
  | const {v : Value} {p : Place} : Expr.Placed (.const v p)
  | text {parts : List Expr} {p : Place} (h : ∀ e ∈ parts, e.Placed) : Expr.Placed (.text parts p)
  | array {items : List Expr} {p : Place} (h : ∀ e ∈ items, e.Placed) : Expr.Placed (.array items p)
  | map {members : List (String × Expr)} {p : Place} (h : ∀ m ∈ members, m.2.Placed) : Expr.Placed (.map members p)
  | var {name : String} {bound : Bool} {p : Place} : Expr.Placed (.var name bound p)
  | qualified {path : List String} {name : String} {p q : Place} : Expr.Placed (.qualified path name p q)
  | this {p : Place} : Expr.Placed (.this p)
  | call {name : String} {op : Option Mark} {args : List Expr} {p : Place} (h : ∀ e ∈ args, e.Placed) :
      Expr.Placed (.call name op args p)
  | scopedCall {name : String} {args : List Expr} {p : Place} (h : ∀ e ∈ args, e.Placed) :
      Expr.Placed (.scopedCall name args p)
  | moduleCall {path : List String} {name : String} {args : List Expr} {p q : Place} (h : ∀ e ∈ args, e.Placed) :
      Expr.Placed (.moduleCall path name args p q)
  | and {l r : Expr} {p : Place} (hl : l.Placed) (hr : r.Placed) : Expr.Placed (.and l r p)
  | or {l r : Expr} {p : Place} (hl : l.Placed) (hr : r.Placed) : Expr.Placed (.or l r p)
  | coalesce {l r : Expr} {p : Place} (hl : l.Placed) (hr : r.Placed) : Expr.Placed (.coalesce l r p)
  | block {stmts : List Stmt} {p : Place} (h : ∀ s ∈ stmts, s.Placed) : Expr.Placed (.block stmts p)
  | chain {root : Expr} {links : List Link} {p : Place} (hr : root.Placed) (hl : ∀ l ∈ links, l.Placed) :
      Expr.Placed (.chain root links p)
  | closure {id : Nat} {captures : List Expr} {p : Place} (h : ∀ e ∈ captures, e.Placed) :
      Expr.Placed (.closure id captures p)

/-- All assignments in a link go to places. -/
inductive Link.Placed : Link → Prop where
  | property {name : String} {j : Joint} {p : Place} : Link.Placed (.property name j p)
  | method {name : String} {args : List Expr} {j : Joint} {p : Place} (h : ∀ e ∈ args, e.Placed) :
      Link.Placed (.method name args j p)
  | index {i : Expr} {j : Joint} (h : i.Placed) : Link.Placed (.index i j)

/-- All assignments in a statement, and itself if it is one, go to places. -/
inductive Stmt.Placed : Stmt → Prop where
  | noop {p : Place} : Stmt.Placed (.noop p)
  | expr {e : Expr} (h : e.Placed) : Stmt.Placed (.expr e)
  | assign {op : Option Mark} {target value : Expr} {p : Place} (hp : target.IsPlace) (ht : target.Placed)
      (hv : value.Placed) : Stmt.Placed (.assign op target value p)
  | declare {name : String} {value : Expr} {readOnly replaces : Bool} {p : Place} (h : value.Placed) :
      Stmt.Placed (.declare name value readOnly replaces p)
  | block {stmts : List Stmt} {p : Place} (h : ∀ s ∈ stmts, s.Placed) : Stmt.Placed (.block stmts p)
  | ifElse {cond : Expr} {thenPart elsePart : List Stmt} {p q : Place} (hc : cond.Placed)
      (ht : ∀ s ∈ thenPart, s.Placed) (he : ∀ s ∈ elsePart, s.Placed) :
      Stmt.Placed (.ifElse cond thenPart p elsePart q)
  | switch {value : Expr} {cases : List Case} {p : Place} (hv : value.Placed) (hc : ∀ c ∈ cases, c.Placed) :
      Stmt.Placed (.switch value cases p)
  | repeatWhile {cond : Option Expr} {body : List Stmt} {p q : Place} (hc : ∀ e ∈ cond, e.Placed)
      (hb : ∀ s ∈ body, s.Placed) : Stmt.Placed (.repeatWhile cond body p q)
  | doWhile {body : List Stmt} {cond : Expr} {negated : Bool} {p q : Place} (hb : ∀ s ∈ body, s.Placed)
      (hc : cond.Placed) : Stmt.Placed (.doWhile body cond negated p q)
  | forIn {name : String} {counter : Option String} {source : Expr} {body : List Stmt} {p q : Place}
      (hs : source.Placed) (hb : ∀ s ∈ body, s.Placed) : Stmt.Placed (.forIn name counter source body p q)
  | leave {isBreak : Bool} {value : Option Expr} {p : Place} (h : ∀ e ∈ value, e.Placed) :
      Stmt.Placed (.leave isBreak value p)
  | giveBack {isThrow : Bool} {value : Option Expr} {p : Place} (h : ∀ e ∈ value, e.Placed) :
      Stmt.Placed (.giveBack isThrow value p)
  | tryCatch {body : List Stmt} {name : Option String} {handler : List Stmt} {p : Place}
      (hb : ∀ s ∈ body, s.Placed) (hh : ∀ s ∈ handler, s.Placed) : Stmt.Placed (.tryCatch body name handler p)

/-- All assignments in a case go to places. -/
inductive Case.Placed : Case → Prop where
  | case {values : List Value} {cond : Option Expr} {action : Expr} (hc : ∀ e ∈ cond, e.Placed)
      (ha : action.Placed) : Case.Placed (.case values cond action)

end

attribute [grind intro] Expr.Placed Link.Placed Stmt.Placed Case.Placed

/-- All assignments in a function or closure go to places. -/
def Routine.Placed (r : Routine) : Prop := ∀ s ∈ r.body, s.Placed

/-- All assignments in a script go to places. -/
structure Program.Placed (p : Program) : Prop where
  body : ∀ s ∈ p.body, s.Placed
  routines : ∀ r ∈ p.routines, r.Placed

namespace Expr

@[grind =]
theorem placed_call_iff {name : String} {op : Option Mark} {args : List Expr} {p : Place} :
    (Expr.call name op args p).Placed ↔ ∀ e ∈ args, e.Placed :=
  ⟨fun | .call h => h, .call⟩

@[grind =]
theorem placed_scopedCall_iff {name : String} {args : List Expr} {p : Place} :
    (Expr.scopedCall name args p).Placed ↔ ∀ e ∈ args, e.Placed :=
  ⟨fun | .scopedCall h => h, .scopedCall⟩

@[grind =]
theorem placed_chain_iff {root : Expr} {links : List Link} {p : Place} :
    (Expr.chain root links p).Placed ↔ root.Placed ∧ ∀ l ∈ links, l.Placed :=
  ⟨fun | .chain hr hl => ⟨hr, hl⟩, fun h => .chain h.1 h.2⟩

end Expr

/-- A statement as an expression keeps its assignments. -/
theorem Stmt.placed_asExpr {s : Stmt} (h : s.Placed) : s.asExpr.Placed := by
  unfold asExpr
  split
  · cases h with
    | expr he =>
      split
      · exact .block (List.forall_mem_singleton.2 (.expr he))
      · exact he
  · cases h with
    | block hs => exact .block hs
  · exact .block (List.forall_mem_singleton.2 h)

namespace Case

theorem Placed.condition {c : Case} (h : c.Placed) : ∀ e ∈ c.condition, e.Placed := by
  cases h with
  | case hc _ => exact hc

theorem Placed.action {c : Case} (h : c.Placed) : c.action.Placed := by
  cases h with
  | case _ ha => exact ha

/-- The cases that a switch considers are its own. -/
theorem mem_of_considered {v : Value} {c : Case} {cases : List Case} (h : c ∈ considered v cases) : c ∈ cases := by
  unfold considered at h
  split at h
  · exact (List.mem_filter.1 h).1
  · exact (List.mem_filter.1 h).1

end Case

end Lang
end ArmPilot
