import ArmPilot.Lang.Operators
import ArmPilot.Lang.Scope
import ArmPilot.Lang.Cases

/-!
# Simplifying a script before it runs

A script is simplified once it is parsed.  The values of constants take the place of their names, operators on
literals are applied, branches that are never taken are dropped, and so are statements that do nothing.  Only
declarations hide a constant: the variables of loops and handlers and the parameters of functions do not.  A
name that is merely read counts as doing nothing, even if there is no such variable.
-/

namespace ArmPilot
namespace Lang

/-- What is known of the names at a place, the newest first: the value of a constant, or that it is a variable. -/
abbrev Known := List (String × Option Value)

/-- The value of a constant. -/
def Known.value? (k : Known) (name : String) : Option Value := (Json.find? name k).bind id

/-- What is known of the names of a scope. -/
def Scope.known (s : Scope) : Known := s.map fun b => (b.name, if b.readOnly then some b.value else none)

namespace Expr

/-- An array, a literal if all its items are. -/
def ofItems (items : List Expr) (p : Place) : Expr :=
  match items.mapM constant? with
  | some vs => .const (.array vs) p
  | none => .array items p

/-- A map, a literal if all its members are. -/
def ofMembers (members : List (String × Expr)) (p : Place) : Expr :=
  match members.mapM fun (name, e) => e.constant?.map fun v => (name, v) with
  | some ms => .const (.map (ms.foldl (fun acc m => Json.insert m.1 m.2 acc) [])) p
  | none => .map members p

/-- Whether operators are applied to a value before the script runs. -/
def isSimple : Value → Bool
  | .bool _ | .int _ | .float _ | .char _ | .string _ | .range _ _ _ => true
  | _ => false

/-- A call, a literal if it applies an operator to literals that has a value of bounded size. -/
def applied (name : String) (op : Option Mark) (args : List Expr) (p : Place) : Expr :=
  match op, args with
  | some .bang, [.const (.bool b) q] => .const (.bool !b) q
  | some op, [.const l _, .const r _] =>
    if isSimple l && isSimple r then
      match binaryOperator op l r with
      | some (.ok (.string _)) => .call name (some op) args p
      | some (.ok v) => .const v p
      | _ => .call name (some op) args p
    else .call name (some op) args p
  | op, args => .call name op args p

/-- Both of two conditions; a known condition decides or leaves the other. -/
def both (l r : Expr) (p : Place) : Expr :=
  match l, r with
  | .const (.bool true) _, r => r
  | .const (.bool false) q, _ => .const (.bool false) q
  | l, .const (.bool true) _ => l
  | l, r => .and l r p

/-- One of two conditions; a known condition decides or leaves the other. -/
def either (l r : Expr) (p : Place) : Expr :=
  match l, r with
  | .const (.bool false) _, r => r
  | .const (.bool true) q, _ => .const (.bool true) q
  | l, .const (.bool false) _ => l
  | l, r => .or l r p

/-- A value, or another in place of unit; of two unit values nothing is left but falsehood. -/
def orElse (l r : Expr) (p : Place) : Expr :=
  match l with
  | .const .unit _ =>
    match r with
    | .const .unit q => .const (.bool false) q
    | r => r
  | .const v q => .const v q
  | l => .coalesce l r p

/-- A closure, a literal if it takes nothing from outside. -/
def ofClosure (first id : Nat) (captures : List Expr) (p : Place) : Expr :=
  match captures with
  | [] => .const (.function closureName (first + id) []) p
  | captures => .closure id captures p

/-- The value of a member of a constant map. -/
def memberOf (ms : List (String × Value)) (name : String) (p : Place) : Expr :=
  .const ((Json.find? name ms).getD .unit) p

/-- A chain on a name, which is known if it goes no further than to a member of a constant map. -/
def ofChain (k : Known) (root : Expr) (links : List Link) (p : Place) : Expr :=
  match root, links with
  | .var name _ q, [link] =>
    match k.value? name, link with
    | some (.map ms), .property key _ _ => memberOf ms key q
    | some (.map ms), .index (.const (.string key) _) _ => memberOf ms key q
    | _, _ => .chain root links p
  | root, links => .chain root links p

/-- A block as an expression: unit, a single expression, or a block. -/
def ofBlock (stmts : List Stmt) (p : Place) : Expr :=
  match stmts with
  | [] => .const .unit p
  | [.expr e] => if e.isCall then .block [.expr e] p else e
  | stmts => .block stmts p

/-- Whether a chain goes back to an expression itself, and not to its value. -/
def isPlace : Expr → Bool
  | .var _ _ _ | .this _ => true
  | _ => false

end Expr

mutual

/-- Whether an expression does nothing. -/
def Expr.isPure : Expr → Bool
  | .const _ _ | .var _ _ _ | .qualified _ _ _ _ => true
  | .text parts _ => parts.all fun e => e.constant?.isSome
  | .and l r _ | .or l r _ | .coalesce l r _ => l.isPure && r.isPure
  | .block stmts _ => Stmt.arePure stmts
  | _ => false

/-- Whether a statement does nothing. -/
def Stmt.isPure : Stmt → Bool
  | .noop _ => true
  | .expr e => e.isPure
  | .block stmts _ => Stmt.arePure stmts
  | .ifElse cond a _ b _ => cond.isPure && Stmt.arePure a && Stmt.arePure b
  | .tryCatch body _ handler _ => Stmt.arePure body && Stmt.arePure handler
  | _ => false

/-- Whether statements do nothing. -/
def Stmt.arePure : List Stmt → Bool
  | [] => true
  | s :: rest => s.isPure && Stmt.arePure rest

end

namespace Stmt

/-- Whether a statement has a value. -/
def hasValue : Stmt → Bool
  | .expr _ | .block _ _ | .ifElse _ _ _ _ _ | .switch _ _ _ => true
  | _ => false

/-- Whether a statement does nothing that is seen outside of its block; one that declares a variable is seen outside
of the script, unless the block is an inner one. -/
def isIdle (inner : Bool) : Stmt → Bool
  | .declare _ value _ _ _ => inner && value.isPure
  | s => s.isPure

/-- Whether a statement declares a variable. -/
def declares : Stmt → Bool
  | .declare _ _ _ _ _ => true
  | _ => false

/-- Whether nothing behind a statement is run. -/
def isLast : Stmt → Bool
  | .leave _ _ _ | .giveBack _ _ _ => true
  | _ => false

/-- The statements up to the first behind which nothing is run. -/
def reached : List Stmt → List Stmt
  | [] => []
  | s :: rest => if s.isLast then [s] else s :: reached rest

/-- Whether a statement keeps the declarations in front of it. -/
def keepsInFront (inner : Bool) (s : Stmt) : Bool :=
  !s.isIdle inner || match s with
    | .declare _ value _ _ _ => value.constant?.isSome
    | .expr e => e.constant?.isNone
    | _ => false

/-- Drops the statements that do nothing, except the last one if its value is wanted.  In an inner block declarations go
as well, behind the first `kept` statements. -/
def dropIdle (inner valued : Bool) : Nat → List Stmt → List Stmt
  | _, [] => []
  | kept, s :: rest =>
    if valued && rest.isEmpty then [s]
    else if (kept = 0 && s.isIdle inner) || s.isPure then dropIdle inner valued (kept - 1) rest
    else s :: dropIdle inner valued (kept - 1) rest

/-- Drops statements that do nothing and have no value from the end of a list, which is given backwards; one behind
a statement with a value stays as a statement without effect.  What is given back at the very end is simply the value. -/
def trimValued (inner final : Bool) : List Stmt → List Stmt
  | [] => []
  | .giveBack false e p :: rest =>
    if !final then .giveBack false e p :: rest
    else
      match e with
      | some e => .expr e :: rest
      | none =>
        match rest with
        | [] => []
        | s :: _ => if s.hasValue then .noop p :: rest else trimValued inner final rest
  | s :: rest =>
    if s.isIdle inner && !s.hasValue then
      match rest with
      | [] => []
      | t :: _ => if t.hasValue then .noop s.place :: rest else trimValued inner final rest
    else s :: rest

/-- The statements of a block without those that do nothing.  The value of the block may be wanted, the block may be an
inner one, and it may be the whole of a script or of a function. -/
def pruned (valued inner final : Bool) (stmts : List Stmt) : List Stmt :=
  let stmts := reached stmts
  let kept := match stmts.reverse.findIdx? (keepsInFront inner) with
    | some i => stmts.length - i - 1
    | none => 0
  let stmts := (dropIdle inner valued kept stmts).reverse
  (if valued then trimValued inner final stmts else stmts.dropWhile (isIdle inner)).reverse

/-- A block as a statement: nothing, a single statement, or a block of several. -/
def ofBlock (stmts : List Stmt) (p : Place) : Stmt :=
  match stmts with
  | [] => .noop p
  | [s] => if s.declares then .block [s] p else s
  | stmts => .block stmts p

/-- An expression as a statement: a block stands for itself. -/
def ofExpr : Expr → Stmt
  | .block stmts p => .block stmts p
  | e => .expr e

/-- A loop on a condition, if it can ever run. -/
def whileLoop (cond : Option Expr) (body : List Stmt) (bodyPlace p : Place) : Stmt :=
  match cond with
  | some (.const (.bool false) _) => .noop p
  | some (.const (.bool true) _) => .repeatWhile none body bodyPlace p
  | cond => .repeatWhile cond body bodyPlace p

/-- Statements whose failures are caught; none is if they do nothing. -/
def guarded (body : List Stmt) (name : Option String) (handler : List Stmt) (p : Place) : Stmt :=
  if Stmt.arePure body then ofBlock body p else .tryCatch body name handler p

/-- A branch of a condition that may be known. -/
def branch (valued : Bool) (cond : Expr) (a : List Stmt) (aPlace : Place) (b : List Stmt) (p : Place) : Stmt :=
  let taken (stmts : List Stmt) (q : Place) : Stmt := if stmts.isEmpty then .noop p else .block stmts q
  match cond with
  | .const (.bool true) _ => taken a aPlace
  | .const (.bool false) _ => taken b p
  | cond =>
    if a.isEmpty && b.isEmpty then (if valued then .block [.expr cond, .noop p] p else .expr cond)
    else .ifElse cond a aPlace b p

/-- A switch, whose value may be known.  Then a single case of its literal is left, or the first one without condition;
else it goes by the ranges, and if it is not settled by them, those that do not matter are dropped. -/
def choice (valued : Bool) (value : Expr) (cases : List Case) (p : Place) : Stmt :=
  let usual : Stmt := match Case.default? cases with
    | some c => ofExpr c.action
    | none => .noop p
  let settled (c : Case) : Stmt :=
    if c.isSure then ofExpr c.action
    else branch valued (c.condition.getD (.const (.bool true) p)) [ofExpr c.action] p [usual] p
  match value.constant? with
  | none => .switch value (cases.filter fun c => !c.isNever) p
  | some v =>
    match cases.filter (·.names v) with
    | [c] => settled c
    | named =>
      match named.find? (·.isSure) with
      | some c => ofExpr c.action
      | none =>
        let ranged := cases.filter fun c => !c.ranges.isEmpty
        if (ranged.flatMap (·.ranges)).length ≤ 1 || ranged.all (·.isSure) then
          match ranged.find? (·.spans v) with
          | some c => settled c
          | none => usual
        else .switch value (ranged.filter (·.spans v) ++ (Case.default? cases).toList) p

/-- Whether an operator can be joined with an assignment. -/
def joins : Mark → Bool
  | .plus | .minus | .times | .divide | .modulo | .power | .shiftLeft | .shiftRight | .ampersand | .pipe | .caret =>
    true
  | _ => false

/-- An assignment; an operator on the variable itself is joined with it. -/
def assignment (op : Option Mark) (target value : Expr) (p : Place) : Stmt :=
  match op, target, value with
  | none, .var x bound q, .call name (some m) [.var y bound' q', r] p' =>
    if x = y && joins m then .assign (some m) (.var x bound q) r p'
    else .assign none (.var x bound q) (.call name (some m) [.var y bound' q', r] p') p
  | op, target, value => .assign op target value p

end Stmt

/-- What is known behind a statement. -/
def Known.after (k : Known) : Stmt → Known
  | .declare name value readOnly _ _ => (name, if readOnly then value.constant? else none) :: k
  | _ => k

section

-- the number of the first function of the script
variable (first : Nat)

mutual

/-- Simplifies an expression. -/
def Expr.fold (k : Known) : Expr → Expr
  | .const v p => .const v p
  | .text parts p => .text (Expr.foldAll k parts) p
  | .array items p => .ofItems (Expr.foldAll k items) p
  | .map members p => .ofMembers (Expr.foldMembers k members) p
  | .var name bound p =>
    match k.value? name with
    | some v => .const v p
    | none => .var name bound p
  | .qualified path name q p => .qualified path name q p
  | .this p => .this p
  | .call name op args p => .applied name op (Expr.foldAll k args) p
  | .scopedCall name args p => .scopedCall name (Expr.foldAll k args) p
  | .moduleCall path name args q p => .moduleCall path name (Expr.foldAll k args) q p
  | .and l r p => .both (l.fold k) (r.fold k) p
  | .or l r p => .either (l.fold k) (r.fold k) p
  | .coalesce l r p => .orElse (l.fold k) (r.fold k) p
  | .block stmts p => .ofBlock (Stmt.pruned true true false (Stmt.foldAll k true stmts)) p
  | .chain root links p => .ofChain k (if root.isPlace then root else root.fold k) (Link.foldAll k links) p
  | .closure id captures p => .ofClosure first id (Expr.foldAll k captures) p

/-- Simplifies expressions. -/
def Expr.foldAll (k : Known) : List Expr → List Expr
  | [] => []
  | e :: rest => e.fold k :: Expr.foldAll k rest

/-- Simplifies the members of a map. -/
def Expr.foldMembers (k : Known) : List (String × Expr) → List (String × Expr)
  | [] => []
  | (name, e) :: rest => (name, e.fold k) :: Expr.foldMembers k rest

/-- Simplifies an expression that may be missing. -/
def Expr.foldOption (k : Known) : Option Expr → Option Expr
  | none => none
  | some e => some (e.fold k)

/-- Simplifies a link of a chain. -/
def Link.fold (k : Known) : Link → Link
  | .property name joint p => .property name joint p
  | .method name args joint p => .method name (Expr.foldAll k args) joint p
  | .index i joint => .index (i.fold k) joint

/-- Simplifies the links of a chain. -/
def Link.foldAll (k : Known) : List Link → List Link
  | [] => []
  | l :: rest => l.fold k :: Link.foldAll k rest

/-- Simplifies a statement, whose value may be wanted. -/
def Stmt.fold (k : Known) (valued : Bool) : Stmt → Stmt
  | .noop p => .noop p
  | .expr e => .ofExpr (e.fold k)
  | .assign op target value p =>
    .assignment op (if target.isPlace then target else target.fold k) (value.fold k) p
  | .declare name value readOnly replaces p => .declare name (value.fold k) readOnly replaces p
  | .block stmts p => .ofBlock (Stmt.pruned valued true false (Stmt.foldAll k valued stmts)) p
  | .ifElse cond a aPlace b p =>
    .branch valued (cond.fold k) (Stmt.pruned valued true false (Stmt.foldAll k valued a)) aPlace
      (Stmt.pruned valued true false (Stmt.foldAll k valued b)) p
  | .switch value cases p => .choice valued (value.fold k) (Case.foldAll k cases) p
  | .repeatWhile cond body bodyPlace p =>
    .whileLoop (Expr.foldOption k cond) (Stmt.pruned false true false (Stmt.foldAll k false body)) bodyPlace p
  | .doWhile body cond negated bodyPlace p =>
    .doWhile (Stmt.pruned false true false (Stmt.foldAll k false body)) (cond.fold k) negated bodyPlace p
  | .forIn name counter source body bodyPlace p =>
    .forIn name counter (source.fold k) (Stmt.pruned false true false (Stmt.foldAll k false body)) bodyPlace p
  | .leave isBreak value p => .leave isBreak (Expr.foldOption k value) p
  | .giveBack isThrow value p => .giveBack isThrow (Expr.foldOption k value) p
  | .tryCatch body name handler p =>
    .guarded (Stmt.pruned false true false (Stmt.foldAll k false body)) name
      (Stmt.pruned false true false (Stmt.foldAll k false handler)) p

/-- Simplifies statements, each with what is known behind those before it.  A block that declares nothing gives its
place to its statements. -/
def Stmt.foldAll (k : Known) (valued : Bool) : List Stmt → List Stmt
  | [] => []
  | .block stmts p :: rest =>
    let inner := Stmt.foldAll k valued stmts
    (if stmts.any Stmt.declares then [.ofBlock (Stmt.pruned valued true false inner) p] else inner) ++
      Stmt.foldAll k valued rest
  | s :: rest =>
    let s := s.fold k valued
    s :: Stmt.foldAll (k.after s) valued rest

/-- Simplifies a case of a switch. -/
def Case.fold (k : Known) : Case → Case
  | .case values cond action => .case values (Expr.foldOption k cond) (action.fold k)

/-- Simplifies the cases of a switch. -/
def Case.foldAll (k : Known) : List Case → List Case
  | [] => []
  | c :: rest => c.fold k :: Case.foldAll k rest

end

end

/-- Simplifies a function by what is known outside of the script. -/
def Routine.fold (first : Nat) (k : Known) (r : Routine) : Routine :=
  { r with body := Stmt.pruned true false true (Stmt.foldAll first k true r.body) }

/-- Simplifies a script by what is known outside of it. -/
def Program.fold (k : Known) (p : Program) : Program :=
  { p with body := Stmt.pruned true false true (Stmt.foldAll p.first k true p.body)
           routines := p.routines.map (·.fold p.first k) }

end Lang
end ArmPilot
