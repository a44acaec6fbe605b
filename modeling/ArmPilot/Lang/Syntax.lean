import ArmPilot.Lang.Value
import ArmPilot.Lang.Token

/-!
# Syntax trees

An expression that starts with a value and goes on with properties, method calls and indices is one
`chain` of links.  The bodies of functions and closures are kept beside the tree, in the `routines` of a
`Program`; a closure is the number of its body there.
-/

namespace ArmPilot
namespace Lang

/-- The mark between a link of a chain and what stands in front of it; an optional link is not followed from a unit
value. -/
structure Joint where
  optional : Bool
  place : Place

mutual

/-- An expression. -/
inductive Expr where
  /-- A literal, or a value found while folding. -/
  | const (v : Value) (pos : Place)
  /-- A text with embedded blocks. -/
  | text (parts : List Expr) (pos : Place)
  | array (items : List Expr) (pos : Place)
  | map (members : List (String × Expr)) (pos : Place)
  /-- A variable; `bound` says that the script itself declares it around this place. -/
  | var (name : String) (bound : Bool) (pos : Place)
  /-- A name in a module. -/
  | qualified (path : List String) (name : String) (pathPos pos : Place)
  | this (pos : Place)
  /-- A call of a function by name; an operator is such a call. -/
  | call (name : String) (op : Option Mark) (args : List Expr) (pos : Place)
  /-- A call of a function that runs among the variables of its caller. -/
  | scopedCall (name : String) (args : List Expr) (pos : Place)
  /-- A call of a function in a module. -/
  | moduleCall (path : List String) (name : String) (args : List Expr) (pathPos pos : Place)
  | and (l r : Expr) (pos : Place)
  | or (l r : Expr) (pos : Place)
  | coalesce (l r : Expr) (pos : Place)
  /-- Statements that yield a value. -/
  | block (stmts : List Stmt) (pos : Place)
  | chain (root : Expr) (links : List Link) (pos : Place)
  /-- A closure with the variables that it takes from outside. -/
  | closure (id : Nat) (captures : List Expr) (pos : Place)

/-- A link of a chain. -/
inductive Link where
  | property (name : String) (joint : Joint) (pos : Place)
  | method (name : String) (args : List Expr) (joint : Joint) (pos : Place)
  | index (i : Expr) (joint : Joint)

/-- A statement. -/
inductive Stmt where
  | noop (pos : Place)
  | expr (e : Expr)
  | assign (op : Option Mark) (target value : Expr) (pos : Place)
  /-- A declaration; `replaces` says that the block already declares that name. -/
  | declare (name : String) (value : Expr) (readOnly replaces : Bool) (pos : Place)
  | block (stmts : List Stmt) (pos : Place)
  | ifElse (cond : Expr) (thenPart : List Stmt) (thenPos : Place) (elsePart : List Stmt) (pos : Place)
  | switch (value : Expr) (cases : List Case) (pos : Place)
  /-- A loop; without a condition it runs until it is left. -/
  | repeatWhile (cond : Option Expr) (body : List Stmt) (bodyPos pos : Place)
  | doWhile (body : List Stmt) (cond : Expr) (negated : Bool) (bodyPos pos : Place)
  | forIn (name : String) (counter : Option String) (source : Expr) (body : List Stmt)
    (bodyPos pos : Place)
  | leave (isBreak : Bool) (value : Option Expr) (pos : Place)
  | giveBack (isThrow : Bool) (value : Option Expr) (pos : Place)
  | tryCatch (body : List Stmt) (name : Option String) (handler : List Stmt) (pos : Place)

/-- A case of a switch: the values it stands for, none for the default, its condition and its action. -/
inductive Case where
  | case (values : List Value) (cond : Option Expr) (action : Expr)

end

instance : Inhabited Expr := ⟨.const .unit none⟩
instance : Inhabited Stmt := ⟨.noop none⟩

namespace Expr

/-- Where an expression is reported. -/
def place : Expr → Place
  | .const _ p | .text _ p | .array _ p | .map _ p | .var _ _ p | .qualified _ _ _ p | .this p
  | .call _ _ _ p | .scopedCall _ _ p | .and _ _ p | .or _ _ p | .coalesce _ _ p | .block _ p | .chain _ _ p
  | .closure _ _ p => p
  | .moduleCall _ _ _ p _ => p

/-- Where an expression begins. -/
def start : Expr → Place
  | .qualified _ _ p _ => p
  | .and l _ _ => l.start
  | .or l _ _ => l.start
  | .coalesce l _ _ => l.start
  | .chain root _ _ => root.start
  | e => e.place

/-- The value of a literal. -/
def constant? : Expr → Option Value
  | .const v _ => some v
  | _ => none

/-- Whether an expression calls a function or an operator by name. -/
def isCall : Expr → Bool
  | .call _ _ _ _ | .scopedCall _ _ _ | .moduleCall _ _ _ _ _ => true
  | _ => false

end Expr

namespace Link

/-- Where a link is reported: its name, or the expression of its index. -/
def place : Link → Place
  | .property _ _ p | .method _ _ _ p => p
  | .index i _ => i.start

/-- The mark in front of a link. -/
def joint : Link → Joint
  | .property _ j _ | .method _ _ j _ | .index _ j => j

/-- Whether a link is a call. -/
def isCall : Link → Bool
  | .method _ _ _ _ => true
  | _ => false

end Link

/-- Where a statement is reported. -/
def Stmt.place : Stmt → Place
  | .noop p | .assign _ _ _ p | .declare _ _ _ _ p | .block _ p | .ifElse _ _ _ _ p | .switch _ _ p
  | .repeatWhile _ _ _ p | .doWhile _ _ _ _ p | .forIn _ _ _ _ _ p | .leave _ _ p | .giveBack _ _ p
  | .tryCatch _ _ _ p => p
  | .expr e => e.start

/-- A statement as an expression: a block of its own unless it is one, or a plain expression. -/
def Stmt.asExpr : Stmt → Expr
  | .expr e => if e.isCall then .block [.expr e] e.start else e
  | .block stmts p => .block stmts p
  | s => .block [s] s.place

/-- A function or closure: its parameters, of which a closure's captured variables come first.  A closure
has no name. -/
structure Routine where
  name : String
  /-- The type of the values that it is called on, if it is kept for one. -/
  receiver : Option String
  parameters : List String
  body : List Stmt
  pos : Place

instance : Inhabited Routine := ⟨"", none, [], [], none⟩

/-- A parsed script: its statements, and its functions and closures, which have numbers from `first` on when it
runs. -/
structure Program where
  body : List Stmt
  first : Nat
  routines : List Routine

end Lang
end ArmPilot
