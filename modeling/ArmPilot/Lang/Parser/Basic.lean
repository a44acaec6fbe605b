import ArmPilot.Lang.Syntax
import ArmPilot.Lang.SyntaxError

/-!
# The state of a parser

A parser consumes the tokens of a script and keeps the names declared so far, the names that the closure
in hand takes from outside, and the functions and closures already parsed.  A `Setting` says what is
allowed at a place: how deep expressions may still nest, and which statements may stand there.
-/

namespace ArmPilot
namespace Lang

/-- A name declared by the script. -/
structure Local where
  name : String
  readOnly : Bool

/-- The state of a parser. -/
structure Cursor where
  /-- The tokens left, the last of which says that the script ended. -/
  tokens : List (Token × Position)
  /-- The names declared so far, the newest first. -/
  locals : List Local
  /-- How many names were declared when the current block began. -/
  blockStart : Nat
  /-- The names that the closure in hand takes from outside, in the order of their first use. -/
  externals : List (String × Place)
  /-- Whether the next name is a variable that a closure may take, and not a property. -/
  captures : Bool
  /-- The functions and closures parsed so far, the newest first. -/
  routines : List Routine

/-- A step of a parser. -/
abbrev Parse := StateT Cursor (Except SyntaxError)

/-- What is allowed at a place of a script. -/
structure Setting where
  /-- The nesting of expressions so far. -/
  level : Nat
  /-- The greatest nesting; zero is no bound. -/
  limit : Nat
  /-- The greatest nesting inside functions. -/
  functionLimit : Nat
  /-- The greatest size of array and map literals; zero is no bound. -/
  maxArray : Nat
  maxMap : Nat
  /-- Where the construct in hand begins. -/
  pos : Position
  /-- Whether the parts of a block are statements, or a single expression. -/
  statements : Bool
  /-- Whether blocks and loops may stand for values. -/
  blocks : Bool
  /-- Whether the place lies in a function or closure. -/
  inFunction : Bool
  /-- Whether the place lies in a loop that it may leave. -/
  inLoop : Bool
  /-- Whether the place is outside all blocks. -/
  outermost : Bool
  /-- Whether a vertical bar ends the expression in hand. -/
  stopsAtPipe : Bool
  /-- Whether the operand in hand stands behind a dot. -/
  behindDot : Bool

namespace Parse

/-- Refuses the script at a place. -/
def refuse {α : Type} (r : Refusal) (p : Position) : Parse α := throw ⟨r, some p⟩

/-- The next token and its position. -/
def peek : Parse (Token × Position) := do
  return (← get).tokens.headD (.ended, Position.start)

/-- Takes the next token; the end of the script stays. -/
def next : Parse (Token × Position) := do
  let c ← get
  match c.tokens with
  | [] => return (.ended, Position.start)
  | [t] => return t
  | t :: rest =>
    set { c with tokens := rest }
    return t

/-- Takes the next token if it is the given one. -/
def accept (t : Token) : Parse Bool := do
  let (u, _) ← peek
  if u == t then
    let _ ← next
    return true
  else return false

/-- Takes the next token if it is the given mark. -/
def acceptMark (m : Mark) : Parse Bool := accept (.mark m)

/-- Refuses a token that stands in place of another; a faulty token tells its own fault. -/
def missing {α : Type} (t : Token) (p : Position) (what purpose : String) : Parse α :=
  match t with
  | .fault f => refuse (.lexical f) p
  | _ => refuse (.missing what purpose) p

/-- Takes the given mark, which must stand here for the stated purpose. -/
def expectMark (m : Mark) (purpose : String) : Parse Unit := do
  let (t, p) ← next
  if t == .mark m then return () else missing t p m.text purpose

/-- Runs a step until it yields a result; every round takes a token, so the tokens left bound the rounds. -/
def iterate {α β : Type} (step : α → Parse (α ⊕ β)) (start : α) : Parse β := do
  rounds ((← get).tokens.length + 1) start
where
  rounds : Nat → α → Parse β
    | 0, _ => do refuse .unexpectedEnd (← peek).2
    | n + 1, a => do
      match ← step a with
      | .inl a => rounds n a
      | .inr b => return b

/-- Refuses what cannot begin an expression of a kind: a block, or nothing. -/
def refuseBlock (kind : String) : Parse Unit := do
  match ← peek with
  | (.mark .leftBrace, p) => refuse (.expressionExpected kind) p
  | (.ended, p) => refuse .unexpectedEnd p
  | _ => return ()

/-- Refuses an assignment behind a condition. -/
def refuseAssignment : Parse Unit := do
  match ← peek with
  | (.mark .equals, p) => refuse (.lexical (.improper "Possibly a typo of '=='?")) p
  | _ => return ()

/-- Takes the name of a variable. -/
def variableName : Parse (String × Position) := do
  match ← next with
  | (.identifier s, p) => return (s, p)
  | (.reserved s, p) =>
    if isProperName s.toList then refuse (.reservedWord s) p else refuse .variableExpected p
  | (.fault f, p) => refuse (.lexical f) p
  | (_, p) => refuse .variableExpected p

/-- The names of the functions parsed so far. -/
def isFunction (name : String) : Parse Bool := do
  return (← get).routines.any fun r => r.name = name && name ≠ ""

/-- Notes the use of a variable: whether the script declares it here; if not, the closure in hand takes it
from outside. -/
def access (name : String) (p : Place) : Parse Bool := do
  let c ← get
  let bound := c.locals.any (·.name = name)
  if c.captures then
    if !bound && !(← isFunction name) && !c.externals.any (·.1 = name) then
      set { c with externals := c.externals ++ [(name, p)] }
  else set { c with captures := true }
  return bound

/-- Declares a name. -/
def declare (name : String) (readOnly : Bool) : Parse Unit :=
  modify fun c => { c with locals := ⟨name, readOnly⟩ :: c.locals }

/-- Declares a name by a statement of the block, and tells whether the block had declared it before. -/
def redeclare (name : String) (readOnly : Bool) : Parse Bool := do
  let c ← get
  let inBlock := c.locals.length - c.blockStart
  let before := c.locals.take inBlock
  if before.any (·.name = name) then
    let i := before.findIdx (·.name = name)
    set { c with locals := c.locals.set i ⟨name, readOnly⟩ }
    return true
  else
    declare name readOnly
    return false

/-- Forgets the names declared since there were `n`. -/
def forget (n : Nat) : Parse Unit :=
  modify fun c => { c with locals := c.locals.drop (c.locals.length - n) }

end Parse

namespace Setting

/-- One level deeper. -/
def deeper (s : Setting) : Parse Setting :=
  if s.limit > 0 ∧ s.level + 1 > s.limit then Parse.refuse .tooDeep s.pos
  else return { s with level := s.level + 1 }

/-- One level deeper, at a position. -/
def deeperAt (s : Setting) (p : Position) : Parse Setting := deeper { s with pos := p }

end Setting

/-- The kinds of literal that are no condition, by name. -/
def Expr.literalKind? : Expr → Option String
  | .const (.int _) _ => some "a number"
  | .const (.float _) _ => some "a floating-point number"
  | .const (.char _) _ => some "a character"
  | .const (.string _) _ | .text _ _ => some "a string"
  | .const .unit _ => some "()"
  | .const (.array _) _ | .array _ _ => some "an array"
  | .const (.map _) _ | .map _ _ => some "an object map"
  -- a closure that takes nothing from outside is a literal
  | .closure _ [] _ => some "Fn"
  | _ => none

/-- Refuses a literal that can be no condition. -/
def Expr.asCondition (e : Expr) : Parse Expr :=
  match e.literalKind? with
  | some kind => throw ⟨.mismatched "a boolean expression" kind, e.start⟩
  | none => return e

/-- Refuses a literal that cannot be walked through. -/
def Expr.asIterable (e : Expr) : Parse Expr :=
  let refuse (kind : String) : Parse Expr := throw ⟨.mismatched "an iterable value" kind, e.start⟩
  match e with
  | .const .unit _ => refuse "()"
  | .const (.bool _) _ => refuse "a boolean"
  | .const (.int _) _ => refuse "a number"
  | .const (.float _) _ => refuse "a floating-point number"
  | .const (.char _) _ => refuse "a character"
  | .map _ _ => refuse "an object map"
  | _ => return e

mutual

/-- Whether an expression is put together from literals alone. -/
def Expr.isConstant : Expr → Bool
  | .const _ _ | .closure _ [] _ => true
  | .array items _ => Expr.areConstant items
  | .map members _ => Expr.membersConstant members
  | _ => false

/-- Whether expressions are put together from literals alone. -/
def Expr.areConstant : List Expr → Bool
  | [] => true
  | e :: rest => e.isConstant && Expr.areConstant rest

/-- Whether the members of a map are put together from literals alone. -/
def Expr.membersConstant : List (String × Expr) → Bool
  | [] => true
  | (_, e) :: rest => e.isConstant && Expr.membersConstant rest

end

mutual

/-- The value of a literal, if the expression is one. -/
def Expr.literal? : Expr → Option Value
  | .const v _ => some v
  | .array items _ => (Expr.literals? items).map .array
  | .map members _ => (Expr.literalMembers? members).map .map
  | .call _ (some .range) [.const l _, .const r _] _ => l.rangeBetween? r false
  | .call _ (some .rangeInclusive) [.const l _, .const r _] _ => l.rangeBetween? r true
  | _ => none

/-- The values of literals. -/
def Expr.literals? : List Expr → Option (List Value)
  | [] => some []
  | e :: rest =>
    match e.literal?, Expr.literals? rest with
    | some v, some vs => some (v :: vs)
    | _, _ => none

/-- The values of literal members, in the order of their keys. -/
def Expr.literalMembers? : List (String × Expr) → Option (List (String × Value))
  | [] => some []
  | (k, e) :: rest =>
    match e.literal?, Expr.literalMembers? rest with
    | some v, some vs => some (Json.insert k v vs)
    | _, _ => none

end

/-- Whether a statement ends without a semicolon. -/
def Stmt.endsItself : Stmt → Bool
  | .ifElse _ _ _ _ _ | .switch _ _ _ | .repeatWhile _ _ _ _ | .forIn _ _ _ _ _ _ | .block _ _
  | .tryCatch _ _ _ _ => true
  | _ => false

/-- Whether a statement does nothing and may be left out. -/
def Stmt.isNoop : Stmt → Bool
  | .noop _ => true
  | _ => false

/-- The parsers of the nested constructs, by which the parser of each construct refers to the others. -/
structure Grammar where
  expression : Setting → Parse Expr
  unary : Setting → Parse Expr
  primary : Setting → Parse Expr
  /-- Goes on behind an operand with operators that bind at least as tightly as a strength. -/
  binary : Nat → Expr → Setting → Parse Expr
  statement : Setting → Parse Stmt

end Lang
end ArmPilot
