import ArmPilot.Lang.Parser.Expression
import ArmPilot.Lang.Lexer

/-!
# Parsing statements

Declarations, loops, functions and the rest of what may stand in a script that is run.
-/

namespace ArmPilot
namespace Lang
namespace Grammar

/-- A declaration behind its first word. -/
def declaration (g : Grammar) (readOnly : Bool) (s : Setting) : Parse Stmt := do
  let s ← s.deeper
  let (_, p) ← Parse.next
  let s := { s with pos := p }
  let (name, _) ← Parse.variableName
  let value ← (do
    if ← Parse.acceptMark .equals then g.expression (← s.deeper) else return Expr.const .unit none)
  let replaces ← Parse.redeclare name readOnly
  return .declare name value readOnly replaces (some p)

/-- A loop with its condition in front, or without one. -/
def whileLoop (g : Grammar) (s : Setting) : Parse Stmt := do
  let s ← s.deeper
  let (t, p) ← Parse.next
  let s := { s with pos := p }
  let cond ← (if t == .word .whileWord then some <$> g.condition s else pure none)
  let (body, q) ← g.block { s with inLoop := true }
  return .repeatWhile cond body (some q) (some p)

/-- A loop with its condition behind. -/
def doLoop (g : Grammar) (s : Setting) : Parse Stmt := do
  let s ← s.deeper
  let (_, p) ← Parse.next
  let s := { s with pos := p }
  let (body, q) ← g.block { s with inLoop := true }
  let negated ← (do
    match ← Parse.next with
    | (.word .whileWord, _) => return false
    | (.word .untilWord, _) => return true
    | (_, q) => Parse.refuse (.missing "while" "for the do statement") q)
  return .doWhile body (← g.condition s) negated (some q) (some p)

/-- A closing parenthesis that must stand here. -/
def closing (purpose : String) : Parse Unit := do
  if !(← Parse.acceptMark .rightParen) then Parse.refuse (.missing ")" purpose) (← Parse.peek).2

/-- The variables of a loop over items. -/
def loopVariables : Parse (String × Option String) := do
  if ← Parse.acceptMark .leftParen then
    let (name, _) ← Parse.variableName
    if !(← Parse.acceptMark .comma) then
      Parse.refuse (.missing "," "after the iteration variable name") (← Parse.peek).2
    let (counter, p) ← Parse.variableName
    if counter = name then Parse.refuse (.duplicatedVariable counter) p
    closing "to close the iteration variable"
    return (name, some counter)
  else return ((← Parse.variableName).1, none)

/-- A loop over items. -/
def forLoop (g : Grammar) (s : Setting) : Parse Stmt := do
  let s ← s.deeper
  let (_, p) ← Parse.next
  let s := { s with pos := p }
  let (name, counter) ← loopVariables
  let (t, q) ← Parse.next
  if t != .word .inWord then Parse.missing t q "in" "after the iteration variable"
  Parse.refuseBlock "a boolean"
  let source ← (← g.expression (← s.deeper)).asIterable
  let before := (← get).locals.length
  if let some c := counter then Parse.declare c false
  Parse.declare name false
  let (body, q) ← g.block { s with inLoop := true }
  Parse.forget before
  return .forIn name counter source body (some q) (some p)

/-- A block whose errors are caught. -/
def tryBlock (g : Grammar) (s : Setting) : Parse Stmt := do
  let s ← s.deeper
  let (_, p) ← Parse.next
  let s := { s with pos := p }
  let (body, _) ← g.block s
  if !(← Parse.accept (.word .catchWord)) then
    Parse.refuse (.missing "catch" "for the 'try' statement") (← Parse.peek).2
  let before := (← get).locals.length
  let name ← (do
    if ← Parse.acceptMark .leftParen then
      let (name, _) ← Parse.variableName
      closing "to enclose the catch variable"
      Parse.declare name false
      return some name
    else return none)
  let (handler, _) ← g.block s
  Parse.forget before
  return .tryCatch body name handler (some p)

/-- The name of a function, and the type of the values that it is called on if it is kept for one. -/
def functionName : Parse (Option String × String) := do
  let (t, p) ← Parse.next
  match t, (← Parse.peek).1 with
  | .string type, .mark .period | .identifier type, .mark .period =>
    let _ ← Parse.next
    let (t, p) ← Parse.next
    return (some (typeNamed type), ← name t p)
  | .string _, _ => Parse.refuse (.missing "." "after the type name for 'this'") (← Parse.peek).2
  | t, _ => return (none, ← name t p)
where
  typeNamed (s : String) : String := if s = "int" then "i64" else if s = "float" then "f64" else s
  name (t : Token) (p : Position) : Parse String :=
    match t with
    | .identifier n => return n
    | .reserved w => Parse.refuse (.reservedWord w) p
    | _ => Parse.refuse .missingFunctionName p

/-- A function, behind its first word. -/
def function (g : Grammar) (p : Position) (s : Setting) : Parse Stmt := do
  let outer ← get
  set { outer with locals := [], blockStart := 0, externals := [], captures := true }
  let s := { s with level := 0, limit := s.functionLimit, pos := p, statements := true, blocks := true,
                    inFunction := true, inLoop := false, outermost := false, stopsAtPipe := false }
  let (receiver, name) ← functionName
  let parameters ← (do
    if ← Parse.acceptMark .unit then return []
    else if ← Parse.acceptMark .leftParen then
      parameterNames name .rightParen ("function '" ++ name ++ "'") ("function '" ++ name ++ "'")
    else Parse.refuse (.missingParameters name) (← Parse.peek).2)
  modify fun c => { c with locals := parameters.reverse.map (⟨·, false⟩) }
  match ← Parse.peek with
  | (.mark .leftBrace, _) =>
    let (body, _) ← g.block s
    if (← get).routines.any fun r =>
        r.name = name && r.parameters.length = parameters.length && r.receiver = receiver then
      Parse.refuse (.duplicatedFunction name parameters.length) p
    modify fun c => { c with locals := outer.locals, blockStart := outer.blockStart,
                             externals := outer.externals, captures := outer.captures,
                             routines := ⟨name, receiver, parameters, body, some p⟩ :: c.routines }
    return .noop (some p)
  | (_, q) => Parse.refuse (.missingBody name) q

/-- The value behind a word that leaves a loop or a function, if there is one. -/
def leavingValue (g : Grammar) (s : Setting) : Parse (Option Expr) := do
  let (t, _) ← Parse.peek
  if t.startsExpression then return some (← g.expression (← s.deeper)) else return none

/-- A statement. -/
def statementWith (g : Grammar) (s : Setting) : Parse Stmt := do
  let (t, p) ← Parse.peek
  let s := { s with pos := p }
  match t with
  | .ended => return .noop (some p)
  | .mark .semicolon =>
    let _ ← Parse.next
    return .noop (some p)
  | .mark .leftBrace =>
    let (stmts, q) ← g.block s
    return .block stmts (some q)
  | .word .fnWord =>
    if !s.outermost then Parse.refuse .misplacedFunction p
    let _ ← Parse.next
    g.function p s
  | .word .privateWord =>
    let _ ← Parse.next
    let (u, q) ← Parse.next
    if u != .word .fnWord then Parse.refuse (.missing "fn" "following 'private'") q
    -- unlike others, a private function may stand anywhere
    g.function q s
  | .word .ifWord => g.conditional s
  | .word .switchWord => g.switching s
  | .word .whileWord | .word .loopWord => g.whileLoop s
  | .word .doWord => g.doLoop s
  | .word .forWord => g.forLoop s
  | .word .tryWord => g.tryBlock s
  | .word .letWord => g.declaration false s
  | .word .constWord => g.declaration true s
  | .word .continueWord =>
    if !s.inLoop then Parse.refuse .breakOutsideLoop p
    let _ ← Parse.next
    return .leave false none (some p)
  | .word .breakWord =>
    if !s.inLoop then Parse.refuse .breakOutsideLoop p
    let _ ← Parse.next
    return .leave true (← g.leavingValue s) (some p)
  | .word .returnWord | .word .throwWord =>
    let _ ← Parse.next
    return .giveBack (t == .word .throwWord) (← g.leavingValue s) (some p)
  | _ => g.expressionStatement s

end Grammar

/-- The grammar with constructs nested to a depth. -/
def grammar : Nat → Grammar
  | 0 =>
    let deep {α : Type} : Parse α := do Parse.refuse .tooDeep (← Parse.peek).2
    ⟨fun _ => deep, fun _ => deep, fun _ => deep, fun _ _ _ => deep, fun _ => deep⟩
  | n + 1 =>
    { expression := fun s => (grammar n).expressionWith s
      unary := fun s => (grammar n).unaryWith s
      primary := fun s => (grammar n).primaryWith s
      binary := fun strength e s => (grammar n).binaryWith strength e s
      statement := fun s => (grammar n).statementWith s }

/-- The bounds on scripts that are parsed. -/
structure Bounds where
  depth : Nat
  functionDepth : Nat
  maxString : Nat
  maxArray : Nat
  maxMap : Nat
deriving Repr, DecidableEq

/-- The bounds on scripts that are only checked. -/
def Bounds.checked : Bounds := ⟨64, 32, 0, 0, 0⟩

namespace Bounds

/-- What is allowed at the start of a script, or of an expression that stands alone. -/
def setting (b : Bounds) (statements : Bool) : Setting :=
  { level := 0, limit := b.depth, functionLimit := b.functionDepth, maxArray := b.maxArray,
    maxMap := b.maxMap, pos := ⟨1, 1⟩, statements := statements, blocks := statements,
    inFunction := false, inLoop := false, outermost := true, stopsAtPipe := false, behindDot := false }

/-- A parser at the start of a text. -/
def cursor (b : Bounds) (text : String) : Cursor := ⟨tokenize b.maxString text, [], 0, [], true, []⟩

/-- A depth that no text of so many tokens can exceed: every nested construct takes a token, through at most
eight of the nested parsers. -/
def fuel (c : Cursor) : Nat := 8 * (c.tokens.length + 2)

/-- The statements of a script. -/
def statements (b : Bounds) (g : Grammar) : Parse (List Stmt) :=
  Parse.iterate (fun (stmts : List Stmt) => do
    match ← Parse.peek with
    | (.ended, _) => return .inr stmts.reverse
    | _ =>
      let stmt ← g.statement (b.setting true)
      if stmt.isNoop then return .inl stmts
      let stmts := stmt :: stmts
      match ← Parse.peek with
      | (.ended, _) => return .inr stmts.reverse
      | (.mark .semicolon, _) =>
        if !stmt.endsItself then
          let _ ← Parse.next
        return .inl stmts
      | (t, p) =>
        if stmt.endsItself then return .inl stmts
        else Parse.missing t p ";" "to terminate this statement") []

/-- An expression with nothing behind it. -/
def expression (b : Bounds) (g : Grammar) : Parse Expr := do
  let e ← g.expression (b.setting false)
  match ← Parse.peek with
  | (.ended, _) => return e
  | (t, p) => Parse.refuse (.lexical (.unexpected t.text)) p

/-- Parses a script, whose functions have numbers from `first` on when it runs. -/
def parseScript (b : Bounds) (first : Nat) (text : String) : Except SyntaxError Program :=
  let c := b.cursor text
  match (b.statements (grammar (fuel c))).run c with
  | .error e => .error e
  | .ok (body, c) => .ok ⟨body, first, c.routines.reverse⟩

/-- Parses an expression that stands alone. -/
def parseExpression (b : Bounds) (first : Nat) (text : String) : Except SyntaxError Program :=
  let c := b.cursor text
  match (b.expression (grammar (fuel c))).run c with
  | .error e => .error e
  | .ok (e, c) => .ok ⟨[.expr e], first, c.routines.reverse⟩

end Bounds

end Lang
end ArmPilot
