import ArmPilot.Lang.Parser.Basic

/-!
# Parsing expressions

Operands, the properties, indices and calls behind them, and operators by their strength.  Each parser
takes the `Grammar` that it uses for what is nested in it.
-/

namespace ArmPilot
namespace Lang
namespace Grammar

/-- Whether a token ends the expression in hand. -/
def ends (s : Setting) (t : Token) : Bool := s.stopsAtPipe && t == .mark .pipe

/-- Whether a token is a reserved symbol, which is no operator. -/
def reservedSymbol? : Token → Option String
  | .reserved c => if isProperName c.toList then none else some c
  | _ => none

/-- The arguments of a call behind its opening parenthesis. -/
def arguments (g : Grammar) (name : String) (empty : Bool) (s : Setting) : Parse (List Expr) := do
  if empty then return []
  match ← Parse.peek with
  | (.ended, p) =>
    Parse.refuse (.missing ")" ("to close the arguments list of this function call '" ++ name ++ "'")) p
  | (.fault f, p) => Parse.refuse (.lexical f) p
  | (.mark .rightParen, _) =>
    let _ ← Parse.next
    return []
  | _ =>
    let s ← s.deeper
    Parse.iterate (fun (args : List Expr) => do
      let args ← (do
        match ← Parse.peek with
        | (.mark .rightParen, _) => return args
        | _ => return (← g.expression s) :: args)
      match ← Parse.peek with
      | (.mark .rightParen, _) =>
        let _ ← Parse.next
        return .inr args.reverse
      | (.mark .comma, _) =>
        let _ ← Parse.next
        return .inl args
      | (.ended, p) =>
        Parse.refuse (.missing ")" ("to close the arguments list of this function call '" ++ name ++ "'")) p
      | (t, p) => Parse.missing t p "," ("to separate the arguments to function call '" ++ name ++ "'")) []

/-- An expression between parentheses. -/
def parenthesized (g : Grammar) (s : Setting) : Parse Expr := do
  let (_, p) ← Parse.next
  let s ← s.deeperAt p
  let e ← g.expression s
  Parse.expectMark .rightParen "for a matching ( in this expression"
  return e

/-- The items of an array literal. -/
def arrayLiteral (g : Grammar) (s : Setting) : Parse Expr := do
  let (_, p) ← Parse.next
  let s ← s.deeperAt p
  let items ← Parse.iterate (fun (items : List Expr) => do
    if s.maxArray > 0 ∧ items.length ≥ s.maxArray then
      Parse.refuse (.literalTooLarge "Size of array literal" s.maxArray) (← Parse.peek).2
    match ← Parse.peek with
    | (.mark .rightBracket, _) =>
      let _ ← Parse.next
      return .inr items.reverse
    | (.ended, p) => Parse.refuse (.missing "]" "to end this array literal") p
    | _ =>
      let items := (← g.expression (← s.deeper)) :: items
      match ← Parse.peek with
      | (.mark .comma, _) =>
        let _ ← Parse.next
        return .inl items
      | (.mark .rightBracket, _) => return .inl items
      | (.ended, p) => Parse.refuse (.missing "]" "to end this array literal") p
      | (t, p) => Parse.missing t p "," "to separate the items of this array literal") []
  return .array items (some p)

/-- The name of a member of a map literal. -/
def memberName (members : List (String × Expr)) : Parse (String × Position) := do
  match ← Parse.next with
  | (.identifier n, p) | (.string n, p) =>
    if members.any (·.1 = n) then Parse.refuse (.duplicatedProperty n) p else return (n, p)
  | (.textPart _, p) => Parse.refuse .propertyExpected p
  | (.reserved w, p) =>
    if isProperName w.toList then Parse.refuse (.reservedWord w) p
    else if members.isEmpty then Parse.refuse (.missing "\x7d" "to end this object map literal") p
    else Parse.refuse .propertyExpected p
  | (.fault f, p) => Parse.refuse (.lexical f) p
  | (.ended, p) => Parse.refuse (.missing "\x7d" "to end this object map literal") p
  | (_, p) =>
    if members.isEmpty then Parse.refuse (.missing "\x7d" "to end this object map literal") p
    else Parse.refuse .propertyExpected p

/-- The members of a map literal. -/
def mapLiteral (g : Grammar) (s : Setting) : Parse Expr := do
  let (_, p) ← Parse.next
  let s ← s.deeperAt p
  let members ← Parse.iterate (fun (members : List (String × Expr)) => do
    match ← Parse.peek with
    | (.mark .rightBrace, _) =>
      let _ ← Parse.next
      return .inr members.reverse
    | (.ended, p) => Parse.refuse (.missing "\x7d" "to end this object map literal") p
    | _ =>
      let (name, _) ← memberName members
      Parse.expectMark .colon ("to follow the property '" ++ name ++ "' in this object map literal")
      if s.maxMap > 0 ∧ members.length ≥ s.maxMap then
        Parse.refuse (.literalTooLarge "Number of properties in object map literal" s.maxMap) (← Parse.peek).2
      let members := (name, ← g.expression (← s.deeper)) :: members
      match ← Parse.peek with
      | (.mark .comma, _) =>
        let _ ← Parse.next
        return .inl members
      | (.mark .rightBrace, _) => return .inl members
      | (.identifier _, p) =>
        Parse.refuse (.missing "," "to separate the items of this object map literal") p
      | (t, p) => Parse.missing t p "\x7d" "to end this object map literal") []
  return .map members (some p)

/-- Advice against an index that can never be right for a literal. -/
def indexAdvice? (root index : Expr) : Option String :=
  match root with
  | .map _ _ =>
    match index with
    | .const (.int _) _ => some "Object map expects string index, not a number"
    | .const (.float _) _ => some "Object map expects string index, not a float"
    | .const (.char _) _ => some "Object map expects string index, not a character"
    | .const .unit _ => some "Object map expects string index, not ()"
    | .const (.bool _) _ | .and _ _ _ | .or _ _ _ => some "Object map expects string index, not a boolean"
    | _ => none
  | .const (.int _) _ | .const (.string _) _ | .array _ _ | .text _ _ =>
    match index with
    | .const (.string _) _ | .text _ _ => some "Array, string or bit-field expects numeric index, not a string"
    | .const (.float _) _ => some "Array, string or bit-field expects integer index, not a float"
    | .const (.char _) _ => some "Array, string or bit-field expects integer index, not a character"
    | .const .unit _ => some "Array, string or bit-field expects integer index, not ()"
    | .const (.bool _) _ | .and _ _ _ | .or _ _ _ =>
      some "Array, string or bit-field expects integer index, not a boolean"
    | _ => none
  | _ => none

/-- An expression with one more link behind it. -/
def addLinks (e : Expr) (links : List Link) (p : Position) : Expr :=
  match e with
  | .chain root before pos => .chain root (before ++ links) pos
  | e => .chain e links (some p)

/-- The index expressions behind an opening bracket, and those of the brackets that follow at once. -/
def indexLinks (g : Grammar) (root : Expr) (optional : Bool) (p : Position) (s : Setting) :
    Parse (List Link) :=
  Parse.iterate (fun (state : List Link × Bool × Position × Setting) => do
    let (links, optional, p, s) := state
    let index ← g.expression (← s.deeper)
    if links.isEmpty then
      if let some advice := indexAdvice? root index then
        throw ⟨.malformedIndex advice, index.start⟩
    Parse.expectMark .rightBracket "for a matching [ in this index expression"
    let links := .index index ⟨optional, some p⟩ :: links
    match ← Parse.peek with
    | (.mark .leftBracket, p) =>
      let _ ← Parse.next
      return .inl (links, false, p, ← s.deeperAt p)
    | (.mark .questionBracket, p) =>
      let _ ← Parse.next
      return .inl (links, true, p, ← s.deeperAt p)
    | _ => return .inr links.reverse) ([], optional, p, s)

/-- What stands behind a dot, as links. -/
def dotLinks (rhs : Expr) (joint : Joint) : Parse (List Link) :=
  let first : Expr → Parse Link
    | .var name _ p => return .property name joint p
    | .call name none args p => return .method name args joint p
    | .scopedCall _ _ p => throw ⟨.malformedCapture
        "method-call style does not support running within the caller's scope", p⟩
    | e => throw ⟨.propertyExpected, e.start⟩
  match rhs with
  -- a call with something behind it is a call like any other
  | .chain (.scopedCall name args p) links _ => return .method name args joint p :: links
  | .chain root links _ => do return (← first root) :: links
  | e => do return [← first e]

/-- The properties, indices and arguments behind an operand. -/
def postfixed (g : Grammar) (e : Expr) (s : Setting) : Parse Expr :=
  Parse.iterate (fun (e : Expr) => do
    let (t, p) ← Parse.peek
    if ends s t then return .inr e
    match t, e with
    | .mark .period, _ => dotted e false p
    | .mark .elvis, _ => dotted e true p
    | .mark .leftBracket, _ => indexed e false p
    | .mark .questionBracket, _ => indexed e true p
    | .mark .leftParen, .var name _ pos | .mark .unit, .var name _ pos => do
      let _ ← Parse.next
      return .inl (.call name none (← g.arguments name (t == .mark .unit) { s with pos := pos.getD p }) pos)
    | .mark .leftParen, .qualified path name pathPos pos | .mark .unit, .qualified path name pathPos pos => do
      let _ ← Parse.next
      let args ← g.arguments name (t == .mark .unit) { s with pos := pos.getD p }
      return .inl (.moduleCall path name args pathPos pos)
    | .mark .bang, .var name _ pos => do
      let _ ← Parse.next
      match ← Parse.next with
      | (.mark .leftParen, _) =>
        return .inl (.scopedCall name (← g.arguments name false { s with pos := pos.getD p }) pos)
      | (.mark .unit, _) => return .inl (.scopedCall name [] pos)
      | (_, p) => Parse.refuse (.missing "(" "to start arguments list of function call") p
    | .mark .bang, .qualified _ _ _ _ => do
      let _ ← Parse.next
      let (u, _) ← Parse.peek
      if u == .mark .leftParen || u == .mark .unit then Parse.refuse (.lexical (.unexpected "!")) p
      else Parse.refuse (.lexical (.improper "'!' cannot be used to call module functions")) p
    | .mark .doubleColon, .var name _ pos => do
      let _ ← Parse.next
      let (second, p) ← Parse.variableName
      return .inl (.qualified [name] second pos (some p))
    | .mark .doubleColon, .qualified path name pathPos _ => do
      let _ ← Parse.next
      let (second, p) ← Parse.variableName
      return .inl (.qualified (path ++ [name]) second pathPos (some p))
    | _, _ => return .inr e) e
where
  dotted (e : Expr) (optional : Bool) (p : Position) : Parse (Expr ⊕ Expr) := do
    let _ ← Parse.next
    match ← Parse.peek with
    | (.identifier _, _) => modify fun c => { c with captures := false }
    | (.reserved w, q) => if !isMethodWord w then Parse.refuse (.reservedWord w) q
    | (_, q) => Parse.refuse .propertyExpected q
    let rhs ← g.primary { (← s.deeperAt p) with behindDot := true }
    return .inl (addLinks e (← dotLinks rhs ⟨optional, some p⟩) p)
  indexed (e : Expr) (optional : Bool) (p : Position) : Parse (Expr ⊕ Expr) := do
    let _ ← Parse.next
    return .inl (addLinks e (← g.indexLinks e optional p (← s.deeperAt p)) p)

/-- An expression that stands as a statement, or an assignment to it. -/
def expressionStatement (g : Grammar) (s : Setting) : Parse Stmt := do
  let s := { (← s.deeper) with pos := (← Parse.peek).2 }
  let target ← g.expression s
  let assigned (op : Option Mark) (p : Position) : Parse Stmt := do
    let _ ← Parse.next
    let value ← g.expression { s with pos := p }
    assign op target value p
  match ← Parse.peek with
  | (.mark .equals, p) => assigned none p
  | (.mark m, p) =>
    match m.assigned? with
    | some op => assigned (some op) p
    | none => return .expr target
  | _ => return .expr target
where
  /-- An assignment, if the target is a place that holds values. -/
  assign (op : Option Mark) (target value : Expr) (p : Position) : Parse Stmt := do
    let stmt : Stmt := .assign op target value (some p)
    match target with
    | .this _ => return stmt
    | .var name true pos =>
      let binding := (← get).locals.find? (·.name = name)
      if (binding.map (·.readOnly)).getD false then throw ⟨.assignmentToConstant name, pos⟩ else return stmt
    | .var _ false _ | .qualified _ _ _ _ => return stmt
    | .chain root links _ =>
      match links.find? Link.isCall with
      | some l => throw ⟨.assignmentToExpression, l.place⟩
      | none =>
        match root with
        | .var _ _ _ | .qualified _ _ _ _ | .this _ => return stmt
        | e => throw ⟨.assignmentToExpression, e.place⟩
    | .and _ _ _ | .or _ _ _ | .coalesce _ _ _ =>
      if op.isNone then Parse.refuse (.lexical (.improper "Possibly a typo of '=='?")) p
      else throw ⟨.assignmentToExpression, target.place⟩
    | e =>
      if e.isConstant then throw ⟨.assignmentToConstant "", e.start⟩
      else throw ⟨.assignmentToExpression, e.place⟩

/-- A block: its statements and its position. -/
def block (g : Grammar) (s : Setting) : Parse (List Stmt × Position) := do
  let s ← s.deeper
  let (t, p) ← Parse.next
  if t != .mark .leftBrace then Parse.missing t p "\x7b" "to start a statement block"
  let s := { s with pos := p }
  if !s.statements then
    let stmt ← g.expressionStatement s
    Parse.expectClose
    return ([stmt], p)
  let before := (← get).blockStart
  modify fun c => { c with blockStart := c.locals.length }
  let s := { s with outermost := false }
  let stmts ← Parse.iterate (fun (stmts : List Stmt) => do
    match ← Parse.peek with
    | (.mark .rightBrace, _) =>
      let _ ← Parse.next
      return .inr stmts.reverse
    | (.ended, p) => Parse.refuse (.missing "\x7d" "to terminate this block") p
    | _ =>
      let stmt ← g.statement (← s.deeper)
      if stmt.isNoop then return .inl stmts
      let stmts := stmt :: stmts
      match ← Parse.peek with
      | (.mark .rightBrace, _) =>
        let _ ← Parse.next
        return .inr stmts.reverse
      | (.mark .semicolon, _) =>
        let _ ← Parse.next
        return .inl stmts
      | (t, p) =>
        if stmt.endsItself then return .inl stmts
        else Parse.missing t p ";" "to terminate this statement") []
  Parse.forget (← get).blockStart
  modify fun c => { c with blockStart := before }
  return (stmts, p)
where
  Parse.expectClose : Parse Unit := do
    let (t, p) ← Parse.next
    if t == .mark .rightBrace then return () else Parse.missing t p "\x7b" "to start a statement block"

/-- The condition of a statement. -/
def condition (g : Grammar) (s : Setting) : Parse Expr := do
  Parse.refuseBlock "a boolean"
  let e ← (← g.expression (← s.deeper)).asCondition
  Parse.refuseAssignment
  return e

/-- A choice between blocks. -/
def conditional (g : Grammar) (s : Setting) : Parse Stmt := do
  let s ← s.deeper
  let (_, p) ← Parse.next
  let s := { s with pos := p }
  let cond ← g.condition s
  let (thenPart, thenPos) ← g.block s
  if ← Parse.accept (.word .elseWord) then
    match ← Parse.peek with
    | (.word .ifWord, _) => return .ifElse cond thenPart (some thenPos) [← g.statement s] (some p)
    | _ => return .ifElse cond thenPart (some thenPos) (← g.block s).1 (some p)
  return .ifElse cond thenPart (some thenPos) [] (some p)

/-- The values of a case, up to its condition or its arrow. -/
def caseValues (g : Grammar) (s : Setting) : Parse (List Expr) :=
  Parse.iterate (fun (values : List Expr) => do
    let c ← get
    -- any fault in a case value is reported as a missing literal
    match (do g.expression (← { s with stopsAtPipe := true }.deeper) : Parse Expr).run c with
    | .error e => throw ⟨.expressionExpected "literal", e.place⟩
    | .ok (e, c) =>
      set c
      if ← Parse.acceptMark .pipe then return .inl (e :: values)
      else return .inr (e :: values).reverse) []

/-- The values that a case stands for; `ranged` says that a range came before. -/
def literalCases (ranged : Bool) : List Expr → Parse (List Value × Bool)
  | [] => return ([], ranged)
  | e :: rest => do
    match e.literal? with
    | none => throw ⟨.expressionExpected "a literal", e.start⟩
    | some (.range a b incl) =>
      let (vs, ranged') ← literalCases (ranged || a < b || (incl && a == b)) rest
      return (.range a b incl :: vs, ranged')
    | some v =>
      let numeric := match v with | .int _ | .float _ => true | _ => false
      if ranged && numeric then throw ⟨.integerAfterRange, e.start⟩
      let (vs, ranged') ← literalCases ranged rest
      return (v :: vs, ranged')

/-- A choice by value. -/
def switching (g : Grammar) (s : Setting) : Parse Stmt := do
  let s ← s.deeper
  let (_, p) ← Parse.next
  let s := { s with pos := p }
  let value ← g.expression (← s.deeper)
  Parse.expectMark .leftBrace "to start a switch block"
  let cases ← Parse.iterate (fun (state : List Case × Option Position × Bool) => do
    let (cases, default, ranged) := state
    match ← Parse.peek with
    | (.mark .rightBrace, _) =>
      let _ ← Parse.next
      return .inr cases.reverse
    | (.ended, p) => unfinished .rightBrace p
    | (t, p) =>
      let (values, cond, default') ← (do
        match t, default with
        | _, some q => Parse.refuse .misplacedDefaultCase q
        | .word .underscore, none =>
          let _ ← Parse.next
          match ← Parse.peek with
          | (.word .ifWord, q) => Parse.refuse .conditionOnDefaultCase q
          | _ => return ([], none, some p)
        | _, none =>
          let values ← g.caseValues s
          if ← Parse.accept (.word .ifWord) then return (values, some (← g.condition s), none)
          else return (values, none, none))
      Parse.expectMark .doubleArrow "in this switch case"
      let (action, endsItself) ← (do
        if s.statements then
          let stmt ← g.statement (← s.deeper)
          return (stmt.asExpr, stmt.endsItself)
        else return (← g.expression (← s.deeper), false))
      let (literals, ranged) ← literalCases ranged values
      let cases := .case literals cond action :: cases
      let state := (cases, default', ranged)
      match ← Parse.peek with
      | (.mark .comma, _) =>
        let _ ← Parse.next
        return .inl state
      | (.mark .rightBrace, _) => return .inl state
      | (.ended, p) => unfinished .rightParen p
      | (.fault f, p) => Parse.refuse (.lexical f) p
      | (_, p) =>
        if endsItself then return .inl state
        else Parse.refuse (.missing "," "to separate the items in this switch block") p) ([], none, false)
  return .switch value cases (some p)
where
  unfinished {α : Type} (m : Mark) (p : Position) : Parse α :=
    Parse.refuse (.missing m.text "to end this switch block") p

/-- Whether a token in place of a parameter is taken for a word that is no name; any other should close the list. -/
def resemblesName : Token → Bool
  | .word .switchWord | .word .notIn | .word .underscore => false
  | .word _ => true
  | _ => false

/-- The name of a parameter, in a list that a mark closes. -/
def parameterName (close : Mark) (owner : String) : Parse (String × Position) := do
  match ← Parse.next with
  | (.identifier n, p) => return (n, p)
  | (.fault f, p) => Parse.refuse (.lexical f) p
  | (.reserved w, p) => Parse.refuse (.reservedWord w) p
  | (t, p) =>
    if resemblesName t then Parse.refuse .variableExpected p
    else Parse.refuse (.missing close.text ("to close the parameters list of " ++ owner)) p

/-- The parameters of a function or a closure up to the mark that closes them; a closure has no name.  Messages
name the owner of the list, and that of a mark between parameters. -/
def parameterNames (function : String) (close : Mark) (owner separated : String) : Parse (List String) :=
  Parse.iterate (fun (names : List String) => do
    if ← Parse.acceptMark close then return .inr names.reverse
    let (n, p) ← parameterName close owner
    if names.contains n then Parse.refuse (.duplicatedParameter function n) p
    let names := n :: names
    match ← Parse.next with
    | (.mark .comma, _) => return .inl names
    | (t, p) =>
      if t == .mark close then return .inr names.reverse
      else Parse.missing t p "," ("to separate the parameters of " ++ separated)) []

/-- A closure. -/
def closure (g : Grammar) (s : Setting) : Parse Expr := do
  let s ← s.deeper
  let (t, p) ← Parse.next
  let s := { s with pos := p, blocks := true, inFunction := true, inLoop := false, outermost := false,
                    stopsAtPipe := false }
  let parameters ← (if t == .mark .orOr then pure []
    else parameterNames "" .pipe "anonymous function or closure" "anonymous function")
  let outer ← get
  set { outer with locals := parameters.reverse.map (⟨·, false⟩), blockStart := 0, externals := [],
                   captures := true }
  let body ← g.statement s
  let inner ← get
  set { inner with locals := outer.locals, blockStart := outer.blockStart, externals := outer.externals,
                   captures := true }
  -- what the closure takes from outside is used here
  for (name, q) in inner.externals do
    let _ ← Parse.access name q
  let number := inner.routines.length
  let routine : Routine := ⟨"", none, inner.externals.map (·.1) ++ parameters, [body], some p⟩
  modify fun c => { c with routines := routine :: c.routines }
  return .closure number (inner.externals.map fun (name, q) => .var name true q) (some p)

/-- A text with embedded blocks. -/
def interpolated (g : Grammar) (s : Setting) : Parse Expr := do
  let (t, p) ← Parse.next
  let piece (text : String) (q : Position) (parts : List Expr) : List Expr :=
    if text = "" then parts else .const (.string text) (some q) :: parts
  let start : List Expr := match t with
    | .textPart text => piece text p []
    | _ => []
  let parts ← Parse.iterate (fun (parts : List Expr) => do
    let (stmts, q) ← g.block s
    let parts := .block stmts (some q) :: parts
    match ← Parse.next with
    | (.string text, q) => return .inr (piece text q parts).reverse
    | (.textPart text, q) => return .inl (piece text q parts)
    | (.fault f, q) => Parse.refuse (.lexical f) q
    -- nothing is left of the script behind the block
    | _ => throw ⟨.lexical .unterminatedString, none⟩) start
  if parts.isEmpty then return .const (.string "") (some p) else return .text parts (some p)

/-- An operand without what stands behind it. -/
def operand (g : Grammar) (s : Setting) : Parse Expr := do
  let (t, p) ← Parse.peek
  let s := { s with pos := p }
  let literal (v : Value) : Parse Expr := do
    let _ ← Parse.next
    return .const v (some p)
  match t with
  | .ended => Parse.refuse .unexpectedEnd p
  | .mark .unit => literal .unit
  | .int n => literal (.int n)
  | .float x _ => literal (.float x)
  | .char c => literal (.char c)
  | .string text => literal (.string text)
  | .word .trueWord => literal (.bool true)
  | .word .falseWord => literal (.bool false)
  | .mark .leftParen => g.parenthesized s
  | .mark .leftBracket => g.arrayLiteral s
  | .mark .mapStart => g.mapLiteral s
  | .textPart _ => g.interpolated s
  | .word .ifWord =>
    let stmt ← g.conditional s
    return .block [stmt] stmt.place
  | .word .switchWord =>
    let stmt ← g.switching s
    return .block [stmt] stmt.place
  | .mark .pipe | .mark .orOr => g.closure s
  | .mark .leftBrace =>
    if s.blocks then
      let (stmts, q) ← g.block s
      return .block stmts (some q)
    else Parse.refuse (.lexical (.unexpected t.text)) p
  | .word .whileWord | .word .loopWord | .word .doWord | .word .forWord =>
    if s.blocks then
      let stmt ← g.statement s
      return .block [stmt] stmt.place
    else Parse.refuse (.lexical (.unexpected t.text)) p
  | .identifier name =>
    let _ ← Parse.next
    match ← Parse.peek with
    | (.mark .leftParen, _) | (.mark .bang, _) | (.mark .unit, _) =>
      modify fun c => { c with captures := true }
      return .var name false (some p)
    | (.mark .doubleColon, q) =>
      if s.behindDot then Parse.refuse (.lexical (.misplaced Mark.doubleColon.text)) q
      modify fun c => { c with captures := true }
      return .var name false (some p)
    | _ => return .var name (← Parse.access name (some p)) (some p)
  | .reserved w =>
    let _ ← Parse.next
    let (u, _) ← Parse.peek
    if isCallableWord w && (u == .mark .leftParen || u == .mark .bang || u == .mark .unit) then
      return .var w false (some p)
    else if w = "this" then
      if s.inFunction then return .this (some p)
      else Parse.refuse (.lexical (.improper "'this' can only be used in functions")) p
    else Parse.refuse (.reservedWord w) p
  | .fault f => Parse.refuse (.lexical f) p
  | t => Parse.refuse (.lexical (.unexpected t.text)) p

/-- An operand with what stands behind it. -/
def primaryWith (g : Grammar) (s : Setting) : Parse Expr := do
  let (t, p) ← Parse.peek
  if ends s t then Parse.refuse (.lexical (.unexpected t.text)) p
  let e ← g.operand s
  g.postfixed e { s with pos := p }

/-- An operand with the signs in front of it. -/
def unaryWith (g : Grammar) (s : Setting) : Parse Expr := do
  let (t, p) ← Parse.peek
  if ends s t then Parse.refuse (.lexical (.unexpected t.text)) p
  let signed (m : Mark) (literal : Value → Option Value) : Parse Expr := do
    let _ ← Parse.next
    let e ← g.unary (← s.deeperAt p)
    match e with
    | .const v q =>
      match literal v with
      | some v => return .const v (if m == .plus then q else some p)
      | none => return .call m.text (some m) [e] (some p)
    | _ => return .call m.text (some m) [e] (some p)
  match t with
  | .mark .minus | .mark .unaryMinus => signed .minus fun
    | .int n => some (if n = Word.least then .float (-(Decimal.ofInt n)) else .int (-n))
    | .float x => some (.float (-x))
    | _ => none
  | .mark .plus | .mark .unaryPlus => signed .plus fun
    | .int n => some (.int n)
    | .float x => some (.float x)
    | _ => none
  | .mark .bang => signed .bang fun _ => none
  -- nothing in front of a range stands for its start
  | .mark .range | .mark .rangeInclusive => return .const .unit (some p)
  | .ended => Parse.refuse .unexpectedEnd p
  | _ => g.primary { s with pos := p }

/-- Two operands joined by an operator. -/
def join (op : Token) (l r : Expr) (p : Position) : Parse Expr := do
  match op with
  | .mark .orOr => return .or (← l.asCondition) (← r.asCondition) (some p)
  | .mark .andAnd => return .and (← l.asCondition) (← r.asCondition) (some p)
  | .mark .coalesce => return .coalesce l r (some p)
  | .word .inWord => return .call "contains" none [r, l] (some p)
  | .word .notIn => return .call "!" (some .bang) [.call "contains" none [r, l] (some p)] (some p)
  | .mark m => return .call m.text (some m) [l, r] (some p)
  | _ => return l

/-- Whether a token in the place of the end of a range leaves the range open. -/
def leavesOpen : Token → Bool
  | .mark .rightBracket | .mark .rightParen | .mark .rightBrace | .mark .comma | .mark .semicolon
  | .mark .doubleArrow => true
  | _ => false

/-- The operand behind an operator.  A range may be open, and in place of a missing value a script may leave. -/
def secondOperand (g : Grammar) (op : Token) (s : Setting) : Parse Expr := do
  let (t, p) ← Parse.peek
  match op, t with
  | .mark .range, t | .mark .rangeInclusive, t =>
    if leavesOpen t then return .const .unit (some p) else g.unary s
  | .mark .coalesce, .word .returnWord | .mark .coalesce, .word .throwWord
  | .mark .coalesce, .word .breakWord | .mark .coalesce, .word .continueWord =>
    let stmt ← g.statement s
    return .block [stmt] (some p)
  | _, _ => g.unary s

/-- Operators behind an operand. -/
def binaryWith (g : Grammar) (strength : Nat) (e : Expr) (s : Setting) : Parse Expr := do
  Parse.iterate (fun (state : Expr × Setting) => do
    let (root, s) := state
    let (t, p) ← Parse.peek
    if ends s t then return .inr root
    if let some c := reservedSymbol? t then Parse.refuse (.unknownOperator c) p
    let here := t.precedence
    if here < strength ∨ (here = strength ∧ !t.bindsRight) then return .inr root
    let _ ← Parse.next
    let s := { (← s.deeper) with pos := p }
    let rhs ← g.secondOperand t s
    let (u, q) ← Parse.peek
    if let some c := reservedSymbol? u then Parse.refuse (.unknownOperator c) q
    let rhs ← (if (here = u.precedence ∧ t.bindsRight) ∨ here < u.precedence then g.binary here rhs s
      else pure rhs)
    return .inl (← join t root rhs p, s)) (e, { s with pos := e.place.getD s.pos })

/-- An expression. -/
def expressionWith (g : Grammar) (s : Setting) : Parse Expr := do
  let s := { (← s.deeperAt (← Parse.peek).2) with behindDot := false }
  let e ← g.unary s
  g.binary 1 e s

end Grammar
end Lang
end ArmPilot
