import ArmPilot.Lang.Cases
import ArmPilot.Lang.Eval.Expression
import ArmPilot.Lang.Parser.Basic

/-!
# Running statements

The rules for each kind of statement, and the evaluator as a whole: a machine with a depth of nesting as
its fuel, which no script within the limits on depth and calls uses up.
-/

namespace ArmPilot
namespace Lang
namespace Eval

variable {σ : Type}

/-- The rounds of a loop; a round says whether the loop goes on, or with what value it ends. -/
def rounds (round : Eval σ (Option Value)) : Nat → Eval σ Value
  | 0 => throw .exhausted
  | n + 1 => do
    match ← round with
    | none => rounds round n
    | some v => return v

/-- One run of the body of a loop: whether the loop is left, and with what value. -/
def bodyOf (m : Machine σ) (env : Env σ) (body : List Stmt) : Eval σ (Option Value) := do
  match ← attempt (block m env body) with
  | .ok _ => return none
  | .error (.leave false _) => return none
  | .error (.leave true v) => return some v
  | .error e => throw e

/-- More rounds than any loop can run. -/
def endless : Nat := Word.count

/-- The first case whose condition holds. -/
def chooseCase (m : Machine σ) (env : Env σ) : List Case → Eval σ (Option Case)
  | [] => return none
  | c :: rest => do
    match c.condition with
    | none => return some c
    | some e =>
      if ← asBool (← flat (← m.eval env e)) e.place then return some c
      else chooseCase m env rest

/-- The rounds of a loop over items. -/
def forRounds (m : Machine σ) (env : Env σ) (name : String) (counter : Option String) (body : List Stmt)
    (p : Place) : Nat → Nat → Walk → Eval σ Value
  | 0, _, _ => throw .exhausted
  | fuel + 1, i, walk => do
    match walk.next? with
    | none => return .unit
    | some (v, rest) =>
      if let some c := counter then writeVariable c (.int i)
      writeVariable name (← flat v)
      tick env p
      match ← bodyOf m env body with
      | some v => return v
      | none => forRounds m env name counter body p fuel (i + 1) rest

/-- The breakdown of an assignment to what simplification has turned into a value. -/
def strayTarget (e : Expr) : String :=
  let place := match e.place with
    | some p => " @ " ++ toString p.line ++ ":" ++ toString p.column
    | none => ""
  "internal error: entered unreachable code: cannot assign to expression: " ++ (e.constant?.getD .unit).quoted ++ place

/-- Assigns a value to a target. -/
def assign (m : Machine σ) (env : Env σ) (op : Option Mark) (target value : Expr) (p : Place) :
    Eval σ Unit := do
  let v ← flat (← m.eval env value)
  let w : Writing := ⟨op, v, p, target.start, none⟩
  match target with
  | .var name bound vp =>
    tick env vp
    let b ← binding env name bound vp
    if b.readOnly then fail (.constantAssigned name) vp
    let r ← w.apply env (← flat b.value)
    if let some v := r.value then
      writeVariable name v
    r.check
  | .this vp =>
    match (← get).this with
    | none => fail .thisMissing vp
    | some subject =>
      if subject.readOnly then fail (.constantAssigned "") vp
      let r ← w.apply env (← flat subject.value)
      if let some v := r.value then
        modify fun s => { s with this := some { subject with value := v } }
      r.check
  | .qualified path name p q =>
    tick env q
    let _ ← readQualified path name p
    fail (.constantAssigned name) p
  | .chain root links _ =>
    let _ ← chain m env root links (some w)
  | e => throw (.panic (.told (strayTarget e)))

/-- Runs a statement. -/
def execWith (m : Machine σ) (env : Env σ) (s : Stmt) : Eval σ Value := do
  tick env s.place
  match s with
  | .noop _ => return .unit
  | .expr e => flat (← if e.isCall then valueOf m env e else m.eval env e)
  | .assign op target value p =>
    assign m env op target value p
    return .unit
  | .declare name value readOnly replaces _ =>
    let v ← flat (← m.eval env value)
    modify fun s => { s with
      scope := if replaces then s.scope.redeclare env.blockStart name v readOnly else s.scope.push name v readOnly }
    return .unit
  | .block stmts _ => block m env stmts
  | .ifElse cond thenPart _ elsePart _ =>
    if ← asBool (← flat (← m.eval env cond)) cond.place then block m env thenPart
    else block m env elsePart
  | .switch value cases _ =>
    let v ← flat (← m.eval env value)
    match (← chooseCase m env (Case.considered v cases)).or (Case.default? cases) with
    | some c => m.eval env c.action
    | none => return .unit
  | .repeatWhile cond body bodyPos _ =>
    rounds (do
      let goes ← (match cond with
        | none => do
          -- without a condition nothing but an empty round is left to count
          if body.isEmpty then tick env bodyPos
          return true
        | some c => do asBool (← flat (← m.eval env c)) c.place)
      if goes then bodyOf m env body else return some .unit) endless
  | .doWhile body cond negated _ _ =>
    rounds (do
      match ← attempt (block m env body) with
      -- the next round begins without a look at the condition
      | .error (.leave false _) => return none
      | .error (.leave true v) => return some v
      | .error e => throw e
      | .ok _ =>
        let b ← asBool (← flat (← m.eval env cond)) cond.place
        if b != negated then return none else return some .unit) endless
  | .forIn name counter source body bodyPos _ =>
    let v ← flat (← m.eval env source)
    match Walk.of? v with
    | none => fail .notIterable source.start
    | some walk =>
      withScope (do
        if let some c := counter then
          modify fun s => { s with scope := s.scope.push c .unit false }
        modify fun s => { s with scope := s.scope.push name .unit false }
        forRounds m env name counter body bodyPos endless 0 walk)
  | .leave isBreak value _ =>
    let v ← (match value with
      | some e => do flat (← m.eval env e)
      | none => return Value.unit)
    throw (.leave isBreak v)
  | .giveBack isThrow value p =>
    let v ← (match value with
      | some e => do flat (← m.eval env e)
      | none => return Value.unit)
    if isThrow then fail (.thrown v) p else throw (.giveBack v)
  | .tryCatch body name handler _ =>
    match ← attempt (block m env body) with
    | .ok v => return v
    | .error (.failure f) =>
      if f.cause.isFatal then throw (.failure f)
      else
        let r ← attempt (withScope (do
          if let some x := name then
            modify fun s => { s with scope := s.scope.push x (f.caught.flat s.cells) false }
          blockHere m env handler))
        match r with
        | .ok _ => return .unit
        -- an empty throw raises the caught failure again
        | .error (.failure (.mk (.thrown .unit) p)) => throw (.failure (f.moveTo p))
        | .error e => throw e
    | .error e => throw e

end Eval

/-- The evaluator of code nested to a depth. -/
def machine (σ : Type) : Nat → Machine σ
  | 0 =>
    { eval := fun _ _ => throw .exhausted
      exec := fun _ _ => throw .exhausted
      invoke := fun _ _ _ _ _ _ => throw .exhausted
      native := fun _ _ _ _ => some ⟨false, throw .exhausted⟩ }
  | n + 1 =>
    { eval := fun env e => Eval.evalWith (machine σ n) env e
      exec := fun env s => Eval.execWith (machine σ n) env s
      invoke := fun env r args this amongCaller p => Eval.invokeWith (machine σ n) env r args this amongCaller p
      native := fun env name args p => Eval.native? (machine σ n) env name args p }

namespace Eval

/-- Keeps a constant that a statement of a script has declared within reach of the functions, if there are any. -/
def publish {σ : Type} (env : Env σ) : Stmt → Eval σ Unit
  | .declare name _ true _ _ => do
    if env.routines.isEmpty then return ()
    let v ← readVariable env name true none
    modify fun s => { s with globals := Json.insert name v s.globals }
  | _ => return ()

/-- Runs the statements of a script; the last one gives the value. -/
def topLevel {σ : Type} (m : Machine σ) (env : Env σ) : List Stmt → Eval σ Value
  | [] => return .unit
  | [s] => m.exec env s
  | s :: rest => do
    let _ ← m.exec env s
    publish env s
    topLevel m env rest

end Eval

namespace Program

/-- Runs the statements of a script; its value is that of the last one. -/
def eval {σ : Type} (host : Host σ) (limits : Limits) (depth : Nat) (p : Program) : Eval σ Value := do
  modify fun s => { s with operations := 0, this := none, globals := [] }
  let env : Env σ := ⟨host, limits, p.first, p.routines.toArray, 0, (← get).scope.length⟩
  match ← Eval.attempt (Eval.topLevel (machine σ depth) env p.body) with
  | .ok v => Eval.flat v
  | .error (.giveBack v) => Eval.flat v
  | .error e => throw e

end Program

end Lang
end ArmPilot
