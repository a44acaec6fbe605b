import ArmPilot.Lang.Eval.Call
import ArmPilot.Lang.Eval.Access

/-!
# Evaluating expressions

The rules for each kind of expression.  In a chain the arguments and indices are evaluated first, from
left to right, then the value at its root; the links are followed from there, and what they change is
written back to the variable at the root.
-/

namespace ArmPilot
namespace Lang
namespace Eval

variable {σ : Type}

/-- A link of a chain with its arguments evaluated. -/
inductive Hop where
  | property (name : String) (optional : Bool) (p : Place)
  | method (name : String) (args : List Value) (optional : Bool) (p : Place)
  | index (i : Value) (optional : Bool) (p indexPlace : Place)

/-- Whether a hop is not made from a unit value. -/
def Hop.optional : Hop → Bool
  | .property _ o _ | .method _ _ o _ | .index _ o _ _ => o

/-- A value to be stored at the end of a chain, by an operator or as it is. -/
structure Writing where
  op : Option Mark
  value : Value
  p : Place
  /-- The place of the root of the chain. -/
  root : Place
  /-- The name of the constant at the root, if it is one. -/
  constant : Option String

/-- What comes of storing a value: the new value, if there is one, and a failure, if there is one. -/
structure Stored where
  value : Option Value
  failure : Option Failure

/-- The value to be stored in place of another.  What an operator makes must be within the limits; it is stored all the
same if a function made it. -/
def Writing.result (w : Writing) (l : Limits) (old : Value) : Stored :=
  match w.op with
  | none => ⟨some w.value, none⟩
  | some op =>
    -- a text is an item like any other for an array
    let (before, value) := match old with
      | .array _ => (old, w.value)
      | old => joinedOperands l op old w.value
    match assignOperator op before value with
    | some (.ok v) =>
      match v.tooLarge? l with
      | some b => ⟨if assignsDirectly op old w.value then none else some v, some (.mk (.tooLarge b) w.p)⟩
      | none => ⟨some v, none⟩
    | some (.error c) => ⟨none, some (.mk c w.p)⟩
    | none => ⟨none, some (.mk (.functionNotFound (callSignature op.text [old, w.value])) w.p)⟩

/-- Finds the value to be stored in place of another, by a call of a function if the operator demands it. -/
def Writing.apply (env : Env σ) (w : Writing) (old : Value) : Eval σ Stored := do
  if let some op := w.op then
    if !assignsDirectly op old w.value then tick env w.p
  return w.result env.limits old

/-- Goes on if storing a value has not failed. -/
def Stored.check (s : Stored) : Eval σ Unit :=
  match s.failure with
  | some f => throw (.failure f)
  | none => return ()

/-- A truth value, which a condition must be. -/
def asBool (v : Value) (p : Place) : Eval σ Bool :=
  match v with
  | .bool b => return b
  | v => fail (.typeMismatch "bool" v.fullTypeName) p

/-- The values of arguments. -/
def arguments (m : Machine σ) (env : Env σ) : List Expr → Eval σ (List Value)
  | [] => return []
  | e :: rest => do
    let v ← flat (← m.eval env e)
    return v :: (← arguments m env rest)

/-- The values of the items of an array literal, with the sizes so far. -/
def items (m : Machine σ) (env : Env σ) : Sizes → List Expr → Eval σ (List Value)
  | _, [] => return []
  | total, e :: rest => do
    let v ← flat (← m.eval env e)
    let total := total.add (v.sizes.add ⟨1, 0, 0⟩)
    checkSizes env total e.place
    return v :: (← items m env total rest)

/-- The members of a map literal, with the sizes so far. -/
def members (m : Machine σ) (env : Env σ) : Sizes → List (String × Expr) → Eval σ (List (String × Value))
  | _, [] => return []
  | total, (k, e) :: rest => do
    let v ← flat (← m.eval env e)
    let total := total.add (v.sizes.add ⟨0, 1, 0⟩)
    checkSizes env total e.place
    return (k, v) :: (← members m env total rest)

/-- The text of a text literal with embedded blocks. -/
def textOf (m : Machine σ) (env : Env σ) : String → List Expr → Eval σ String
  | acc, [] => return acc
  | acc, e :: rest => do
    let v ← flat (← m.eval env e)
    if v.textual?.isNone then tick env e.start
    let acc := acc ++ (v.joined env.limits).printed
    checkSize env (.string acc) e.place
    textOf m env acc rest

/-- A link of a chain with its arguments evaluated. -/
def hop (m : Machine σ) (env : Env σ) : Link → Eval σ Hop
  | .property name j p => return .property name j.optional p
  | .method name args j p => do return .method name (← arguments m env args) j.optional p
  | .index i j => do return .index (← flat (← m.eval env i)) j.optional j.place i.start

/-- The links of a chain with their arguments evaluated, each of which is a step of its own. -/
def hopsOf (m : Machine σ) (env : Env σ) : List Link → Eval σ (List Hop)
  | [] => return []
  | [l] => do
    tick env (match l with
      | .index i _ => i.place
      | l => l.place)
    return [← hop m env l]
  | l :: next :: rest => do
    tick env next.joint.place
    let h ← hop m env l
    return h :: (← hopsOf m env (next :: rest))

/-- The links of a chain with their arguments evaluated.  A single link without anything to evaluate takes no step. -/
def hops (m : Machine σ) (env : Env σ) (links : List Link) : Eval σ (List Hop) :=
  match links with
  | [.property name j p] => return [.property name j.optional p]
  | [.method name [] j p] => return [.method name [] j.optional p]
  | [.index (.const v p) j] => return [.index v j.optional j.place p]
  | links => hopsOf m env links

/-- The end of a chain at which a value was stored, so that its holder became `base`; `bounded` must be within the
limits.  What is too large stays where it was stored. -/
def Stored.ending (s : Stored) (env : Env σ) (w : Writing) (bounded : Value) (base : Option Value) : Called :=
  match s.failure, bounded.tooLarge? env.limits with
  | some f, _ => (.error (.failure f), base)
  | none, some b => (.error (.failure (.mk (.tooLarge b) w.p)), base)
  | none, none => (.ok .unit, base)

/-- Stores a value under a key of a map.  What a constant holds stays as it is, but a key may be added to it.  A new
key is there as soon as it is to be written. -/
def writeMember (env : Env σ) (ms : List (String × Value)) (key : String) (w : Writing)
    (bounded : Value → Value → Value) : Eval σ Called := do
  tick env none
  match Json.find? key ms, w.constant with
  | some _, some name => return (.error (.failure (.mk (.constantAssigned name) w.root)), none)
  | old, _ =>
    let old := old.getD .unit
    let s ← w.apply env old
    let v := s.value.getD old
    let base : Value := .map (Json.insert key v ms)
    return s.ending env w (bounded v base) (some base)

/-- Stores a value in a property of a value. -/
def writeProperty (env : Env σ) (base : Value) (name : String) (p : Place) (w : Writing) : Eval σ Called :=
  match base with
  | .map ms => writeMember env ms name w fun _ base => base
  | base =>
    if w.op.isSome ∧ (Library.property? env.limits name base).isNone then
      return broken (.propertyUnknown name base.typeName) p
    else return broken (.propertyReadOnly name base.typeName w.value.typeName) p

/-- Stores a value under an index of a value. -/
def writeItem (env : Env σ) (base i : Value) (p indexPlace : Place) (w : Writing) : Eval σ Called := do
  match base, i with
  | .map ms, .string key => writeMember env ms key w fun v _ => v
  | base, i =>
    tick env none
    match base.item? i with
    | none => return broken (.indexerReadOnly base.typeName i.typeName w.value.typeName) p
    | some (.error c) => return broken c indexPlace
    | some (.ok old) =>
      -- the parts of an array that is constant stay as they are
      match (if base.hasParts then w.constant else none) with
      | some name => return broken (.constantAssigned name) w.root
      | none =>
        let s ← w.apply env old
        match s.value with
        | none => return s.ending env w .unit none
        | some v =>
          match base.setItem? i v with
          | some (.ok base) => return s.ending env w v (some base)
          | some (.error c) => return broken c w.p
          | none => return broken (.indexerReadOnly base.typeName i.typeName w.value.typeName) p

/-- What a method name stands for on a value: the function that a map holds under it, or the name itself. -/
def methodOf (base : Value) (name : String) : Callback :=
  match base with
  | .map ms =>
    match Json.find? name ms with
    | some (.function f id captured) => ⟨f, some id, captured⟩
    | _ => ⟨name, none, []⟩
  | _ => ⟨name, none, []⟩

/-- The function of the script that a method call goes to. -/
def methodRoutine? (env : Env σ) (f : Callback) (base : Value) (arguments : Nat) : Option Routine :=
  match f.id.bind env.closure? with
  | some r => if r.parameters.length = arguments then some r else none
  | none => env.function? (some base) f.name arguments

/-- Calls a method on a value, which it may change unless it is read-only. -/
def callMethod (m : Machine σ) (env : Env σ) (readOnly : Bool) (base : Value) (name : String)
    (args : List Value) (p : Place) : Eval σ Called := do
  let f := methodOf base name
  let args := f.captured ++ args
  match methodRoutine? env f base args.length with
  | some r => m.invoke env r args (some ⟨base, readOnly⟩) false p
  | none =>
    match m.native env f.name (base :: args) p with
    | none => return broken (.functionNotFound (callSignature f.name (base :: args))) p
    | some n =>
      if n.changes && readOnly then return broken (.constantChanged f.name) p
      else
        let (r, changed) ← n.run
        match r, changed.bind (·.tooLarge? env.limits) with
        | .ok _, some b => return (.error (.failure (.mk (.tooLarge b) p)), changed)
        | r, _ => return (r, changed)

/-- Follows the links of a chain from a value, and stores a value at its end if there is one to store. -/
def follow (m : Machine σ) (env : Env σ) (readOnly : Bool) (w : Option Writing) :
    List Hop → Value → Eval σ Called
  | [], v => return (.ok (← flat v), none)
  | hop :: rest, root => do
    let base ← flat root
    if hop.optional ∧ base.isUnit then return (.ok .unit, none)
    else
      match hop with
      | .property name _ p =>
        match rest, w with
        | [], some w => writeProperty env base name p w
        | _, _ =>
          match base with
          | .map ms =>
            tick env none
            let (r, inner) ← follow m env readOnly w rest ((Json.find? name ms).getD .unit)
            return (r, inner.map fun v => .map (Json.insert name v ms))
          | base =>
            match Library.property? env.limits name base with
            | some (.ok v) =>
              tick env p
              let (r, _) ← follow m env readOnly w rest v
              return (r, none)
            | some (.error c) => return broken c p
            | none => return broken (.propertyUnknown name base.typeName) p
      | .index i _ p indexPlace =>
        match rest, w with
        | [], some w => writeItem env base i p indexPlace w
        | _, _ =>
          tick env none
          match base.item? i with
          | some (.ok v) =>
            let (r, inner) ← follow m env readOnly w rest v
            match inner with
            | none => return (r, none)
            | some v =>
              match base.setItem? i v with
              | some (.ok base) => return (r, some base)
              | _ => return (r, none)
          | some (.error c) => return broken c indexPlace
          | none => return broken (.indexerMissing base.typeName i.typeName) p
      | .method name args _ p =>
        let (r, changed) ← (match name, args with
          | "is_shared", [] => return (.ok (.bool root.isShared), none)
          | name, args => callMethod m env readOnly base name args p)
        match r, rest with
        | .ok v, _ :: _ =>
          let (r, _) ← follow m env false w rest v
          return (r, changed)
        | r, _ => return (r, changed)

/-- Evaluates a chain; a value to be stored goes to the variable at its root. -/
def chain (m : Machine σ) (env : Env σ) (root : Expr) (links : List Link) (w : Option Writing) :
    Eval σ Value := do
  let hs ← hops m env links
  let onConstant (readOnly : Bool) (name : String) : Option Writing :=
    w.map fun w => { w with constant := if readOnly then some name else none }
  match root with
  | .var name bound p => do
    tick env p
    let b ← binding env name bound p
    let (r, changed) ← follow m env b.readOnly (onConstant b.readOnly name) hs b.value
    if let some v := changed then
      -- a function of the script is a value of its own, whatever variable goes by its name
      if (env.named? name bound).isNone then writeVariable name v
    resume r
  | .this p => do
    tick env p
    match (← get).this with
    | none => fail .thisMissing p
    | some subject =>
      let (r, changed) ← follow m env subject.readOnly (onConstant subject.readOnly "") hs subject.value
      if let some v := changed then
        modify fun s => { s with this := some { subject with value := v } }
      resume r
  | .qualified path name p q => do
    tick env q
    let v ← readQualified path name p
    let (r, _) ← follow m env true (onConstant true name) hs v
    resume r
  | e => do
    let (r, _) ← follow m env false w hs (← m.eval env e)
    resume r

/-- Makes a variable shared, and returns its cell. -/
def share (name : String) (p : Place) : Eval σ Value := do
  let s ← get
  match s.scope.lookup name with
  | none => fail (.variableNotFound name) p
  | some ⟨_, .shared c, _⟩ => return .shared c
  | some b =>
    let c : Value := .shared s.cells.size
    set { s with cells := s.cells.push ⟨b.value, b.readOnly⟩, scope := s.scope.update name c }
    return c

/-- What a closure takes from outside: variables, which are made shared. -/
def shareAll (m : Machine σ) (env : Env σ) : List Expr → Eval σ (List Value)
  | [] => return []
  | .var name _ p :: rest => do
    tick env p
    let c ← share name p
    return c :: (← shareAll m env rest)
  | e :: rest => do
    let v ← flat (← m.eval env e)
    return v :: (← shareAll m env rest)

/-- Calls a function on expressions.  A variable in front is handed over itself, and may be changed, and so is what the
function in hand is called on. -/
def call (m : Machine σ) (env : Env σ) (name : String) (args : List Expr) (amongCaller : Bool) (p : Place) :
    Eval σ Value := do
  match args with
  | .var x bound vp :: rest =>
    tick env vp
    let vs ← arguments m env rest
    let b ← binding env x bound vp
    if name = "is_shared" ∧ vs.isEmpty then return .bool b.value.isShared
    let (r, changed) ← callByName m env name ((← flat b.value) :: vs) amongCaller p
    match changed with
    | some w =>
      if b.readOnly ∨ b.value.isShared then resume r
      else
        writeVariable x w
        let v ← resume r
        checkSize env w p
        return v
    | none => resume r
  | .this q :: rest =>
    match (← get).this with
    | none => fail .thisMissing q
    | some subject =>
      tick env q
      let vs ← arguments m env rest
      let (r, changed) ← callByName m env name (subject.value :: vs) amongCaller p
      if let some v := changed then
        if subject.readOnly then
          -- a breakdown is no failure, and stays one
          if let .error (.panic b) := r then throw (.panic b)
          fail (.constantChanged name) p
        modify fun s => { s with this := some { subject with value := v } }
      resume r
  | args =>
    let vs ← arguments m env args
    resume (← callByName m env name vs amongCaller p).1

/-- Runs statements; the last one gives the value. -/
def statements (m : Machine σ) (env : Env σ) : List Stmt → Eval σ Value
  | [] => return .unit
  | [s] => m.exec env s
  | s :: rest => do
    let _ ← m.exec env s
    statements m env rest

/-- Runs statements as a block that begins here. -/
def blockHere (m : Machine σ) (env : Env σ) (stmts : List Stmt) : Eval σ Value := do
  statements m { env with blockStart := (← get).scope.length } stmts

/-- Runs a block. -/
def block (m : Machine σ) (env : Env σ) (stmts : List Stmt) : Eval σ Value :=
  match stmts with
  | [] => return .unit
  | stmts => withScope (blockHere m env stmts)

/-- The value of an expression whose step has been counted. -/
def valueOf (m : Machine σ) (env : Env σ) (e : Expr) : Eval σ Value := do
  match e with
  | .const v _ => return v
  | .text parts _ => return .string (← textOf m env "" parts)
  | .array es _ => return .array (← items m env ⟨0, 0, 0⟩ es)
  | .map ms _ =>
    return .map ((← members m env ⟨0, 0, 0⟩ ms).foldl (fun acc kv => Json.insert kv.1 kv.2 acc) [])
  | .var name bound p => readVariable env name bound p
  | .qualified path name p _ => readQualified path name p
  | .this p =>
    match (← get).this with
    | some subject => flat subject.value
    | none => fail .thisMissing p
  | .call _ (some op) [l, r] p =>
    let a ← flat (← m.eval env l)
    let b ← flat (← m.eval env r)
    if !isDirect op a b then tick env p
    let (l', r') := joinedOperands env.limits op a b
    match binaryOperator op l' r' with
    | some o =>
      let v ← ofOutcome o p
      checkSize env v p
      return v
    | none => fail (.functionNotFound (callSignature op.text [a, b])) p
  | .call _ (some op) [l] p =>
    let a ← flat (← m.eval env l)
    if op ≠ .bang then tick env p
    match unaryOperator op a with
    | some o => ofOutcome o p
    | none => fail (.functionNotFound (callSignature op.text [a])) p
  | .call name _ args p => call m env name args false p
  | .scopedCall name args p => call m env name args true p
  | .moduleCall path _ args p _ =>
    let _ ← (match args with
      | .var x bound q :: rest => do
        let _ ← arguments m env rest
        readVariable env x bound q
      | args => do return .array (← arguments m env args))
    fail (.moduleNotFound (joinWith "::" path)) p
  | .and l r _ =>
    if ← asBool (← flat (← m.eval env l)) l.place then
      return .bool (← asBool (← flat (← m.eval env r)) r.place)
    else return .bool false
  | .or l r _ =>
    if ← asBool (← flat (← m.eval env l)) l.place then return .bool true
    else return .bool (← asBool (← flat (← m.eval env r)) r.place)
  | .coalesce l r _ =>
    match ← flat (← m.eval env l) with
    | .unit => m.eval env r
    | v => return v
  | .block stmts _ => block m env stmts
  | .chain root links _ => chain m env root links none
  | .closure id [] _ => return .function closureName (env.first + id) []
  | .closure id captures p =>
    -- the variables are shared, and then a function is given them
    tick env p
    tick env p
    tick env p
    return .function closureName (env.first + id) (← shareAll m env captures)

/-- Evaluates an expression. -/
def evalWith (m : Machine σ) (env : Env σ) (e : Expr) : Eval σ Value := do
  tick env e.place
  valueOf m env e

end Eval
end Lang
end ArmPilot
