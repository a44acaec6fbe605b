import ArmPilot.Lang.Eval.Callback

/-!
# Calling functions

A call goes to a function of the script, to the host, to a built-in function that takes a callback, or to the library,
in this order.
-/

namespace ArmPilot
namespace Lang
namespace Eval

variable {σ : Type}

/-- The items of an array from a place on, each with its number. -/
def numbered (start : Nat) (vs : List Value) : List (Nat × Value) := (List.range' start vs.length).zip vs

/-- What callbacks are asked about and answer for a function of arrays, as a walk along an array from a place on. -/
def alongArray {β : Type} (ask : Nat → Value → Eval σ Called) (use : β → Nat → Value → Value → Bool × β)
    (answer : β → Value) (init : β) (vs : List Value) (start : Nat) : Eval σ Called := do
  let w ← walk (fun _ => ask) use [] init (numbered start (vs.drop start))
  return (w.ending.map fun _ => answer w.gathered, some (.array (vs.take start ++ w.items.map (·.2))))

/-- An array folded by a callback, from its end if it is `backwards`. -/
def reduce (m : Machine σ) (env : Env σ) (caller : String) (f : Callback) (backwards : Bool) (init : Value)
    (vs : List Value) (p : Place) : Eval σ Called := do
  let turn (items : List (Nat × Value)) : List (Nat × Value) := if backwards then items.reverse else items
  let w ← walk (fun acc (i : Nat) v => f.apply m env caller [acc] (some v) (some 1) [.int i] p) (fun _ _ _ a => (true, a)) []
    init (turn (numbered 0 vs))
  return (w.ending.map fun _ => w.gathered, some (itemValues (turn w.items)))

/-- Two arrays joined item by item by a callback. -/
def zip (m : Machine σ) (env : Env σ) (f : Callback) (vs ws : List Value) (p : Place) : Eval σ Called := do
  let items := ((List.range vs.length).zip ws).zip vs
  let w ← walk (fun _ (i, w) v => f.apply m env "zip" [w] (some v) (some 0) [.int i] p)
    (fun acc _ _ a => (true, a :: acc)) [] [] items
  return (w.ending.map fun _ => .array w.gathered.reverse,
    some (.array (w.items.map (·.2) ++ vs.drop items.length)))

/-- Items in the order of a callback, which answers with a negative number or with true if its first argument stands in
front of the second; without such an answer it does not. -/
def sortWith (m : Machine σ) (env : Env σ) (f : Callback) (vs : List Value) (p : Place) : Eval σ (List Value) :=
  Library.sortBy (fun v w => do
    match ← f.judge m env "sort" p [v, w] with
    | some (.int n) => return n < 0
    | some (.bool b) => return b
    | _ => return false) vs

/-- Items without those that a callback takes for the same as the last one kept; the kept ones are given backwards. -/
def dedupWith (m : Machine σ) (env : Env σ) (f : Callback) (p : Place) :
    List Value → List Value → Eval σ (List Value)
  | kept, [] => return kept.reverse
  | [], v :: rest => dedupWith m env f p [v] rest
  | last :: kept, v :: rest => do
    let same := ((← f.judge m env "dedup" p [last, v]).map Value.holds).getD false
    dedupWith m env f p (if same then last :: kept else v :: last :: kept) rest

/-- A built-in function that leaves its first argument alone, but for what a callback does to its items. -/
def looking (act : Eval σ Called) : Option (Native σ) := some ⟨false, act⟩

/-- A built-in function that changes its first argument. -/
def changing (act : Eval σ Called) : Option (Native σ) := some ⟨true, act⟩

/-- The functions of an array that take a callback. -/
def arrayFunction? (m : Machine σ) (env : Env σ) (name : String) (vs : List Value) (f : Callback)
    (rest : List Value) (p : Place) : Option (Native σ) :=
  let along {β : Type} (caller : String) (use : β → Nat → Value → Value → Bool × β) (answer : β → Value) (init : β)
      (start : Nat) : Eval σ Called :=
    alongArray (f.ask m env caller p) use answer init vs start
  let start : Int → Nat := startingPlace vs.length
  let find (start : Nat) : Option (Native σ) :=
    looking (along "index_of" (fun _ _ v a => (!a.holds, if a.holds then v else .unit)) id .unit start)
  let findMap (start : Nat) : Option (Native σ) :=
    looking (along "find_map" (fun _ _ _ a => (a.isUnit, a)) id .unit start)
  let indexOf (start : Nat) : Option (Native σ) :=
    looking (along "index_of" (fun _ i _ a => (!a.holds, if a.holds then some i else none)) Library.placeNumber none
      start)
  match name, rest with
  | "map", [] => looking (along name (fun acc _ _ a => (true, a :: acc)) (.array ·.reverse) [] 0)
  | "filter", [] =>
    looking (along name (fun acc _ v a => (true, if a.holds then v :: acc else acc)) (.array ·.reverse) [] 0)
  | "for_each", [] =>
    changing (alongArray (fun i v => f.apply m env name [] (some v) none [.int i] p) (fun _ _ _ _ => (true, ()))
      (fun _ => .unit) () vs 0)
  | "some", [] => looking (along name (fun _ _ _ a => (!a.holds, a.holds)) .bool false 0)
  | "all", [] => looking (along name (fun _ _ _ a => (a.holds, a.holds)) .bool true 0)
  | "find", [] => find 0
  | "find", [.int i] => find (start i)
  | "find_map", [] => findMap 0
  | "find_map", [.int i] => findMap (start i)
  | "index_of", [] => indexOf 0
  | "index_of", [.int i] => indexOf (start i)
  | "reduce", [] => looking (reduce m env name f false .unit vs p)
  | "reduce", [v] => looking (reduce m env name f false v vs p)
  | "reduce_rev", [] => looking (reduce m env name f true .unit vs p)
  | "reduce_rev", [v] => looking (reduce m env name f true v vs p)
  | "sort", [] | "sort_by", [] => changing (do return (.ok .unit, some (.array (← sortWith m env f vs p))))
  | "order", [] | "order_by", [] => looking (do return (.ok (.array (← sortWith m env f vs p)), none))
  | "dedup", [] => changing (do return (.ok .unit, some (.array (← dedupWith m env f p [] vs))))
  | "drain", [] => changing (do
      let d ← divide (f.ask m env name p) (numbered 0 vs)
      return (d.ending.map fun _ => itemValues d.yes, some (itemValues (d.no ++ d.undecided))))
  | "retain", [] => changing (do
      let d ← divide (f.ask m env name p) (numbered 0 vs)
      return (d.ending.map fun _ => itemValues d.no, some (itemValues (d.yes ++ d.undecided))))
  | _, _ => none

/-- The functions of a map that take a callback, which is asked about the key and the value of each member.  Where members
are taken out of the map, those in front of a failure, and the one that it happens at, are lost. -/
def mapFunction? (m : Machine σ) (env : Env σ) (name : String) (ms : List (String × Value)) (f : Callback) (p : Place) :
    Option (Native σ) :=
  let ask (k : String) (v : Value) : Eval σ Called := f.apply m env name [.string k] (some v) (some 1) [] p
  let left (d : Division String) (kept : List (String × Value)) : Value :=
    .map (match d.ending with
      | .ok _ => kept
      | .error _ => d.undecided.drop 1)
  let along (use : Value → Value → Option Value) : Option (Native σ) := looking (do
    let w ← walk (fun _ => ask) (fun acc k v a => (true, ((use v a).map (k, ·)).toList ++ acc)) [] [] ms
    return (w.ending.map fun _ => .map w.gathered.reverse, some (.map w.items)))
  match name with
  | "map" => along fun _ a => some a
  | "filter" => along fun v a => if a.holds then some v else none
  | "drain" => changing (do
      let d ← divide ask ms
      return (d.ending.map fun _ => .map d.yes, some (left d d.no)))
  | "retain" => changing (do
      let d ← divide ask ms
      return (d.ending.map fun _ => .map d.no, some (left d d.yes)))
  | _ => none

/-- The functions of arrays that take a function also by its name. -/
def takesNames : List String :=
  ["map", "filter", "some", "all", "index_of", "reduce", "reduce_rev", "sort", "dedup", "drain", "retain"]

/-- The built-in functions that take a callback. -/
def callbackFunction? (m : Machine σ) (env : Env σ) (name : String) (args : List Value) (p : Place) :
    Option (Native σ) :=
  match args with
  | .array vs :: .function g id captured :: rest => arrayFunction? m env name vs ⟨g, some id, captured⟩ rest p
  | .array vs :: .string g :: rest =>
    if takesNames.contains name then
      (arrayFunction? m env name vs ⟨g, none, []⟩ rest p).map fun n =>
        match Callback.nameFault? g with
        | none => n
        | some c => { n with run := return (.error (.failure (.mk c p)), none) }
    else none
  | [.array vs, .array ws, .function g id captured] =>
    if name = "zip" then looking (zip m env ⟨g, some id, captured⟩ vs ws p) else none
  | [.map ms, .function g id captured] => mapFunction? m env name ms ⟨g, some id, captured⟩ p
  | _ => none

/-- What an outcome at a place is as the end of a call, if the value is within the limits. -/
def ending (env : Env σ) (o : Outcome) (p : Place) : Except Interrupt Value :=
  match o with
  | .error c => .error (.failure (.mk c p))
  | .ok v =>
    match v.tooLarge? env.limits with
    | some b => .error (.failure (.mk (.tooLarge b) p))
    | none => .ok v

/-- A built-in function that counts as a step. -/
def counted (env : Env σ) (p : Place) (n : Native σ) : Native σ :=
  { n with run := do
      match ← attempt (tick env p) with
      | .error e => return (.error e, none)
      | .ok _ => n.run }

/-- A built-in function whose value is held to the limits. -/
def bounded (env : Env σ) (p : Place) (n : Native σ) : Native σ :=
  { n with run := do
      let (r, changed) ← n.run
      return (r.bind fun v => ending env (.ok v) p, changed) }

/-- A function that is not part of the script, if there is one for the arguments. -/
def native? (m : Machine σ) (env : Env σ) (name : String) (args : List Value) (p : Place) : Option (Native σ) :=
  match name, args with
  | "type_of", [v] => looking (return (.ok (.string v.typeName), none))
  | "is_shared", [_] => looking (return (.ok (.bool false), none))
  | name, args => (beyond name args).map (counted env p)
where
  beyond (name : String) (args : List Value) : Option (Native σ) :=
    match env.host.call name args with
    | some act => looking (do
        let s ← get
        let (r, outer) := act s.outer
        set { s with outer := outer }
        match r with
        | .error b => return (.error (.panic b), none)
        | .ok o => return (ending env o p, none))
    | none =>
      match name, args with
      | "print", [] => shown "" env.host.print
      | "print", [v] => shown (textOf Value.printed v) env.host.print
      | "debug", [] => shown "" (env.host.debug p)
      | "debug", [v] => shown (textOf Value.debugged v) (env.host.debug p)
      | _, _ =>
        match callbackFunction? m env name args p with
        | some n => some (bounded env p n)
        | none =>
          (Library.call? env.limits name args).map fun a =>
            ⟨a.receiver.isSome, return (ending env a.result p, a.receiver)⟩
  /-- The text by which a value is shown. -/
  textOf (text : Value → String) (v : Value) : String :=
    match v with
    | .string _ | .float _ | .array _ | .map _ => text v
    | v => v.textOrType env.limits text
  shown (text : String) (show_ : String → σ → σ) : Option (Native σ) := looking (do
    match ending env (.ok (.string text)) p with
    | .error e => return (.error e, none)
    | .ok _ =>
      modify fun s => { s with outer := show_ text s.outer }
      return (.ok .unit, none))

/-- A failure as the end of a call that leaves everything as it is. -/
def broken (c : Cause) (p : Place) : Called := (.error (.failure (.mk c p)), none)

/-- Calls a function by name on arguments, among the variables of its caller if it is part of the script and
`amongCaller` says so. -/
def callByName (m : Machine σ) (env : Env σ) (name : String) (args : List Value) (amongCaller : Bool) (p : Place) :
    Eval σ Called := do
  match env.function? none name args.length with
  | some r => m.invoke env r args none amongCaller p
  | none =>
    match m.native env name args p with
    | some n => n.run
    | none => return broken (.functionNotFound (callSignature name args)) p

/-- A parameter with its argument.  A shared variable stays what it is, a variable or a constant. -/
def parameter (cells : Array Cell) (name : String) (v : Value) : Binding :=
  match v with
  | .shared c =>
    match cells[c]? with
    | some cell => ⟨name, .shared c, cell.readOnly⟩
    | none => ⟨name, .unit, false⟩
  | v => ⟨name, v, false⟩

/-- The rules of a call of a function of the script.  Its arguments are its only variables, unless it runs among those
of its caller, and a failure inside is wrapped, unless it stops the script for good.  A function without statements is
not even entered. -/
def invokeWith (m : Machine σ) (env : Env σ) (r : Routine) (args : List Value) (this : Option Subject)
    (amongCaller : Bool) (p : Place) : Eval σ Called := do
  if r.body.isEmpty then return (.ok .unit, this.map (·.value))
  let before ← get
  match ← attempt enter with
  | .error e => return (.error e, this.map (·.value))
  | .ok _ =>
    let parameters : Scope := (r.parameters.zip args).reverse.map fun (name, v) => parameter before.cells name v
    let outer : Scope := if amongCaller then before.scope else []
    modify fun s => { s with scope := parameters ++ outer, this := this }
    let ended ← attempt (runBody { env with level := env.level + 1, blockStart := outer.length } r.body)
    let after ← get
    set { after with
      scope := if amongCaller then after.scope.drop (after.scope.length - before.scope.length) else before.scope
      this := before.this }
    let ended : Except Interrupt Value := match ended with
      | .ok v => .ok v
      | .error (.giveBack v) => .ok v
      | .error (.failure f) =>
        if f.cause.isFatal then .error (.failure (f.moveTo p))
        else .error (.failure (.mk (.inCall r.name f) p))
      | .error e => .error e
    return (ended, after.this.map (·.value))
where
  /-- Counts the call. -/
  enter : Eval σ Unit := do
    tick env p
    if env.level + 1 > env.limits.maxCallLevels then fail .stackOverflow p
  /-- Runs the statements of a function; the last one gives its value. -/
  runBody (env : Env σ) : List Stmt → Eval σ Value
    | [] => return .unit
    | [s] => do flat (← m.exec env s)
    | s :: rest => do
      let _ ← m.exec env s
      runBody env rest

end Eval
end Lang
end ArmPilot
