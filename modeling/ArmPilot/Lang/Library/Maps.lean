import ArmPilot.Lang.Library.Basic

/-!
# Built-in functions on maps
-/

namespace ArmPilot
namespace Lang
namespace Library

/-- Members laid over others. -/
def overlay (below above : List (String × Value)) : List (String × Value) :=
  above.foldl (fun acc m => Json.insert m.1 m.2 acc) below

mutual

/-- A value as JSON; what JSON does not know is written as scripts debug it. -/
def jsonText : Value → String
  | .map ms => "\x7b" ++ joinWith "," (jsonMembers ms) ++ "\x7d"
  | .array vs => "[" ++ joinWith "," (jsonItems vs) ++ "]"
  | .unit => "null"
  | v => v.quoted

/-- The items of an array as JSON. -/
def jsonItems : List Value → List String
  | [] => []
  | v :: rest => jsonText v :: jsonItems rest

/-- The members of a map as JSON. -/
def jsonMembers : List (String × Value) → List String
  | [] => []
  | (k, v) :: rest => (Text.quoted k ++ ":" ++ jsonText v) :: jsonMembers rest

end

/-- Functions on maps. -/
def maps (name : String) (args : List Value) : Option Answer :=
  match args with
  | .map ms :: rest =>
    let become (ms : List (String × Value)) : Option Answer := Answer.change (.map ms)
    match name, rest with
    | "len", [] => Answer.int ms.length
    | "is_empty", [] => Answer.bool ms.isEmpty
    | "keys", [] => Answer.array (ms.map fun m => .string m.1)
    | "values", [] => Answer.array (ms.map (·.2))
    | "contains", [.string k] => Answer.bool (ms.any (·.1 = k))
    | "to_json", [] => Answer.string (jsonText (.map ms))
    | "get", [.string k] => Answer.value ((Json.find? k ms).getD .unit)
    | "set", [.string k, v] => become (Json.insert k v ms)
    | "clear", [] => become []
    | "remove", [.string k] =>
      Answer.changed (.map (ms.filter (·.1 ≠ k))) ((Json.find? k ms).getD .unit)
    | "mixin", [.map ns] => become (overlay ms ns)
    | "fill_with", [.map ns] => become (overlay ns ms)
    | _, _ => none
  | _ => none

end Library
end Lang
end ArmPilot
