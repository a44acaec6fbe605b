import ArmPilot.Lang.Library.Basic
import ArmPilot.Lang.Sizes
import ArmPilot.Text.Blank
import ArmPilot.Text.Letters

/-!
# Built-in functions on texts

Places in a text are counted in characters.
-/

namespace ArmPilot
namespace Lang
namespace Library

/-- Whether characters begin with others. -/
def startsWith (cs ds : List Char) : Bool := ds.isPrefixOf cs

/-- The parts of characters between the occurrences of a separator that is not empty. -/
def partsOf (separator : List Char) : Nat → Nat → List Char → List Char → List (List Char)
  | 0, _, acc, cs => [acc.reverse ++ cs]
  | _, _, acc, [] => [acc.reverse]
  | fuel + 1, parts, acc, c :: cs =>
    if parts ≤ 1 then [acc.reverse ++ c :: cs]
    else if startsWith (c :: cs) separator then
      acc.reverse :: partsOf separator fuel (parts - 1) [] ((c :: cs).drop separator.length)
    else partsOf separator fuel parts (c :: acc) cs

/-- The parts of a text between the occurrences of a separator, at most so many.  The empty text has one part. -/
def parts (separator cs : List Char) (most : Nat) : List (List Char) :=
  match separator, cs with
  | _, [] => [[]]
  | [], cs =>
    let all := [] :: cs.map (fun c => [c]) ++ [[]]
    if all.length ≤ most then all else all.take (most - 1) ++ [(all.drop (most - 1)).flatten]
  | separator, cs => partsOf separator (cs.length + 1) most [] cs

/-- The parts of a text between the occurrences of a separator, looked for from the end. -/
def partsFromEnd (separator cs : List Char) (most : Nat) : List (List Char) :=
  (parts separator.reverse cs.reverse most).map List.reverse

/-- The words of a text between blanks. -/
def words (cs : List Char) : List (List Char) :=
  let (acc, last) := cs.foldl (fun (state : List (List Char) × List Char) c =>
    if Text.isBlank c then (if state.2.isEmpty then state else (state.2.reverse :: state.1, []))
    else (state.1, c :: state.2)) ([], [])
  (if last.isEmpty then acc else last.reverse :: acc).reverse

/-- Replaces the occurrences of a text.  The empty text occurs around every character; in the empty text
nothing is replaced. -/
def replaced (find by_ cs : List Char) : List Char :=
  match find, cs with
  | _, [] => []
  | [], cs => by_ ++ cs.flatMap (fun c => c :: by_)
  | _, cs => List.flatten ((parts find cs (cs.length + 1)).intersperse by_)

/-- The place of a text in another, from a start on. -/
def textIndex (find cs : List Char) (start : Nat) : Int :=
  go (cs.length + 1 - start) start (cs.drop start)
where
  go : Nat → Nat → List Char → Int
    | 0, _, _ => -1
    | fuel + 1, i, cs => if startsWith cs find then i else go fuel (i + 1) (cs.drop 1)

/-- A text filled up to a length by another. -/
def padded (filler : List Char) (cs : List Char) (size : Nat) : List Char :=
  match filler with
  | [] => cs
  | _ =>
    let rounds := (size - cs.length) / filler.length + 1
    cs ++ (List.replicate rounds filler).flatten.take (size - cs.length)

/-- Texts as values. -/
def textValues (ts : List (List Char)) : List Value := ts.map fun t => .string (String.ofList t)

/-- Functions of a text that leave it alone. -/
def readText (name s : String) (args : List Value) : Option Answer :=
  let cs := s.toList
  match name, args with
  | "len", [] => Answer.int cs.length
  | "bytes", [] => Answer.int s.utf8ByteSize
  | "is_empty", [] => Answer.bool cs.isEmpty
  | "to_chars", [] => Answer.array (cs.map .char)
  | "to_blob", [] => Answer.value (.bytes (Text.bytesOf s))
  | "chars", [] => Answer.value (.stream (.chars cs))
  | "to_upper", [] => Answer.chars (Text.capitals cs)
  | "to_lower", [] => Answer.chars (Text.smalls cs)
  | "split", [] => Answer.array (textValues (if cs.isEmpty then [[]] else words cs))
  | "get", [.int i] =>
    Answer.value (match (indexIn? cs.length i).bind (cs[·]?) with | some c => .char c | none => .unit)
  | "split", [.int i] =>
    let at_ := if i ≤ 0 then cs.length - min cs.length i.natAbs else i.toNat
    Answer.array (textValues [cs.take at_, cs.drop at_])
  | "sub_string", _ =>
    (stretchOf? cs.length args).bind fun (start, count) => Answer.chars ((cs.drop start).take count)
  | "chars", _ =>
    (stretchOf? cs.length args).bind fun (start, count) =>
      Answer.value (.stream (.chars ((cs.drop start).take count)))
  | _, [v] =>
    v.textual?.bind fun t =>
      let ds := t.toList
      match name, v with
      | "contains", _ => Answer.bool (0 ≤ textIndex ds cs 0)
      | "starts_with", _ => Answer.bool (startsWith cs ds)
      | "ends_with", _ => Answer.bool (startsWith cs.reverse ds.reverse)
      | "index_of", _ => Answer.int (if cs.isEmpty then -1 else textIndex ds cs 0)
      | "split", _ => Answer.array (textValues (parts ds cs (cs.length + 2)))
      | "split_rev", _ => Answer.array (textValues (partsFromEnd ds cs (cs.length + 2)))
      | _, _ => none
  | _, [v, .int n] =>
    v.textual?.bind fun t =>
      let ds := t.toList
      match name with
      | "index_of" =>
        let start := startingPlace cs.length n
        Answer.int (if start ≥ cs.length then -1 else textIndex ds cs start)
      | "split" => Answer.array (textValues (parts ds cs (max n.toNat 1)))
      | "split_rev" => Answer.array (textValues (partsFromEnd ds cs (max n.toNat 1)))
      | _ => none
  | _, _ => none

/-- Functions that change a text. -/
def changeText (limits : Limits) (name s : String) (args : List Value) : Option Answer :=
  let cs := s.toList
  let become (cs : List Char) : Option Answer := Answer.change (.string (String.ofList cs))
  match name, args with
  | "clear", [] => become []
  | "trim", [] => become (Text.trimmed cs)
  | "make_upper", [] => become (Text.capitals cs)
  | "make_lower", [] => become (Text.smalls cs)
  | "pop", [] =>
    match cs.getLast? with
    | some c => Answer.changed (.string (String.ofList cs.dropLast)) (.char c)
    | none => Answer.changed (.string s) .unit
  | "pop", [.int n] =>
    let kept := cs.length - n.toNat
    Answer.changed (.string (String.ofList (cs.take kept))) (.string (String.ofList (cs.drop kept)))
  | "truncate", [.int n] => become (cs.take n.toNat)
  | "crop", _ =>
    (stretchOf? cs.length args).bind fun (start, count) => become ((cs.drop start).take count)
  | "set", [.int i, .char c] =>
    match indexIn? cs.length i with
    | some k => become (cs.set k c)
    | none => become cs
  | "append", [.bytes bs] => Answer.change (.string (s ++ Text.ofBytes bs))
  | "append", [v] => Answer.change (.string (s ++ (v.joined limits).printed))
  | "remove", [v] => (without s v).bind fun u => Answer.change (.string u)
  | "replace", [v, w] =>
    v.textual?.bind fun t => w.textual?.bind fun u => become (replaced t.toList u.toList cs)
  | "pad", [.int n, v] =>
    v.textual?.bind fun t =>
      if n.toNat ≤ cs.length then become cs
      else if limits.maxString > 0 ∧ limits.maxString < n.toNat then Answer.failed (.tooLarge .text)
      else become (padded t.toList cs n.toNat)
  | _, _ => none

/-- Functions on texts. -/
def texts (limits : Limits) (name : String) (args : List Value) : Option Answer :=
  match args with
  | .string s :: rest =>
    match readText name s rest with
    | some a => some a
    | none => changeText limits name s rest
  | [.char c] =>
    match name with
    | "to_upper" => Answer.value (.char (Text.capitalChar c))
    | "to_lower" => Answer.value (.char (Text.smallChar c))
    | "make_upper" => Answer.change (.char (Text.capitalChar c))
    | "make_lower" => Answer.change (.char (Text.smallChar c))
    | _ => none
  | _ => none

end Library
end Lang
end ArmPilot
