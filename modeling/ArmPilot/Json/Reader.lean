import ArmPilot.Json.Tree
import ArmPilot.Text.Digits

/-!
# Reading documents

The reader turns characters into a `Tree`.  It takes a bound on its steps, which `Tree.ofText` computes
from the length of the text: every second step consumes a character, so the bound is never reached.
-/

namespace ArmPilot
namespace Json

/-- The text still to be read, and where it starts. -/
structure Cursor where
  rest : List Char
  spot : Spot

namespace Cursor

/-- The cursor at the start of a text. -/
def ofText (s : String) : Cursor := ⟨s.toList, ⟨1, 0⟩⟩

/-- The spot at which the next character is reported before it is taken. -/
def ahead (c : Cursor) : Spot := c.spot.ahead c.rest

/-- Whether a character may stand between tokens. -/
def isBlank (c : Char) : Bool := c = ' ' || c = '\n' || c = '\t' || c = '\r'

/-- Passes over blanks. -/
def skipBlanksFrom : List Char → Spot → Cursor
  | [], s => ⟨[], s⟩
  | c :: rest, s => if isBlank c then skipBlanksFrom rest (s.after c) else ⟨c :: rest, s⟩

/-- Passes over blanks. -/
def skipBlanks (c : Cursor) : Cursor := skipBlanksFrom c.rest c.spot

/-- Takes the first character. -/
def drop (c : Cursor) : Cursor :=
  match c.rest with
  | [] => c
  | x :: rest => ⟨rest, c.spot.after x⟩

end Cursor

/-- The spot so many bytes on, which may lie inside of a character. -/
def bytesOn : Nat → List Char → Spot → Option Spot
  | 0, _, s => some s
  | _ + 1, [], _ => none
  | n + 1, c :: rest, s =>
    if c.utf8Size ≤ n + 1 then bytesOn (n + 1 - c.utf8Size) rest (s.after c) else some ⟨s.line, s.column + (n + 1)⟩

/-- Four bytes of hexadecimal digits behind `\u`. -/
def readHex (c : Cursor) : Except Fault (Nat × Cursor) :=
  match bytesOn 4 c.rest c.spot with
  | none => .error ⟨.endOfString, c.rest.foldl Spot.after c.spot⟩
  | some after =>
    match (c.rest.take 4).mapM Text.hexValue? with
    | some ds => .ok (ds.foldl (fun n d => n * 16 + d) 0, ⟨c.rest.drop 4, after⟩)
    | none => .error ⟨.invalidEscape, after⟩

/-- What a string reader keeps: the characters in reverse, and a complaint that skipping would ignore. -/
structure StringState where
  chars : List Char
  complaint : Option Fault

/-- The character of an escape of one letter. -/
def simpleEscape? (c : Char) : Option Char :=
  if c = '"' ∨ c = '\\' ∨ c = '/' then some c
  else if c = 'b' then some (Char.ofNat 8)
  else if c = 'f' then some (Char.ofNat 12)
  else if c = 'n' then some '\n'
  else if c = 'r' then some '\r'
  else if c = 't' then some '\t'
  else none

/-- An escape of four digits, which may be the first of a pair of surrogates. -/
def readUnicode (c : Cursor) : Except Fault (Except Fault Char × Cursor) := do
  let (n, c) ← readHex c
  if 0xDC00 ≤ n ∧ n ≤ 0xDFFF then
    return (.error ⟨.loneSurrogate, c.spot⟩, c)
  else if n < 0xD800 ∨ n > 0xDBFF then
    return (.ok (Char.ofNat n), c)
  else
    match c.rest with
    | [] => throw ⟨.endOfString, c.spot⟩
    | x :: _ =>
      if x ≠ '\\' then return (.error ⟨.unexpectedEndOfHexEscape, ⟨c.spot.line, c.spot.column + 1⟩⟩, c)
      else
        let c' := c.drop
        match c'.rest with
        | [] => throw ⟨.endOfString, c'.spot⟩
        | y :: _ =>
          if y ≠ 'u' then
            return (.error ⟨.unexpectedEndOfHexEscape, ⟨c'.spot.line, c'.spot.column + 1⟩⟩, c)
          else
            let (n2, c'') ← readHex c'.drop
            if n2 < 0xDC00 ∨ n2 > 0xDFFF then return (.error ⟨.loneSurrogate, c''.spot⟩, c'')
            else return (.ok (Char.ofNat (0x10000 + (n - 0xD800) * 1024 + (n2 - 0xDC00))), c'')

/-- A string that breaks off: the fault that is told, and the one that is told if the string is passed over. -/
def StringState.broken (st : StringState) (f : Fault) : Fault × Fault := (st.complaint.getD f, f)

/-- The rest of a string behind its opening quote. -/
def readString : Nat → Cursor → StringState → Except (Fault × Fault) (Except Fault String × Cursor)
  | 0, c, st => .error (st.broken ⟨.endOfString, c.spot⟩)
  | fuel + 1, c, st =>
    match c.rest with
    | [] => .error (st.broken ⟨.endOfString, c.spot⟩)
    | x :: rest =>
      let next : Cursor := ⟨rest, c.spot.after x⟩
      if x = '"' then
        match st.complaint with
        | some f => .ok (.error f, next)
        | none => .ok (.ok (String.ofList st.chars.reverse), next)
      else if x.toNat < 32 then
        .error ((st.broken ⟨.controlCharacter, next.spot⟩).1, ⟨.controlCharacter, c.spot⟩)
      else if x ≠ '\\' then readString fuel next { st with chars := x :: st.chars }
      else
        match next.rest with
        | [] => .error (st.broken ⟨.endOfString, next.spot⟩)
        | y :: _ =>
          let behind := next.drop
          if y = 'u' then
            match readUnicode behind with
            | .error f => .error (st.broken f)
            | .ok (.ok ch, c') => readString fuel c' { st with chars := ch :: st.chars }
            | .ok (.error f, c') => readString fuel c' { st with complaint := some (st.complaint.getD f) }
          else
            match simpleEscape? y with
            | some ch => readString fuel behind { st with chars := ch :: st.chars }
            | none => .error (st.broken ⟨.invalidEscape, ⟨next.spot.line, next.spot.column + 1⟩⟩)

/-- The digits at a cursor. -/
def readDigits (c : Cursor) : List Char × Cursor :=
  let ds := c.rest.takeWhile Text.isDigit
  (ds, ⟨c.rest.drop ds.length, ⟨c.spot.line, c.spot.column + ds.length⟩⟩)

/-- The exponent of a number, if there is one. -/
def readExponent (c : Cursor) : Except Fault (Option (Bool × List Char) × Cursor) :=
  match c.rest with
  | e :: _ =>
    if e = 'e' ∨ e = 'E' then
      let c := c.drop
      let (down, c) := match c.rest with
        | '+' :: _ => (false, c.drop)
        | '-' :: _ => (true, c.drop)
        | _ => (false, c)
      match c.rest with
      | [] => .error ⟨.endOfValue, c.spot⟩
      | d :: _ =>
        if Text.isDigit d then
          let (ds, c) := readDigits c
          .ok (some (down, ds), c)
        else .error ⟨.invalidNumber, c.ahead⟩
    else .ok (none, c)
  | [] => .ok (none, c)

/-- A number behind its sign. -/
def readNumber (negative : Bool) (c : Cursor) : Except Fault (Numeral × Cursor) :=
  match c.rest with
  | [] => .error ⟨.endOfValue, c.spot⟩
  | d :: rest =>
    if !Text.isDigit d then .error ⟨.invalidNumber, c.ahead⟩
    else if d = '0' ∧ (rest.head?.map Text.isDigit).getD false then .error ⟨.invalidNumber, c.drop.ahead⟩
    else
      let (whole, c) := if d = '0' then (['0'], c.drop) else readDigits c
      match c.rest with
      | '.' :: _ =>
        let c := c.drop
        let (ds, c) := readDigits c
        if ds.isEmpty then
          match c.rest with
          | [] => .error ⟨.endOfValue, c.spot⟩
          | _ => .error ⟨.invalidNumber, c.ahead⟩
        else do
          let (e, c) ← readExponent c
          return (⟨negative, whole, some ds, e⟩, c)
      | _ => do
        let (e, c) ← readExponent c
        return (⟨negative, whole, none, e⟩, c)

/-- The rest of a word such as `null` behind its first letter. -/
def readWord : List Char → Cursor → Except Fault Cursor
  | [], c => .ok c
  | w :: ws, c =>
    match c.rest with
    | [] => .error ⟨.endOfValue, c.spot⟩
    | x :: _ => if x = w then readWord ws c.drop else .error ⟨.expectedIdent, c.ahead⟩

/-- A text that goes wrong, to whoever reads it. -/
def broken (f : Fault) : Tree := .broken f f

mutual

/-- A value; no cursor is left if the text went wrong. -/
def readTree : Nat → Cursor → Tree × Option Cursor
  | 0, c => (broken ⟨.endOfValue, c.spot⟩, none)
  | fuel + 1, c =>
    let c := c.skipBlanks
    match c.rest with
    | [] => (broken ⟨.endOfValue, c.spot⟩, none)
    | x :: _ =>
      if x = 'n' then word (readWord "ull".toList c.drop) .null
      else if x = 't' then word (readWord "rue".toList c.drop) (.bool true)
      else if x = 'f' then word (readWord "alse".toList c.drop) (.bool false)
      else if x = '-' then numeral (readNumber true c.drop)
      else if Text.isDigit x then numeral (readNumber false c)
      else if x = '"' then
        match readString c.rest.length c.drop ⟨[], none⟩ with
        | .ok (content, c) => (.text content c.spot, some c)
        | .error (f, passed) => (.broken f passed, none)
      else if x = '[' then
        let (items, c') := readItems fuel true c.drop
        (.list c.spot items, c')
      else if x = '\x7b' then
        let (members, c') := readMembers fuel true c.drop
        (.record c.spot members, c')
      else (broken ⟨.expectedValue, c.ahead⟩, none)

/-- The items of a list behind its bracket, or behind an item. -/
def readItems : Nat → Bool → Cursor → Items × Option Cursor
  | 0, _, c => (.stopped .ended c.spot, none)
  | fuel + 1, first, c =>
    let c := c.skipBlanks
    match c.rest with
    | [] => (.stopped .ended c.spot, none)
    | x :: _ =>
      if x = ']' then (.close c.drop.spot, some c.drop)
      else if first then item fuel c
      else if x = ',' then
        let c := c.drop.skipBlanks
        match c.rest with
        | [] => (.stopped .endedAfterComma c.spot, none)
        | ']' :: _ => (.stopped .trailing c.ahead, none)
        | _ => item fuel c
      else (.stopped .other c.ahead, none)

/-- One item and those behind it. -/
def item : Nat → Cursor → Items × Option Cursor
  | 0, c => (.stopped .ended c.spot, none)
  | fuel + 1, c =>
    match readTree fuel c with
    | (v, none) => (.item c.ahead v (.stopped .ended c.spot), none)
    | (v, some c') =>
      let (rest, c'') := readItems fuel false c'
      (.item c.ahead v rest, c'')

/-- The members of an object behind its bracket, or behind a member. -/
def readMembers : Nat → Bool → Cursor → Members × Option Cursor
  | 0, _, c => (.stopped .ended c.spot, none)
  | fuel + 1, first, c =>
    let c := c.skipBlanks
    match c.rest with
    | [] => (.stopped .ended c.spot, none)
    | x :: _ =>
      if x = '\x7d' then (.close c.drop.spot, some c.drop)
      else if first then
        if x = '"' then member fuel c else (.stopped .noKey c.ahead, none)
      else if x = ',' then
        let c := c.drop.skipBlanks
        match c.rest with
        | [] => (.stopped .endedAfterComma c.spot, none)
        | '"' :: _ => member fuel c
        | '\x7d' :: _ => (.stopped .trailing c.ahead, none)
        | _ => (.stopped .noKey c.ahead, none)
      else (.stopped .other c.ahead, none)

/-- One member, whose key starts at the cursor, and those behind it. -/
def member : Nat → Cursor → Members × Option Cursor
  | 0, c => (.stopped .ended c.spot, none)
  | fuel + 1, c =>
    match readString c.rest.length c.drop ⟨[], none⟩ with
    | .error (f, passed) => (.member (.error f) c.spot (.broken f passed) (.stopped .ended c.spot), none)
    | .ok (key, c) =>
      let c := c.skipBlanks
      let failed (f : Fault) (settled : Spot) : Members × Option Cursor :=
        (.member key settled (broken f) (.stopped .ended c.spot), none)
      match c.rest with
      | [] => failed ⟨.endOfObject, c.spot⟩ c.spot
      | ':' :: _ =>
        match readTree fuel c.drop with
        | (v, none) => (.member key c.spot v (.stopped .ended c.spot), none)
        | (v, some c') =>
          let (rest, c'') := readMembers fuel false c'
          (.member key c.spot v rest, c'')
      | '\x7d' :: _ => failed ⟨.expectedColon, c.ahead⟩ c.drop.spot
      | _ => failed ⟨.expectedColon, c.ahead⟩ c.spot

/-- A word as a tree. -/
def word (r : Except Fault Cursor) (v : Spot → Tree) : Tree × Option Cursor :=
  match r with
  | .ok c => (v c.spot, some c)
  | .error f => (broken f, none)

/-- A number as a tree. -/
def numeral (r : Except Fault (Numeral × Cursor)) : Tree × Option Cursor :=
  match r with
  | .ok (n, c) => (.number n c.spot, some c)
  | .error f => (broken f, none)

end

/-- The tree of a text, and what must not follow it: the fault of the characters behind the value. -/
def Tree.ofText (s : String) : Tree × Option Fault :=
  let c := Cursor.ofText s
  match readTree (3 * c.rest.length + 3) c with
  | (t, none) => (t, none)
  | (t, some c) =>
    let c := c.skipBlanks
    (t, if c.rest.isEmpty then none else some ⟨.trailingCharacters, c.ahead⟩)

/-- Reads a text through a walk over its tree; nothing but blanks may follow the value. -/
def readWith {α : Type} (walk : Tree → Except Fault α) (s : String) : Except Fault α :=
  let (t, behind) := Tree.ofText s
  match walk t with
  | .error f => .error f
  | .ok v =>
    match behind with
    | none => .ok v
    | some f => .error f

/-- The value of a text. -/
def parse (s : String) : Except Fault Json := readWith (Tree.value depthLimit) s

end Json
end ArmPilot
