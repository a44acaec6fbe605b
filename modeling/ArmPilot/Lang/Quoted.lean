import ArmPilot.Lang.Scan
import ArmPilot.Lang.Token
import ArmPilot.Text.Blank
import ArmPilot.Text.Digits

/-!
# Quoted texts

A text stands between quotes, which say what a backslash means, whether lines may break and whether blocks may be
embedded, or between a quote with hash marks, where nothing has a meaning of its own.
-/

namespace ArmPilot
namespace Lang

/-- How a quoted text is delimited and what it may hold. -/
structure Quoting where
  close : Char
  /-- Whether backslashes stand for themselves and lines may break. -/
  verbatim : Bool
  /-- Whether a backslash at the end of a line continues the text. -/
  continues : Bool
  /-- Whether the text may hold embedded blocks. -/
  embeds : Bool

/-- A text between double quotes. -/
def Quoting.double : Quoting := ⟨'"', false, true, false⟩

/-- A character between single quotes. -/
def Quoting.single : Quoting := ⟨'\'', false, false, false⟩

/-- A text between backquotes. -/
def Quoting.back : Quoting := ⟨'\x60', true, false, true⟩

/-- A text that was read: what it says, where its first character stands, how it ends, and the rest. -/
structure Quoted where
  text : List Char
  /-- The place of the first character; an empty text has none. -/
  begins : Place
  /-- Whether an embedded block follows. -/
  embedded : Bool
  /-- Whether the script ended where the text may still go on. -/
  unfinished : Bool
  rest : Scan

/-- Reads the digits of a numeric escape. -/
def readEscape : Nat → Nat → List Char → Scan → Except (LexFault × Position) (Char × Scan)
  | 0, value, spelt, s =>
    if value.isValidChar then .ok (Char.ofNat value, s)
    else .error (.malformedEscape (String.ofList spelt.reverse), s.at_)
  | n + 1, value, spelt, s =>
    match s.rest with
    | [] => .error (.malformedEscape (String.ofList spelt.reverse), s.at_)
    | c :: _ =>
      let s := s.step
      match Text.hexValue? c with
      | some d => readEscape n (value * 16 + d) (c :: spelt) s
      | none => .error (.malformedEscape (String.ofList (c :: spelt).reverse), s.at_)

/-- The characters behind a backslash, without a carriage return in front of a line feed. -/
def behindBackslash (s : Scan) : Scan :=
  match s.rest with
  | '\r' :: '\n' :: _ => s.step
  | _ => s

/-- The rest of a quoted text.  `acc` holds its characters in reverse and `begins` the place of the first; `margin`
is the column below which blanks are dropped behind a continued line; `limit` is the greatest length in bytes, zero
for none. -/
def readQuoted (q : Quoting) (limit : Nat) (start : Position) :
    Nat → List Char → Nat → Place → Nat → Scan → Except (LexFault × Position) Quoted
  | 0, _, _, _, _, _ => .error (.unterminatedString, start)
  | fuel + 1, acc, size, begins, margin, s =>
    match s.rest with
    | [] => if q.verbatim then finish acc size begins false true s else .error (.unterminatedString, start)
    | c :: rest =>
      let s := s.step
      let next := s.peek?
      if q.embeds ∧ c = '$' ∧ next = some '\x7b' then finish acc size begins true false s
      else if q.embeds ∧ c = '\\' ∧ rest.take 2 = ['$', '\x7b'] then
        -- behind a backslash a block is not embedded, and its two marks count as one column
        readQuoted q limit start fuel ('\x7b' :: '$' :: acc) (size + 2) (begins.orElse s.at_) margin
          ⟨s.rest.drop 2, s.at_.advance⟩
      else if limit > 0 ∧ size > limit then .error (.stringTooLong limit, start)
      else if c = q.close ∧ next ≠ some q.close then finish acc size begins false false s
      else
        let s := if c = q.close then s.step else s
        let begins := begins.orElse s.at_
        let go (acc : List Char) (size margin : Nat) (s : Scan) :=
          readQuoted q limit start fuel acc size begins margin s
        if c = q.close then go (c :: acc) (size + c.utf8Size) 0 s
        else if c = '\r' ∧ next = some '\n' then go acc size margin s
        else if c = '\\' ∧ !q.verbatim then
          let s := behindBackslash s
          match s.rest with
          | [] =>
            if q.continues then finish acc size begins false true s else .error (.unterminatedString, start)
          | e :: _ =>
            let s := s.step
            let one (ch : Char) := go (ch :: acc) (size + ch.utf8Size) margin s
            if e = '\\' then one '\\'
            else if e = 't' then one '\t'
            else if e = 'n' then one '\n'
            else if e = 'r' then one '\r'
            else if e = 'x' ∨ e = 'u' ∨ e = 'U' then
              match readEscape (if e = 'x' then 2 else if e = 'u' then 4 else 8) 0 [e, '\\'] s with
              | .error f => .error f
              | .ok (ch, s) => go (ch :: acc) (size + ch.utf8Size) margin s
            else if e = '\n' ∧ q.continues then
              go acc size (start.column + 1) ⟨s.rest, s.at_.newLine⟩
            else if e = '\n' then .error (.unterminatedString, start)
            else if e = q.close then one e
            else .error (.malformedEscape (String.ofList ['\\', e]), s.at_)
        else if c = '\n' then
          if q.verbatim then go (c :: acc) (size + 1) margin ⟨s.rest, s.at_.newLine⟩
          else .error (.unterminatedString, start)
        else if Text.isBlank c ∧ s.at_.column < margin then go acc size margin s
        else go (c :: acc) (size + c.utf8Size) 0 s
where
  finish (acc : List Char) (size : Nat) (begins : Place) (embedded unfinished : Bool) (s : Scan) :
      Except (LexFault × Position) Quoted :=
    if limit > 0 ∧ size > limit then .error (.stringTooLong limit, start)
    else .ok ⟨acc.reverse, begins, embedded, unfinished, s⟩

/-- The rest of a text that a quote and a number of hash marks end.  `hashes` tells, behind a quote that may end it,
the hash marks read so far; the character that shows that it does not end there is never a new line of its own. -/
def readRaw (wanted limit : Nat) (start : Position) :
    Option Nat → List Char → Nat → List Char → Position → Except (LexFault × Position) Quoted
  | _, _, _, [], _ => .error (.unterminatedString, start)
  | hashes, acc, size, c :: rest, p =>
    let go (hashes : Option Nat) (more : List Char) (p : Position) :=
      let size := size + (String.ofList more).utf8ByteSize
      if limit > 0 ∧ size > limit then .error (.stringTooLong limit, start)
      else readRaw wanted limit start hashes (more.reverse ++ acc) size rest p
    match hashes with
    | none =>
      if c = '"' then go (some 0) [] p.advance
      else go none [c] (if c = '\n' then p.newLine else p.advance)
    | some n =>
      let seen := '"' :: List.replicate n '#'
      if c = '#' then
        if n + 1 = wanted then .ok ⟨acc.reverse, some start, false, false, ⟨rest, p.advance⟩⟩
        else go (some (n + 1)) [] p.advance
      else if c = '"' then go (some 0) seen p.advance
      else go none (seen ++ [c]) p.advance

/-- A text between quotes with hash marks, from its first hash mark on. -/
def readHashed (limit : Nat) (start : Position) (s : Scan) : Except (LexFault × Position) Quoted :=
  let (hashes, s) := s.takeWhile (· = '#')
  match s.rest with
  | [] => .error (.unterminatedString, start)
  | '"' :: rest => readRaw hashes.length limit start none [] 0 rest s.at_.advance
  | c :: _ => .error (.unexpected (String.singleton c), start)

end Lang
end ArmPilot
