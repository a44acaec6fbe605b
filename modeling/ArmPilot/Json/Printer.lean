import ArmPilot.Json.Basic

/-!
# Writing documents

A document is written compactly, or set out on lines with two blanks of indentation a level.  Both
forms escape the same characters in strings: the quote, the backslash and the control characters.
-/

namespace ArmPilot
namespace Json

/-- The digit of a value below sixteen, in lower case. -/
def hexDigit (n : Nat) : Char :=
  if n < 10 then Char.ofNat (48 + n) else Char.ofNat (87 + n)

/-- How one character stands inside a quoted string. -/
def escapeChar (c : Char) : List Char :=
  if c = '"' then ['\\', '"']
  else if c = '\\' then ['\\', '\\']
  else if c.toNat = 8 then ['\\', 'b']
  else if c.toNat = 9 then ['\\', 't']
  else if c.toNat = 10 then ['\\', 'n']
  else if c.toNat = 12 then ['\\', 'f']
  else if c.toNat = 13 then ['\\', 'r']
  else if c.toNat < 32 then ['\\', 'u', '0', '0', hexDigit (c.toNat / 16), hexDigit (c.toNat % 16)]
  else [c]

/-- A string between quotes. -/
def quoted (s : String) : List Char :=
  '"' :: s.toList.flatMap escapeChar ++ ['"']

/-- The characters of a scalar; lists and objects are the caller's. -/
def scalarChars : Json → List Char
  | .null => "null".toList
  | .bool true => "true".toList
  | .bool false => "false".toList
  | .num n => n.text.toList
  | .str s => quoted s
  | .arr _ => []
  | .obj _ => []

mutual

/-- The compact form. -/
def compactChars : Json → List Char
  | .arr items => '[' :: compactItems items ++ [']']
  | .obj members => '\x7b' :: compactMembers members ++ ['\x7d']
  | .null => scalarChars .null
  | .bool b => scalarChars (.bool b)
  | .num n => scalarChars (.num n)
  | .str s => scalarChars (.str s)

/-- The items of a list, with commas between them. -/
def compactItems : List Json → List Char
  | [] => []
  | [v] => compactChars v
  | v :: rest => compactChars v ++ ',' :: compactItems rest

/-- The members of an object, with commas between them. -/
def compactMembers : List (String × Json) → List Char
  | [] => []
  | [(k, v)] => quoted k ++ ':' :: compactChars v
  | (k, v) :: rest => quoted k ++ ':' :: compactChars v ++ ',' :: compactMembers rest

end

/-- A line break and the indentation of a level. -/
def newline (level : Nat) : List Char := '\n' :: List.replicate (2 * level) ' '

mutual

/-- The form set out on lines, at a level of indentation. -/
def prettyChars (level : Nat) : Json → List Char
  | .arr [] => ['[', ']']
  | .arr (v :: rest) => '[' :: prettyItems (level + 1) (v :: rest) ++ newline level ++ [']']
  | .obj [] => ['\x7b', '\x7d']
  | .obj (m :: rest) => '\x7b' :: prettyMembers (level + 1) (m :: rest) ++ newline level ++ ['\x7d']
  | .null => scalarChars .null
  | .bool b => scalarChars (.bool b)
  | .num n => scalarChars (.num n)
  | .str s => scalarChars (.str s)

/-- The items of a list, a line each. -/
def prettyItems (level : Nat) : List Json → List Char
  | [] => []
  | [v] => newline level ++ prettyChars level v
  | v :: rest => newline level ++ prettyChars level v ++ ',' :: prettyItems level rest

/-- The members of an object, a line each. -/
def prettyMembers (level : Nat) : List (String × Json) → List Char
  | [] => []
  | [(k, v)] => newline level ++ quoted k ++ [':', ' '] ++ prettyChars level v
  | (k, v) :: rest =>
    newline level ++ quoted k ++ [':', ' '] ++ prettyChars level v ++ ',' :: prettyMembers level rest

end

/-- The compact text of a value. -/
def compact (v : Json) : String := String.ofList (compactChars v)

/-- The text of a value set out on lines. -/
def pretty (v : Json) : String := String.ofList (prettyChars 0 v)

end Json
end ArmPilot
