import ArmPilot.Lang.Value
import ArmPilot.Decimal.Layout
import ArmPilot.Text.Quoted

/-!
# Texts of values

A value has a plain text, as it is shown outside, and a quoted text inside of arrays and maps.  Scripts
print values by rules of their own: characters are never quoted, and devices go by their short names.
-/

namespace ArmPilot
namespace Lang

/-- The text of a range; the greatest word is not written as its end. -/
def rangeText (first last : Int) (inclusive : Bool) : String :=
  toString first ++ (if inclusive then "..=" else "..") ++ (if last = Word.greatest then "" else toString last)

/-- Texts with a separator between them. -/
def joinWith (separator : String) : List String → String
  | [] => ""
  | [s] => s
  | s :: rest => s ++ separator ++ joinWith separator rest

/-- The digits of bytes, with a blank in front of every eighth byte but the first. -/
def bytesDigits : Nat → List UInt8 → List Char
  | _, [] => []
  | i, b :: rest =>
    let digits := Nat.toDigits 16 b.toNat
    (if i > 0 && i % 8 = 0 then [' '] else []) ++ (if digits.length < 2 then '0' :: digits else digits)
      ++ bytesDigits (i + 1) rest

/-- The text of bytes. -/
def bytesText (bs : List UInt8) : String := "[" ++ String.ofList (bytesDigits 0 bs) ++ "]"

/-- The text of a function value. -/
def functionText (name : String) : String := "Fn(" ++ name ++ ")"

namespace Value

mutual

/-- The text of a value inside of another. -/
def quoted : Value → String
  | .unit => "()"
  | .bool b => toString b
  | .int n => toString n
  | .float x => Decimal.Layout.precise.text x
  | .char c => "'" ++ Text.quotedChar '\x27' c ++ "'"
  | .string s => Text.quoted s
  | .array items => "[" ++ joinWith ", " (quotedItems items) ++ "]"
  | .map members => "#\x7b" ++ joinWith ", " (quotedMembers members) ++ "\x7d"
  | .bytes bs => bytesText bs
  | .range a b inclusive => rangeText a b inclusive
  | .function name _ _ => functionText name
  | .device d => d.fullName
  | .stream s => s.fullName
  | .shared _ => "<shared>"

/-- The texts of the items of an array. -/
def quotedItems : List Value → List String
  | [] => []
  | v :: rest => quoted v :: quotedItems rest

/-- The texts of the members of a map. -/
def quotedMembers : List (String × Value) → List String
  | [] => []
  | (k, v) :: rest => (Text.quoted k ++ ": " ++ quoted v) :: quotedMembers rest

end

/-- The text of a value that stands alone. -/
def text : Value → String
  | .unit => ""
  | .float x => Decimal.scriptText x
  | .char c => String.singleton c
  | .string s => s
  | v => v.quoted

mutual

/-- The text that a script sees inside of an array or a map, and when it debugs. -/
def debugged : Value → String
  | .unit => "()"
  | .float x => Decimal.Layout.precise.text x
  | .char c => String.singleton c
  | .string s => Text.quoted s
  | .array items => "[" ++ joinWith ", " (debuggedItems items) ++ "]"
  | .map members => "#\x7b" ++ joinWith ", " (debuggedMembers members) ++ "\x7d"
  | .device d => d.name
  | v => v.text

/-- The texts of the items of an array. -/
def debuggedItems : List Value → List String
  | [] => []
  | v :: rest => debugged v :: debuggedItems rest

/-- The texts of the members of a map. -/
def debuggedMembers : List (String × Value) → List String
  | [] => []
  | (k, v) :: rest => (Text.quoted k ++ ": " ++ debugged v) :: debuggedMembers rest

end

/-- The text that a script prints. -/
def printed : Value → String
  | .unit => ""
  | .float x => Decimal.scriptText x
  | .string s => s
  | v => v.debugged

/-- Whether a value counts as true: zero, the empty text, array and map, and unit do not. -/
def truthy : Value → Bool
  | .unit => false
  | .bool b => b
  | .int n => n ≠ 0
  | .float x => x != 0.0
  | .string s => s ≠ ""
  | .array items => !items.isEmpty
  | .map members => !members.isEmpty
  | _ => true

end Value

end Lang
end ArmPilot
