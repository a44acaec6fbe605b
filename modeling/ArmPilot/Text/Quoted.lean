import ArmPilot.Text.Digits
import ArmPilot.Text.Hidden

/-!
# Quoted text

A text between quotes spells what it cannot show: a few characters have a letter of their own, the other hidden ones
are given by number.
-/

namespace ArmPilot
namespace Text

/-- A character of a quoted text, between the given quotes. -/
def quotedChar (quote c : Char) : String :=
  if c = '\\' then "\\\\"
  else if c = quote then "\\" ++ String.singleton c
  else if c = '\n' then "\\n"
  else if c = '\r' then "\\r"
  else if c = '\t' then "\\t"
  else if c.toNat = 0 then "\\0"
  else if isHidden c then "\\u\x7b" ++ hexDigits c.toNat ++ "\x7d"
  else String.singleton c

/-- A text between double quotes. -/
def quoted (s : String) : String := "\"" ++ String.join (s.toList.map (quotedChar '"')) ++ "\""

end Text
end ArmPilot
