import ArmPilot.Lang.Token

/-!
# Names of variables

A variable can be given a value by name only if the name is made of letters, digits and underscores and
does not begin with a digit.
-/

namespace ArmPilot

/-- Whether a text can be the name of a variable. -/
def isIdentifier (name : String) : Bool :=
  match name.toList with
  | [] => false
  | c :: rest => (Lang.isNameStart c || c = '_') && rest.all Lang.isNamePart

end ArmPilot
