import ConstraintSearch.Model.Error

/-!
# Names of variables

A variable is known by the name it was declared with and by its position in the order of
declaration.
-/

namespace ConstraintSearch

/-- The position of a variable in the order of declaration. Such positions, like those of the
propagators of a network, are meant for words of 32 bits: a model holds fewer than 2^32 variables
and propagators, so that no position is ever cut off. -/
abbrev VariableId := Nat

/-- The text that stands for a variable where its name is not used. -/
def VariableId.text (variableId : VariableId) : String :=
  s!"x{variableId}"

/-- Whether a name reads as a number: digits, possibly after a minus sign. -/
def isNumericName (name : String) : Bool :=
  let digits :=
    match name.toList with
    | '-' :: rest => rest
    | all => all
  !digits.isEmpty && digits.all Char.isDigit

/-- Refuses the names that no variable may have: the empty one, and those that would be taken for a
literal. -/
def checkName (name : String) : Except ModelError Unit :=
  if name.isEmpty then .error .emptyName
  else if isNumericName name then .error (.numericName name)
  else .ok ()

end ConstraintSearch
