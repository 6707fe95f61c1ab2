import ConstraintSearch.Letter.CaseTable
import ConstraintSearch.Letter.Cased

/-!
# Changing the case of a text

A text is written in capital or in small letters, where one letter may become several. The small
form of a capital sigma depends on whether it ends a word; every other letter has one form
everywhere.
-/

namespace ConstraintSearch.Letter

/-- The text in capital letters. -/
def capitals (text : List Char) : List Char :=
  text.flatMap (mapped capitalRuns longCapitals)

/-- The small form of a character that stands between two parts of a text, the first of which is
read backwards. -/
def smallBetween (before : List Char) (char : Char) (after : List Char) : List Char :=
  if char = 'Σ' then
    if endsWord before after then ['ς'] else ['σ']
  else
    mapped smallRuns longSmalls char

/-- The text in small letters, behind a part that is read backwards. -/
def smallsBehind (before : List Char) : List Char → List Char
  | [] => []
  | char :: rest => smallBetween before char rest ++ smallsBehind (char :: before) rest

/-- The text in small letters. -/
def smalls (text : List Char) : List Char :=
  smallsBehind [] text

/-- Whether a text has a case and is written in small letters. -/
def isSmall (text : List Char) : Bool :=
  capitals text ≠ smalls text && text = smalls text

/-- Whether a text has a case and is written in capital letters. -/
def isCapital (text : List Char) : Bool :=
  capitals text ≠ smalls text && text = capitals text

end ConstraintSearch.Letter
