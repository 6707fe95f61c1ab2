import ConstraintSearch.Letter.Case
import ConstraintSearch.Letter.Cluster

/-!
# Casings

A name is divided into words at underscores and where a capital letter follows a small one, and
written again in the way of a casing. A letter is read with its marks, and the letters of every
script count. The letter in front of a word, however, is written as a capital without its marks.
-/

namespace ConstraintSearch

/-- A way to write a name of several words. -/
inductive Casing
  | camel
  | snake
  | pascal
  | screamingSnake
  | kebab
  | title
  | upper
  | lower
  | flat
deriving DecidableEq, Repr

namespace Casing

/-- The words of a text, given the word that is being read, backwards. Texts and words are lists of
letters with their marks. -/
def wordsFrom : (current text : List (List Char)) → List (List (List Char))
  | current, [] => [current.reverse]
  | current, ['_'] :: rest => current.reverse :: wordsFrom [] rest
  | current, letter :: rest =>
    match current with
    | last :: _ =>
      if Letter.isSmall last && Letter.isCapital letter then
        current.reverse :: wordsFrom [letter] rest
      else
        wordsFrom (letter :: current) rest
    | [] => wordsFrom [letter] rest

/-- The words of a name; there is none between two underscores or next to the ends. -/
def words (name : String) : List (List Char) :=
  ((wordsFrom [] (Letter.clusters name.toList)).map List.flatten).filter fun word => !word.isEmpty

/-- A word with its first character as a capital and all others small, as in a text of their own. -/
def capitalized : List Char → List Char
  | [] => []
  | first :: rest => Letter.capitals [first] ++ Letter.smalls rest

/-- The words as the casing writes them. -/
def writeWords (casing : Casing) (words : List (List Char)) : List (List Char) :=
  match casing with
  | camel =>
    match words with
    | [] => []
    | first :: rest => Letter.smalls first :: rest.map capitalized
  | pascal | title => words.map capitalized
  | screamingSnake | upper => words.map Letter.capitals
  | snake | kebab | lower | flat => words.map Letter.smalls

/-- What the casing puts between two words. -/
def separator : Casing → List Char
  | snake | screamingSnake => ['_']
  | kebab => ['-']
  | title | upper | lower => [' ']
  | camel | pascal | flat => []

/-- The name in the casing. -/
def write (casing : Casing) (name : String) : String :=
  String.ofList (casing.separator.intercalate (casing.writeWords (words name)))

end Casing

end ConstraintSearch
