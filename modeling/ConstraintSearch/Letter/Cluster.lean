import ConstraintSearch.Letter.Compound

/-!
# Letters with their marks

A text is divided into clusters, each of which is read as one letter: a character with its marks, or
a compound sign. The parts of a Korean syllable and of a flag are clusters of their own, since only
letters that have a case matter here.
-/

namespace ConstraintSearch.Letter

/-- Whether a character belongs to the letter before it, given the text before it, which is read
backwards. -/
def adheres : (before : List Char) → (next : Char) → Bool
  | [], _ => false
  | last :: earlier, next =>
    !among controls last && !among controls next &&
      (isTrailingMark next || among leadingMarks last || joinsPictograph (last :: earlier) next ||
        linksConsonant (last :: earlier) next)

/-- Puts a character in front of the clusters behind it: into the first of them if they go on with
the same letter. -/
def joinCluster (char : Char) (goesOn : Bool) : List (List Char) → List (List Char)
  | [] => [[char]]
  | cluster :: rest => if goesOn then (char :: cluster) :: rest else [char] :: cluster :: rest

/-- The letters of a text, each with its marks, behind a part that is read backwards. -/
def clustersBehind (before : List Char) : List Char → List (List Char)
  | [] => []
  | char :: rest =>
    joinCluster char (rest.head?.any (adheres (char :: before)))
      (clustersBehind (char :: before) rest)

/-- The letters of a text, each with its marks. -/
def clusters (text : List Char) : List (List Char) :=
  clustersBehind [] text

end ConstraintSearch.Letter
