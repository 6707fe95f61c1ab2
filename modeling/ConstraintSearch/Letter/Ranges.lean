/-!
# Ranges of characters

A class of characters is given by ranges of codes, each by its first and its last one. All classes
and tables of letters are those of version 17 of the Unicode standard.
-/

namespace ConstraintSearch.Letter

/-- Whether the code of a character lies in one of the ranges. -/
def among (ranges : List (Nat × Nat)) (char : Char) : Bool :=
  ranges.any fun (first, last) => first ≤ char.toNat && char.toNat ≤ last

end ConstraintSearch.Letter
