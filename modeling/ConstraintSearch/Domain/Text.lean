import ConstraintSearch.Domain.Basic

/-!
# The text of a domain

A domain is written as the list of its ranges in brackets, `[1..3, 7]`, where a range of one value
is that value.
-/

namespace ConstraintSearch

/-- The bounds with two dots between them, or the value if there is only one. -/
def Range.text (range : Range) : String :=
  if range.lo = range.hi then s!"{range.lo}" else s!"{range.lo}..{range.hi}"

/-- The ranges, separated by commas, in brackets. -/
def Domain.text (domain : Domain) : String :=
  "[" ++ ", ".intercalate (domain.ranges.map Range.text) ++ "]"

end ConstraintSearch
