import ConstraintSearch.Domain.Basic

/-!
# Arithmetic on domains

Each operation combines every range of one operand with every range of the other and joins the
results. Sums and differences are exact; products and quotients may hold values that no pair of
operands gives, and never lose one that some pair gives. Results outside of the values that
variables can take are dropped.
-/

namespace ConstraintSearch

namespace Domain

/-- Joins the results of an operation on every pair of ranges. -/
def combine (operation : Range → Range → Option Range) (left right : Domain) : Domain :=
  ofRanges (left.ranges.flatMap fun range => right.ranges.filterMap (operation range))

/-- The sums of two ranges. -/
def sumRange (left right : Range) : Range :=
  ⟨left.lo + right.lo, left.hi + right.hi⟩

/-- The differences of two ranges. -/
def differenceRange (left right : Range) : Range :=
  ⟨left.lo - right.hi, left.hi - right.lo⟩

/-- A range around the products of two ranges of non-negative values. -/
def productRange (left right : Range) : Range :=
  ⟨left.lo * right.lo, left.hi * right.hi⟩

/-- A range around the quotients of two ranges of non-negative values, the divisor 0 left out: the
lower bound is rounded up and the upper bound down. -/
def quotientRange? (dividend divisor : Range) : Option Range :=
  let smallest := max divisor.lo 1
  if divisor.hi < smallest then
    none
  else
    some ⟨(dividend.lo + divisor.hi - 1) / divisor.hi, dividend.hi / smallest⟩

/-- All sums of a value of the left and one of the right domain. -/
def plus : Domain → Domain → Domain :=
  combine fun left right => some (sumRange left right)

/-- All differences, as far as they are not negative. -/
def minus : Domain → Domain → Domain :=
  combine fun left right => some (differenceRange left right)

/-- All products, and possibly values between them. -/
def mul : Domain → Domain → Domain :=
  combine fun left right => some (productRange left right)

/-- Every value whose product with some divisor is in the dividend, and possibly values between
them. If both operands may be 0, every value qualifies. -/
def divBy (dividend divisor : Domain) : Domain :=
  if 0 ∈ dividend ∧ 0 ∈ divisor then
    full
  else
    combine quotientRange? dividend divisor

end Domain

end ConstraintSearch
