import ConstraintSearch.Domain.Arithmetic
import ConstraintSearch.Proofs.Domain.Order

/-!
# Combining domains

Sums, differences, products and quotients of domains are put together from the ranges of their
operands. Two laws hold of each of them: larger operands have a larger result, and on operands with
one value left the result holds exactly what the operation gives on these values.
-/

namespace ConstraintSearch

namespace Range

/-- The first range lies within the second one. -/
def Within (inner outer : Range) : Prop :=
  outer.lo ≤ inner.lo ∧ inner.hi ≤ outer.hi

/-- The values of an inner range are in the outer one. -/
theorem Within.mem {inner outer : Range} (within : inner.Within outer) {value : Int}
    (member : value ∈ inner) :
    value ∈ outer :=
  ⟨Int.le_trans within.1 member.1, Int.le_trans member.2 within.2⟩

end Range

/-- Consecutive values that a canonical list covers are all in one of its ranges. -/
theorem CanonicalFrom.exists_within {bound : Int} {ranges : List Range} {inner : Range}
    (canonical : CanonicalFrom bound ranges) (nonempty : inner.lo ≤ inner.hi)
    (covered : ∀ value ∈ inner, Covers ranges value) : ∃ outer ∈ ranges, inner.Within outer := by
  induction ranges generalizing bound with
  | nil => exact absurd (covered inner.lo ⟨Int.le_refl _, nonempty⟩) covers_nil
  | cons head rest inductionHypothesis =>
    obtain ⟨_, _, _, tail⟩ := canonical
    rcases covers_cons.mp (covered inner.lo ⟨Int.le_refl _, nonempty⟩) with loInHead | loInRest
    · refine ⟨head, List.mem_cons_self, loInHead.1, Int.not_lt.mp fun ends => ?_⟩
      -- The value behind the head would be missing.
      have loInHead := Range.mem_iff.mp loInHead
      rcases covers_cons.mp (covered (head.hi + 1) ⟨by omega, by omega⟩) with inHead | inRest
      · have := Range.mem_iff.mp inHead
        omega
      · have := tail.bounds inRest
        omega
    · have start := tail.bounds loInRest
      obtain ⟨outer, inside, within⟩ := inductionHypothesis tail fun value member => by
        rcases covers_cons.mp (covered value member) with inHead | inRest
        · have := Range.mem_iff.mp inHead
          have := Range.mem_iff.mp member
          omega
        · exact inRest
      exact ⟨outer, List.mem_cons_of_mem _ inside, within⟩

namespace Domain

/-- The lower bound of a range is a value of the domain. -/
theorem lo_mem {domain : Domain} {range : Range} (inside : range ∈ domain.ranges) :
    range.lo ∈ domain :=
  ⟨range, inside, Int.le_refl _, domain.canonical.lo_le_hi inside⟩

/-- So is the upper bound. -/
theorem hi_mem {domain : Domain} {range : Range} (inside : range ∈ domain.ranges) :
    range.hi ∈ domain :=
  ⟨range, inside, domain.canonical.lo_le_hi inside, Int.le_refl _⟩

/-- Every range of a part lies within a range of the whole. -/
theorem exists_within_of_subset {part whole : Domain} (subset : part ⊆ whole) {range : Range}
    (inside : range ∈ part.ranges) : ∃ outer ∈ whole.ranges, range.Within outer :=
  whole.canonical.exists_within (part.canonical.lo_le_hi inside) fun value member =>
    subset value ⟨range, inside, member⟩

/-- A combined domain has the supported values of the ranges that the operation gives on pairs of
ranges. -/
theorem mem_combine {operation : Range → Range → Option Range} {left right : Domain} {value : Int} :
    value ∈ combine operation left right ↔
      (∃ first ∈ left.ranges, ∃ second ∈ right.ranges, ∃ result,
        operation first second = some result ∧ value ∈ result) ∧
        valueFloor ≤ value ∧ value ≤ valueCeiling := by
  rw [combine, mem_ofRanges, Covers]
  apply and_congr_left
  intro _
  simp only [List.mem_flatMap, List.mem_filterMap]
  constructor
  · rintro ⟨result, ⟨first, inLeft, second, inRight, combined⟩, member⟩
    exact ⟨first, inLeft, second, inRight, result, combined, member⟩
  · rintro ⟨first, inLeft, second, inRight, result, combined, member⟩
    exact ⟨result, ⟨first, inLeft, second, inRight, combined⟩, member⟩

/-! ### Larger operands -/

/-- An operation on ranges of values that are not negative gives a larger range on larger operands.
-/
def Enlarging (operation : Range → Range → Option Range) : Prop :=
  ∀ {first outerFirst second outerSecond result : Range}, 0 ≤ outerFirst.lo → first.lo ≤ first.hi →
    first.Within outerFirst → 0 ≤ outerSecond.lo → second.lo ≤ second.hi →
      second.Within outerSecond →
      operation first second = some result →
        ∃ outer, operation outerFirst outerSecond = some outer ∧ result.Within outer

/-- An operation that is larger on larger ranges is larger on larger domains. -/
theorem combine_subset {operation : Range → Range → Option Range} (enlarging : Enlarging operation)
    {left outerLeft right outerRight : Domain} (leftSubset : left ⊆ outerLeft)
    (rightSubset : right ⊆ outerRight) :
    combine operation left right ⊆ combine operation outerLeft outerRight := by
  intro value member
  obtain ⟨⟨first, inLeft, second, inRight, result, combined, inResult⟩, inBounds⟩ :=
    mem_combine.mp member
  obtain ⟨outerFirst, inOuterLeft, firstWithin⟩ := exists_within_of_subset leftSubset inLeft
  obtain ⟨outerSecond, inOuterRight, secondWithin⟩ := exists_within_of_subset rightSubset inRight
  obtain ⟨outer, outerCombined, within⟩ := enlarging (bounds (lo_mem inOuterLeft)).1
    (left.canonical.lo_le_hi inLeft) firstWithin (bounds (lo_mem inOuterRight)).1
    (right.canonical.lo_le_hi inRight) secondWithin combined
  exact mem_combine.mpr
    ⟨⟨outerFirst, inOuterLeft, outerSecond, inOuterRight, outer, outerCombined,
      within.mem inResult⟩, inBounds⟩

/-- Sums of larger ranges are larger. -/
theorem enlarging_sumRange : Enlarging fun first second => some (sumRange first second) := by
  rintro first outerFirst second outerSecond _ _ _ firstWithin _ _ secondWithin ⟨rfl⟩
  exact ⟨_, rfl, Int.add_le_add firstWithin.1 secondWithin.1,
    Int.add_le_add firstWithin.2 secondWithin.2⟩

/-- So are differences. -/
theorem enlarging_differenceRange :
    Enlarging fun first second => some (differenceRange first second) := by
  rintro first outerFirst second outerSecond _ _ _ firstWithin _ _ secondWithin ⟨rfl⟩
  exact ⟨_, rfl, Int.sub_le_sub firstWithin.1 secondWithin.2,
    Int.sub_le_sub firstWithin.2 secondWithin.1⟩

/-- So are products, as no value is negative. -/
theorem enlarging_productRange :
    Enlarging fun first second => some (productRange first second) := by
  rintro first outerFirst second outerSecond _ firstLow firstNonempty firstWithin secondLow
    secondNonempty
    secondWithin ⟨rfl⟩
  have firstLo := Int.le_trans firstLow firstWithin.1
  have secondHi := Int.le_trans (Int.le_trans secondLow secondWithin.1) secondNonempty
  have outerFirstHi := Int.le_trans (Int.le_trans firstLo firstNonempty) firstWithin.2
  exact ⟨_, rfl, Int.mul_le_mul firstWithin.1 secondWithin.1 secondLow firstLo,
    Int.mul_le_mul firstWithin.2 secondWithin.2 secondHi outerFirstHi⟩

/-- A quotient rounded up is at most a value exactly when the dividend is at most its product with
the divisor. -/
theorem ceilDiv_le_iff {dividend divisor quotient : Int} (positive : 0 < divisor) :
    (dividend + divisor - 1) / divisor ≤ quotient ↔ dividend ≤ quotient * divisor := by
  rw [← Int.lt_add_one_iff, Int.ediv_lt_iff_lt_mul positive, Int.add_mul, Int.one_mul]
  omega

/-- A quotient of ranges is rounded up below and down above, and divides by no less than 1. -/
theorem quotientRange?_eq_some_iff {dividend divisor result : Range} :
    quotientRange? dividend divisor = some result ↔
      max divisor.lo 1 ≤ divisor.hi ∧
        result = ⟨(dividend.lo + divisor.hi - 1) / divisor.hi, dividend.hi / max divisor.lo 1⟩ := by
  simp only [quotientRange?]
  split
  · simp only [reduceCtorEq, false_iff, not_and]
    intro
    omega
  · rw [Option.some.injEq, eq_comm]
    exact ⟨fun same => ⟨by omega, same⟩, And.right⟩

/-- Quotients of larger ranges are larger. -/
theorem enlarging_quotientRange? : Enlarging quotientRange? := by
  intro first outerFirst second outerSecond result firstLow firstNonempty firstWithin secondLow _
    secondWithin divided
  obtain ⟨proper, rfl⟩ := quotientRange?_eq_some_iff.mp divided
  obtain ⟨firstLoWithin, firstHiWithin⟩ := firstWithin
  obtain ⟨secondLoWithin, secondHiWithin⟩ := secondWithin
  refine ⟨_, quotientRange?_eq_some_iff.mpr ⟨by omega, rfl⟩, ?_, ?_⟩
  · -- The lower bound, rounded up, falls with a smaller dividend and with a larger divisor.
    have notNegative : 0 ≤ (first.lo + second.hi - 1) / second.hi :=
      Int.ediv_nonneg (by omega) (by omega)
    apply (ceilDiv_le_iff (by omega)).mpr
    calc
      outerFirst.lo ≤ first.lo := firstLoWithin
      _ ≤ (first.lo + second.hi - 1) / second.hi * second.hi :=
        (ceilDiv_le_iff (by omega)).mp (Int.le_refl _)
      _ ≤ (first.lo + second.hi - 1) / second.hi * outerSecond.hi :=
        Int.mul_le_mul_of_nonneg_left secondHiWithin notNegative
  · have notNegative : 0 ≤ first.hi / max second.lo 1 := Int.ediv_nonneg (by omega) (by omega)
    apply (Int.le_ediv_iff_mul_le (by omega)).mpr
    calc
      first.hi / max second.lo 1 * max outerSecond.lo 1 ≤ first.hi / max second.lo 1 * max
        second.lo 1 :=
        Int.mul_le_mul_of_nonneg_left (by omega) notNegative
      _ ≤ first.hi := Int.ediv_mul_le _ (by omega)
      _ ≤ outerFirst.hi := firstHiWithin

variable {left outerLeft right outerRight : Domain}

/-- Larger operands have a larger sum. -/
theorem plus_subset (leftSubset : left ⊆ outerLeft) (rightSubset : right ⊆ outerRight) :
    left.plus right ⊆ outerLeft.plus outerRight :=
  combine_subset enlarging_sumRange leftSubset rightSubset

/-- They have a larger difference. -/
theorem minus_subset (leftSubset : left ⊆ outerLeft) (rightSubset : right ⊆ outerRight) :
    left.minus right ⊆ outerLeft.minus outerRight :=
  combine_subset enlarging_differenceRange leftSubset rightSubset

/-- They have a larger product. -/
theorem mul_subset (leftSubset : left ⊆ outerLeft) (rightSubset : right ⊆ outerRight) :
    left.mul right ⊆ outerLeft.mul outerRight :=
  combine_subset enlarging_productRange leftSubset rightSubset

/-- They have a larger quotient, also where a divisor may be 0. -/
theorem divBy_subset (leftSubset : left ⊆ outerLeft) (rightSubset : right ⊆ outerRight) :
    left.divBy right ⊆ outerLeft.divBy outerRight := by
  intro value member
  have everyQuotient : 0 ∈ outerLeft ∧ 0 ∈ outerRight → value ∈ outerLeft.divBy outerRight := by
    intro zeros
    rw [divBy, if_pos zeros]
    exact mem_full.mpr (bounds member)
  by_cases zeros : 0 ∈ outerLeft ∧ 0 ∈ outerRight
  · exact everyQuotient zeros
  · have innerZeros : ¬ (0 ∈ left ∧ 0 ∈ right) := fun ⟨inLeft, inRight⟩ =>
      zeros ⟨leftSubset 0 inLeft, rightSubset 0 inRight⟩
    rw [divBy, if_neg innerZeros] at member
    rw [divBy, if_neg zeros]
    exact combine_subset enlarging_quotientRange? leftSubset rightSubset value member

/-! ### Operands with one value left -/

/-- On operands with one value left, only the ranges of these values are combined. -/
theorem mem_combine_of_solvedValue? {operation : Range → Range → Option Range}
    {leftValue rightValue value : Int} (leftSolved : left.solvedValue? = some leftValue)
    (rightSolved : right.solvedValue? = some rightValue) :
    value ∈ combine operation left right ↔
      (∃ result, operation ⟨leftValue, leftValue⟩ ⟨rightValue, rightValue⟩ = some result ∧
        value ∈ result) ∧
        valueFloor ≤ value ∧ value ≤ valueCeiling := by
  have singleton : ∀ {domain : Domain} {only : Int}, domain.solvedValue? = some only →
      ∀ range, range ∈ domain.ranges ↔ range = ⟨only, only⟩ := by
    intro domain only solved range
    have members := solvedValue?_eq_some_iff.mp solved
    have equal : ∀ {other : Range}, other ∈ domain.ranges → other = ⟨only, only⟩ := by
      intro other inside
      have lo := (members other.lo).mp (lo_mem inside)
      have hi := (members other.hi).mp (hi_mem inside)
      cases other
      simp_all
    refine ⟨equal, ?_⟩
    rintro rfl
    obtain ⟨other, inside, _⟩ := mem_of_solvedValue? solved
    exact equal inside ▸ inside
  rw [mem_combine]
  apply and_congr_left
  intro _
  simp only [singleton leftSolved, singleton rightSolved, exists_eq_left]

variable {leftValue rightValue value : Int} (leftSolved : left.solvedValue? = some leftValue)
  (rightSolved : right.solvedValue? = some rightValue)
  (inBounds : valueFloor ≤ value ∧ value ≤ valueCeiling)

include leftSolved rightSolved inBounds

/-- The sum of two values is exact. -/
theorem mem_plus_of_solvedValue? : value ∈ left.plus right ↔ leftValue + rightValue = value := by
  rw [plus, mem_combine_of_solvedValue? leftSolved rightSolved, and_iff_left inBounds]
  simp only [sumRange, Option.some.injEq, exists_eq_left', Range.mem_iff]
  omega

/-- So is the difference. -/
theorem mem_minus_of_solvedValue? : value ∈ left.minus right ↔ leftValue - rightValue = value := by
  rw [minus, mem_combine_of_solvedValue? leftSolved rightSolved, and_iff_left inBounds]
  simp only [differenceRange, Option.some.injEq, exists_eq_left', Range.mem_iff]
  omega

/-- So is the product. -/
theorem mem_mul_of_solvedValue? : value ∈ left.mul right ↔ leftValue * rightValue = value := by
  rw [mul, mem_combine_of_solvedValue? leftSolved rightSolved, and_iff_left inBounds]
  simp only [productRange, Option.some.injEq, exists_eq_left', Range.mem_iff]
  omega

/-- The quotient of two values has those whose product with the divisor is the dividend. -/
theorem mem_divBy_of_solvedValue? : value ∈ left.divBy right ↔ value * rightValue = leftValue := by
  have leftBounds := bounds (mem_of_solvedValue? leftSolved)
  have rightBounds := bounds (mem_of_solvedValue? rightSolved)
  have leftZero := solvedValue?_eq_some_iff.mp leftSolved 0
  have rightZero := solvedValue?_eq_some_iff.mp rightSolved 0
  rw [divBy]
  split
  · rename_i zeros
    rw [leftZero, rightZero] at zeros
    obtain ⟨rfl, rfl⟩ := zeros
    simp [mem_full, inBounds]
  · rename_i zeros
    rw [leftZero, rightZero] at zeros
    rw [mem_combine_of_solvedValue? leftSolved rightSolved, and_iff_left inBounds]
    simp only [quotientRange?_eq_some_iff, and_assoc, exists_and_left, exists_eq_left,
      Range.mem_iff]
    have floor : valueFloor = 0 := rfl
    by_cases positive : 0 < rightValue
    · have atLeastOne : max rightValue 1 = rightValue := by omega
      rw [atLeastOne, ceilDiv_le_iff positive, Int.le_ediv_iff_mul_le positive]
      omega
    · obtain rfl : rightValue = 0 := by omega
      simp only [Int.mul_zero]
      omega

end Domain

end ConstraintSearch
