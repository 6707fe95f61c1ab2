import ConstraintSearch.Domain.Expression
import ConstraintSearch.Proofs.Domain.Combination
import ConstraintSearch.Proofs.Domain.Cutting

/-!
# Calculating lists of ranges

The arithmetic on domains, carried out on plain lists of ranges with words of 64 bits, and with
these and the operations that cut lists the calculation of a whole expression. The main statement is
that whatever expression is calculated, no number overflows, nothing is divided by zero, and the
list that results is canonical, so that lists are equal just if they hold the same values.
-/

namespace ConstraintSearch

namespace RangeList

/-! ### Arithmetic -/

/-- The values from a bound to another one, as far as variables can take them. -/
def between (lo hi : Int) : List Range :=
  let first := max lo valueFloor
  let last := min hi valueCeiling
  if last < first then [] else [⟨first, last⟩]

/-- The sums of two ranges. -/
def sum (left right : Range) : Except Slip (Option Range) := do
  return some ⟨← Word.int64.hold (left.lo + right.lo), ← Word.int64.hold (left.hi + right.hi)⟩

/-- The differences of two ranges. -/
def difference (left right : Range) : Except Slip (Option Range) := do
  return some ⟨← Word.int64.hold (left.lo - right.hi), ← Word.int64.hold (left.hi - right.lo)⟩

/-- A range around the products of two ranges. -/
def product (left right : Range) : Except Slip (Option Range) := do
  return some ⟨← Word.int64.hold (left.lo * right.lo), ← Word.int64.hold (left.hi * right.hi)⟩

/-- A range around the quotients of two ranges, unless 0 is the only divisor. -/
def quotient (dividend divisor : Range) : Except Slip (Option Range) :=
  let smallest := max divisor.lo 1
  if divisor.hi < smallest then
    return none
  else do
    let raised ← Word.int64.hold ((← Word.int64.hold (dividend.lo + divisor.hi)) - 1)
    return some ⟨← Word.int64.divide raised divisor.hi, ← Word.int64.divide dividend.hi smallest⟩

/-- Joins the results of an operation on every pair of ranges. -/
def combine (operation : Range → Range → Except Slip (Option Range)) (left right : List Range) :
    Except Slip (List Range) := do
      normalize (← left.flatMapM fun range => right.filterMapM (operation range))

/-- The quotients of two lists; all values if both hold 0. -/
def divBy (dividend divisor : List Range) : Except Slip (List Range) :=
  if holds 0 dividend && holds 0 divisor then
    return [⟨valueFloor, valueCeiling⟩]
  else
    combine quotient dividend divisor

/-- The values between two bounds are the ranges of a domain. -/
theorem between_eq (lo hi : Int) : between lo hi = (Domain.range lo hi).ranges := by
  refine Canonical.eq_ranges ?_ fun value => ?_
  · rw [between, ← canonicalFrom_floor_iff]
    split
    · trivial
    · simp only [CanonicalFrom, and_true]
      omega
  · rw [between, Domain.mem_range]
    split
    · simp only [covers_nil, false_iff]
      omega
    · simp only [covers_cons, covers_nil, or_false, Range.mem_iff]
      omega

/-- So are all values. -/
theorem full_eq : [⟨valueFloor, valueCeiling⟩] = Domain.full.ranges := by
  rw [Domain.full, ← between_eq]
  rfl

/-- An operation that does not slip on proper ranges does not slip on the lists of domains. -/
theorem combine_eq {operation : Range → Range → Except Slip (Option Range)}
    {plain : Range → Range → Option Range}
    (fits : ∀ {first second : Range}, first.Proper → second.Proper →
      operation first second = .ok (plain first second))
    (left right : Domain) :
    combine operation left.ranges right.ranges = .ok (Domain.combine plain left right).ranges := by
  have pairs : left.ranges.flatMapM (fun first => right.ranges.filterMapM (operation first)) =
      .ok (left.ranges.flatMap fun first => right.ranges.filterMap (plain first)) :=
    flatMapM_eq_ok fun first inLeft => filterMapM_eq_ok fun second inRight =>
      fits (left.isCanonical.proper first inLeft) (right.isCanonical.proper second inRight)
  rw [combine, bind_of_passed pairs]
  exact normalize_eq _

/-- The product of two bounds has a word to fit. -/
theorem hold_mul {x y : Int} (xLow : 0 ≤ x) (xHigh : x ≤ 100000000) (yLow : 0 ≤ y)
    (yHigh : y ≤ 100000000) : Word.int64.hold (x * y) = .ok (x * y) := by
  have low : 0 ≤ x * y := Int.mul_nonneg xLow yLow
  have high : x * y ≤ 100000000 * 100000000 := Int.mul_le_mul xHigh yHigh yLow (by decide)
  exact Word.hold_of_fits (Word.fits_int64.mpr (by omega))

section Fitting

variable {first second : Range} (firstProper : first.Proper) (secondProper : second.Proper)

include firstProper secondProper

/-- Sums of proper ranges do not overflow. -/
theorem sum_eq : sum first second = .ok (some (Domain.sumRange first second)) := by
  have := firstProper.limits
  have := secondProper.limits
  have lo : Word.int64.hold (first.lo + second.lo) = .ok (first.lo + second.lo) :=
    Word.hold_of_fits (Word.fits_int64.mpr (by omega))
  have hi : Word.int64.hold (first.hi + second.hi) = .ok (first.hi + second.hi) :=
    Word.hold_of_fits (Word.fits_int64.mpr (by omega))
  rw [sum, bind_of_passed lo, bind_of_passed hi]
  rfl

/-- Neither do differences. -/
theorem difference_eq :
    difference first second = .ok (some (Domain.differenceRange first second)) := by
  have := firstProper.limits
  have := secondProper.limits
  have lo : Word.int64.hold (first.lo - second.hi) = .ok (first.lo - second.hi) :=
    Word.hold_of_fits (Word.fits_int64.mpr (by omega))
  have hi : Word.int64.hold (first.hi - second.lo) = .ok (first.hi - second.lo) :=
    Word.hold_of_fits (Word.fits_int64.mpr (by omega))
  rw [difference, bind_of_passed lo, bind_of_passed hi]
  rfl

/-- Neither do products. -/
theorem product_eq : product first second = .ok (some (Domain.productRange first second)) := by
  have := firstProper.limits
  have := secondProper.limits
  have lo := @hold_mul first.lo second.lo (by omega) (by omega) (by omega) (by omega)
  have hi := @hold_mul first.hi second.hi (by omega) (by omega) (by omega) (by omega)
  rw [product, bind_of_passed lo, bind_of_passed hi]
  rfl

/-- Neither do quotients, and nothing is divided by zero. -/
theorem quotient_eq : quotient first second = .ok (Domain.quotientRange? first second) := by
  have := firstProper.limits
  have := secondProper.limits
  rw [quotient, Domain.quotientRange?]
  split
  · rfl
  · have sumFits : Word.int64.hold (first.lo + second.hi) = .ok (first.lo + second.hi) :=
      Word.hold_of_fits (Word.fits_int64.mpr (by omega))
    have raisedFits : Word.int64.Fits (first.lo + second.hi - 1) := Word.fits_int64.mpr (by omega)
    have lo : Word.int64.divide (first.lo + second.hi - 1) second.hi =
        .ok ((first.lo + second.hi - 1) / second.hi) :=
      Word.divide_of_fits raisedFits (by decide) (by omega) (by omega)
    have hi : Word.int64.divide first.hi (max second.lo 1) = .ok (first.hi / max second.lo 1) :=
      Word.divide_of_fits (Word.fits_int64.mpr (by omega)) (by decide) (by omega) (by omega)
    rw [bind_of_passed sumFits, bind_of_passed (Word.hold_of_fits raisedFits), bind_of_passed lo,
      bind_of_passed hi]
    rfl

end Fitting

/-- The sum of two lists is that of their domains. -/
theorem plus_eq (left right : Domain) :
    combine sum left.ranges right.ranges = .ok (left.plus right).ranges :=
  combine_eq sum_eq left right

/-- So is the difference. -/
theorem minus_eq (left right : Domain) :
    combine difference left.ranges right.ranges = .ok (left.minus right).ranges :=
  combine_eq difference_eq left right

/-- So is the product. -/
theorem mul_eq (left right : Domain) :
    combine product left.ranges right.ranges = .ok (left.mul right).ranges :=
  combine_eq product_eq left right

/-- So is the quotient, also where both hold 0. -/
theorem divBy_eq (dividend divisor : Domain) :
    divBy dividend.ranges divisor.ranges = .ok (dividend.divBy divisor).ranges := by
  have zeros : (holds 0 dividend.ranges && holds 0 divisor.ranges) = true ↔
      0 ∈ dividend ∧ 0 ∈ divisor := by
    rw [Bool.and_eq_true, holds_iff dividend.isCanonical, holds_iff divisor.isCanonical]
    rfl
  rw [divBy, Domain.divBy]
  by_cases both : 0 ∈ dividend ∧ 0 ∈ divisor
  · rw [if_pos (zeros.mpr both), if_pos both, full_eq]
    rfl
  · rw [if_neg (mt zeros.mp both), if_neg both]
    exact combine_eq quotient_eq dividend divisor

end RangeList

/-! ### Expressions -/

namespace DomainExpression

/-- Calculates the list of ranges that the expression describes. -/
def calculate : DomainExpression → Except Slip (List Range)
  | empty => return []
  | full => return [⟨valueFloor, valueCeiling⟩]
  | range lo hi => return RangeList.between lo hi
  | value only => return RangeList.between only only
  | values listed => RangeList.normalize (listed.map fun value => ⟨value, value⟩)
  | plus left right => do RangeList.combine RangeList.sum (← left.calculate) (← right.calculate)
  | minus left right =>
    do RangeList.combine RangeList.difference (← left.calculate) (← right.calculate)
  | mul left right => do RangeList.combine RangeList.product (← left.calculate) (← right.calculate)
  | divBy dividend divisor => do RangeList.divBy (← dividend.calculate) (← divisor.calculate)
  | intersection left right => return overlaps (← left.calculate) (← right.calculate)
  | removeValue whole excluded => do RangeList.removeValue excluded (← whole.calculate)
  | removeBelow whole bound => return RangeList.removeBelow bound (← whole.calculate)
  | removeAbove whole bound => return RangeList.removeAbove bound (← whole.calculate)

/-- No expression slips, and its list is that of the domain it describes. -/
theorem calculate_eq (expression : DomainExpression) :
    expression.calculate = .ok expression.domain.ranges := by
  induction expression with
  | empty => rfl
  | full => exact congrArg Except.ok RangeList.full_eq
  | range lo hi => exact congrArg Except.ok (RangeList.between_eq lo hi)
  | value only => exact congrArg Except.ok (RangeList.between_eq only only)
  | values listed => exact RangeList.normalize_eq _
  | plus left right leftHypothesis rightHypothesis =>
    rw [calculate, bind_of_passed leftHypothesis, bind_of_passed rightHypothesis]
    exact RangeList.plus_eq _ _
  | minus left right leftHypothesis rightHypothesis =>
    rw [calculate, bind_of_passed leftHypothesis, bind_of_passed rightHypothesis]
    exact RangeList.minus_eq _ _
  | mul left right leftHypothesis rightHypothesis =>
    rw [calculate, bind_of_passed leftHypothesis, bind_of_passed rightHypothesis]
    exact RangeList.mul_eq _ _
  | divBy dividend divisor dividendHypothesis divisorHypothesis =>
    rw [calculate, bind_of_passed dividendHypothesis, bind_of_passed divisorHypothesis]
    exact RangeList.divBy_eq _ _
  | intersection left right leftHypothesis rightHypothesis =>
    rw [calculate, bind_of_passed leftHypothesis, bind_of_passed rightHypothesis]
    rfl
  | removeValue whole excluded inductionHypothesis =>
    rw [calculate, bind_of_passed inductionHypothesis]
    exact RangeList.removeValue_eq excluded _
  | removeBelow whole bound inductionHypothesis =>
    rw [calculate, bind_of_passed inductionHypothesis, RangeList.removeBelow_eq]
    rfl
  | removeAbove whole bound inductionHypothesis =>
    rw [calculate, bind_of_passed inductionHypothesis, RangeList.removeAbove_eq]
    rfl

/-- **Canonical lists.** Whatever expression is calculated, with words for all numbers, the list
that results is in canonical form and the list of the domain that the expression describes; two
expressions have the same list just if they describe the same values; and a domain counts as solved
just if it has one value. -/
theorem calculate_canonical (expression other : DomainExpression) :
    ∃ ranges, expression.calculate = .ok ranges ∧ Canonical ranges ∧
      expression.domain.ranges = ranges ∧
        (expression.calculate = other.calculate ↔ ∀ value, value ∈ expression.domain ↔
          value ∈ other.domain) ∧
      (expression.domain.isSolved ↔ ∃ only, ∀ value, value ∈ expression.domain ↔ value = only) := by
  refine ⟨expression.domain.ranges, expression.calculate_eq,
    expression.domain.isCanonical, rfl, ?_, ?_⟩
  · rw [calculate_eq, calculate_eq, Except.ok.injEq]
    constructor
    · intro same value
      rw [Domain.mem_iff, Domain.mem_iff, same]
    · intro same
      exact congrArg Domain.ranges (Domain.ext same)
  · rw [Domain.isSolved_iff]
    exact exists_congr fun only => Domain.solvedValue?_eq_some_iff

end DomainExpression

end ConstraintSearch
