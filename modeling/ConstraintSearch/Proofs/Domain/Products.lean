import ConstraintSearch.Proofs.Domain.Calculation

/-!
# Products and quotients lose no value

A product of domains is put together from ranges around the products of their ranges, and a quotient
from ranges around the quotients, rounded outward. They may hold values that no pair of operands
gives, but they never miss one that some pair gives, they are exact on operands with one value left,
and they grow with their operands. A quotient by one positive value is exact on a single range too.
-/

namespace ConstraintSearch

namespace Domain

/-- What decides on the values that variables can take decides on all. -/
theorem mem_iff_and_bounds {domain : Domain} {value : Int} {condition : Prop}
    (decides : valueFloor ≤ value ∧ value ≤ valueCeiling → (value ∈ domain ↔ condition)) :
    value ∈ domain ↔ condition ∧ valueFloor ≤ value ∧ value ≤ valueCeiling := by
  constructor
  · intro member
    exact ⟨(decides (bounds member)).mp member, bounds member⟩
  · rintro ⟨satisfied, inBounds⟩
    exact (decides inBounds).mpr satisfied

/-! ### Products -/

section Products

variable {left right : Domain}

/-- The product of values of two ranges is in the range of products. -/
theorem mul_mem_productRange {first second : Range} {x y : Int} (firstLow : 0 ≤ first.lo)
    (secondLow : 0 ≤ second.lo) (inFirst : x ∈ first) (inSecond : y ∈ second) :
    x * y ∈ productRange first second := by
  obtain ⟨firstLo, firstHi⟩ := Range.mem_iff.mp inFirst
  obtain ⟨secondLo, secondHi⟩ := Range.mem_iff.mp inSecond
  exact ⟨Int.mul_le_mul firstLo secondLo secondLow (Int.le_trans firstLow firstLo),
    Int.mul_le_mul firstHi secondHi (Int.le_trans secondLow secondLo) (by omega)⟩

/-- A product that is not too large is in the product of the domains. -/
theorem mul_mem_mul {x y : Int} (inLeft : x ∈ left) (inRight : y ∈ right)
    (ceiling : x * y ≤ valueCeiling) : x * y ∈ left.mul right := by
  have notNegative : 0 ≤ x * y := Int.mul_nonneg (bounds inLeft).1 (bounds inRight).1
  obtain ⟨first, firstInside, inFirst⟩ := inLeft
  obtain ⟨second, secondInside, inSecond⟩ := inRight
  exact mem_combine.mpr ⟨⟨first, firstInside, second, secondInside, _, rfl,
    mul_mem_productRange (bounds (lo_mem firstInside)).1 (bounds (lo_mem secondInside)).1 inFirst
    inSecond⟩, notNegative, ceiling⟩

/-- A product is at least the product of the smallest values. -/
theorem mul_le_of_mem_mul {x y value : Int} (isLeft : left.min? = some x)
    (isRight : right.min? = some y) (member : value ∈ left.mul right) : x * y ≤ value := by
  obtain ⟨xInLeft, xLeast⟩ := min?_eq_some_iff.mp isLeft
  obtain ⟨yInRight, yLeast⟩ := min?_eq_some_iff.mp isRight
  obtain ⟨⟨first, inLeft, second, inRight, _, ⟨rfl⟩, inProduct⟩, _⟩ := mem_combine.mp member
  calc
    x * y ≤ first.lo * second.lo :=
      Int.mul_le_mul (xLeast _ (lo_mem inLeft)) (yLeast _ (lo_mem inRight)) (bounds yInRight).1
        (bounds (lo_mem inLeft)).1
    _ ≤ value := inProduct.1

/-- The smallest product is that of the smallest values. -/
theorem min?_mul (nonempty : (left.mul right).Nonempty) :
    ∃ x y, left.min? = some x ∧ right.min? = some y ∧ (left.mul right).min? = some (x * y) := by
  obtain ⟨value, member⟩ := nonempty
  obtain ⟨⟨first, inLeft, second, inRight, _⟩, inBounds⟩ := mem_combine.mp member
  obtain ⟨x, isLeft⟩ := Nonempty.exists_min? ⟨_, lo_mem inLeft⟩
  obtain ⟨y, isRight⟩ := Nonempty.exists_min? ⟨_, lo_mem inRight⟩
  have ceiling : x * y ≤ valueCeiling :=
    Int.le_trans (mul_le_of_mem_mul isLeft isRight member) inBounds.2
  refine ⟨x, y, isLeft, isRight,
    min?_eq_some_iff.mpr ⟨?_, fun other => mul_le_of_mem_mul isLeft isRight⟩⟩
  exact mul_mem_mul (min?_eq_some_iff.mp isLeft).1 (min?_eq_some_iff.mp isRight).1 ceiling

section OneValue

variable {x y : Int} (isLeft : left.solvedValue? = some x) (isRight : right.solvedValue? = some y)

include isLeft isRight

/-- The product of two values has theirs, if it is not too large. -/
theorem mem_mul_of_one {value : Int} :
    value ∈ left.mul right ↔ x * y = value ∧ valueFloor ≤ value ∧ value ≤ valueCeiling :=
  mem_iff_and_bounds (mem_mul_of_solvedValue? isLeft isRight)

/-- That one is its only value. -/
theorem solvedValue?_mul (ceiling : x * y ≤ valueCeiling) :
    (left.mul right).solvedValue? = some (x * y) := by
  have notNegative : 0 ≤ x * y :=
    Int.mul_nonneg (bounds (mem_of_solvedValue? isLeft)).1 (bounds (mem_of_solvedValue? isRight)).1
  refine solvedValue?_eq_some_iff.mpr fun value => ?_
  rw [mem_mul_of_one isLeft isRight]
  constructor
  · rintro ⟨rfl, _⟩
    rfl
  · rintro rfl
    exact ⟨rfl, notNegative, ceiling⟩

/-- If the product is too large, there is none. -/
theorem mul_eq_empty (above : valueCeiling < x * y) : left.mul right = ∅ := by
  ext value
  rw [mem_mul_of_one isLeft isRight]
  refine iff_of_false ?_ not_mem_empty
  rintro ⟨rfl, _, ceiling⟩
  exact Int.not_le.mpr above ceiling

end OneValue

end Products

/-! ### Quotients -/

section Quotients

variable {dividend divisor : Domain}

/-- Rounding the bounds of a quotient loses no quotient. -/
theorem exists_quotientRange? {first second : Range} {quotient y : Int} (notNegative : 0 ≤ quotient)
    (positive : 0 < y) (inFirst : quotient * y ∈ first) (inSecond : y ∈ second) :
    ∃ result, quotientRange? first second = some result ∧ quotient ∈ result := by
  obtain ⟨firstLo, firstHi⟩ := Range.mem_iff.mp inFirst
  obtain ⟨secondLo, secondHi⟩ := Range.mem_iff.mp inSecond
  refine ⟨_, quotientRange?_eq_some_iff.mpr ⟨by omega, rfl⟩, ?_, ?_⟩
  -- The lower bound is rounded up from the greatest divisor, and the upper bound down from the
  -- least one that is not 0.
  · apply (ceilDiv_le_iff (by omega)).mpr
    calc
      first.lo ≤ quotient * y := firstLo
      _ ≤ quotient * second.hi := Int.mul_le_mul_of_nonneg_left secondHi notNegative
  · apply (Int.le_ediv_iff_mul_le (by omega)).mpr
    calc
      quotient * max second.lo 1 ≤ quotient * y :=
        Int.mul_le_mul_of_nonneg_left (by omega) notNegative
      _ ≤ first.hi := firstHi

/-- A value whose product with some divisor is a dividend is in the quotient. -/
theorem mem_divBy_of_mem {quotient y : Int}
    (inBounds : valueFloor ≤ quotient ∧ quotient ≤ valueCeiling) (inDivisor : y ∈ divisor)
    (inDividend : quotient * y ∈ dividend) : quotient ∈ dividend.divBy divisor := by
  rw [divBy]
  split
  · exact mem_full.mpr inBounds
  · rename_i zeros
    have different : y ≠ 0 := by
      rintro rfl
      exact zeros ⟨Int.mul_zero quotient ▸ inDividend, inDivisor⟩
    have floor : valueFloor = 0 := rfl
    have notNegative := (bounds inDivisor).1
    obtain ⟨second, secondInside, inSecond⟩ := inDivisor
    obtain ⟨first, firstInside, inFirst⟩ := inDividend
    obtain ⟨result, divided, member⟩ := exists_quotientRange? inBounds.1 (by omega) inFirst inSecond
    exact mem_combine.mpr ⟨⟨first, firstInside, second, secondInside, result, divided, member⟩,
      inBounds⟩

section OneValue

variable {z y : Int} (isDividend : dividend.solvedValue? = some z)
  (isDivisor : divisor.solvedValue? = some y)

include isDividend isDivisor

/-- The quotient of two values has those whose product with the divisor is the dividend. -/
theorem mem_divBy_of_one {value : Int} :
    value ∈ dividend.divBy divisor ↔ value * y = z ∧ valueFloor ≤ value ∧ value ≤ valueCeiling :=
  mem_iff_and_bounds (mem_divBy_of_solvedValue? isDividend isDivisor)

/-- If the divisor is positive and divides the dividend, there is exactly one. -/
theorem solvedValue?_divBy (positive : 0 < y) (divides : y ∣ z) :
    (dividend.divBy divisor).solvedValue? = some (z / y) := by
  obtain ⟨low, high⟩ := bounds (mem_of_solvedValue? isDividend)
  have notNegative : 0 ≤ z / y := Int.ediv_nonneg low (Int.le_of_lt positive)
  have ceiling : z / y ≤ valueCeiling := Int.le_trans (Int.ediv_le_self y low) high
  refine solvedValue?_eq_some_iff.mpr fun value => ?_
  rw [mem_divBy_of_one isDividend isDivisor]
  constructor
  · rintro ⟨rfl, _⟩
    exact (Int.mul_ediv_cancel value (Int.ne_of_gt positive)).symm
  · rintro rfl
    exact ⟨Int.ediv_mul_cancel divides, notNegative, ceiling⟩

/-- If no multiple of the divisor is the dividend, there is none. -/
theorem divBy_eq_empty (different : ∀ value : Int, value * y ≠ z) : dividend.divBy divisor = ∅ := by
  ext value
  rw [mem_divBy_of_one isDividend isDivisor]
  exact iff_of_false (fun ⟨same, _⟩ => different value same) not_mem_empty

end OneValue

/-- Zero divided by zero can be anything. -/
theorem divBy_eq_full (isDividend : dividend.solvedValue? = some 0)
    (isDivisor : divisor.solvedValue? = some 0) : dividend.divBy divisor = full :=
  if_pos ⟨mem_of_solvedValue? isDividend, mem_of_solvedValue? isDivisor⟩

/-- Of a single range the quotients by one positive value are consecutive, so that rounding outward
adds nothing to them. -/
theorem mem_divBy_of_single {range : Range} {y quotient : Int} (single : dividend.ranges = [range])
    (isDivisor : divisor.solvedValue? = some y) (positive : 0 < y) :
    quotient ∈ dividend.divBy divisor ↔ quotient * y ∈ dividend := by
  have members := solvedValue?_eq_some_iff.mp isDivisor
  constructor
  · intro member
    -- The divisor is not 0, and its ranges are all that of its only value.
    have zeros : ¬ (0 ∈ dividend ∧ 0 ∈ divisor) :=
      fun both => Int.ne_of_lt positive ((members 0).mp both.2)
    rw [divBy, if_neg zeros] at member
    obtain ⟨⟨first, inDividend, second, inDivisor, _, divided, inResult⟩, _⟩ :=
      mem_combine.mp member
    obtain ⟨_, rfl⟩ := quotientRange?_eq_some_iff.mp divided
    have lo := (members second.lo).mp (lo_mem inDivisor)
    have hi := (members second.hi).mp (hi_mem inDivisor)
    have divisorOnly : max second.lo 1 = y := by omega
    rw [Range.mem_iff, hi, divisorOnly, ceilDiv_le_iff positive, Int.le_ediv_iff_mul_le positive]
      at inResult
    obtain rfl : first = range := by simpa [single] using inDividend
    exact ⟨first, inDividend, inResult⟩
  · intro member
    have low : 0 ≤ quotient := Int.nonneg_of_mul_nonneg_left (bounds member).1 positive
    have high : quotient ≤ valueCeiling := calc
      quotient = quotient * 1 := (Int.mul_one quotient).symm
      _ ≤ quotient * y := Int.mul_le_mul_of_nonneg_left positive low
      _ ≤ valueCeiling := (bounds member).2
    exact mem_divBy_of_mem ⟨low, high⟩ (mem_of_solvedValue? isDivisor) member

end Quotients

/-! ### What holds of all domains -/

/-- A product holds every product of two values that variables can take, and none that is smaller
than the smallest one; on one value each it holds nothing else. It grows with both operands, and no
number leaves its word while it is calculated. -/
structure SoundProduct (left right : Domain) : Prop where
  calculated : RangeList.combine RangeList.product left.ranges right.ranges =
    .ok (left.mul right).ranges
  complete : ∀ x ∈ left, ∀ y ∈ right, x * y ≤ valueCeiling → x * y ∈ left.mul right
  least : (left.mul right).Nonempty →
    ∃ x y, left.min? = some x ∧ right.min? = some y ∧ (left.mul right).min? = some (x * y)
  one : ∀ x y, left.solvedValue? = some x → right.solvedValue? = some y → x * y ≤ valueCeiling →
    (left.mul right).solvedValue? = some (x * y)
  oneAbove : ∀ x y, left.solvedValue? = some x → right.solvedValue? = some y →
    valueCeiling < x * y → left.mul right = ∅
  grows : ∀ outerLeft outerRight, left ⊆ outerLeft → right ⊆ outerRight →
    left.mul right ⊆ outerLeft.mul outerRight

/-- A quotient holds every value whose product with some divisor is in the dividend; on one value
each, and of a single range by one positive value, it holds nothing else. It grows with both
operands, and while it is calculated nothing is divided by zero and no number leaves its word. -/
structure SoundQuotient (dividend divisor : Domain) : Prop where
  calculated : RangeList.divBy dividend.ranges divisor.ranges = .ok (dividend.divBy divisor).ranges
  complete : ∀ quotient, valueFloor ≤ quotient → quotient ≤ valueCeiling →
    (∃ y ∈ divisor, quotient * y ∈ dividend) → quotient ∈ dividend.divBy divisor
  one : ∀ z y, dividend.solvedValue? = some z → divisor.solvedValue? = some y → 0 < y → y ∣ z →
    (dividend.divBy divisor).solvedValue? = some (z / y)
  oneApart : ∀ z y, dividend.solvedValue? = some z → divisor.solvedValue? = some y → 0 < y →
    ¬ y ∣ z → dividend.divBy divisor = ∅
  zeroByZero : dividend.solvedValue? = some 0 → divisor.solvedValue? = some 0 →
    dividend.divBy divisor = full
  byZero : ∀ z, dividend.solvedValue? = some z → divisor.solvedValue? = some 0 → 0 < z →
    dividend.divBy divisor = ∅
  single : ∀ range y, dividend.ranges = [range] → divisor.solvedValue? = some y → 0 < y →
    ∀ quotient, quotient ∈ dividend.divBy divisor ↔ quotient * y ∈ dividend
  grows : ∀ outerDividend outerDivisor, dividend ⊆ outerDividend → divisor ⊆ outerDivisor →
    dividend.divBy divisor ⊆ outerDividend.divBy outerDivisor

/-- Every product is sound. -/
theorem soundProduct (left right : Domain) : SoundProduct left right where
  calculated := RangeList.mul_eq left right
  complete _ inLeft _ inRight ceiling := mul_mem_mul inLeft inRight ceiling
  least := min?_mul
  one _ _ isLeft isRight ceiling := solvedValue?_mul isLeft isRight ceiling
  oneAbove _ _ isLeft isRight above := mul_eq_empty isLeft isRight above
  grows _ _ leftSubset rightSubset := mul_subset leftSubset rightSubset

/-- So is every quotient. -/
theorem soundQuotient (dividend divisor : Domain) : SoundQuotient dividend divisor where
  calculated := RangeList.divBy_eq dividend divisor
  complete _ floor ceiling := by
    rintro ⟨y, inDivisor, inDividend⟩
    exact mem_divBy_of_mem ⟨floor, ceiling⟩ inDivisor inDividend
  one _ _ isDividend isDivisor positive divides :=
    solvedValue?_divBy isDividend isDivisor positive divides
  oneApart z y isDividend isDivisor _ apart :=
    divBy_eq_empty isDividend isDivisor fun value same => apart ⟨value, same ▸ Int.mul_comm value y⟩
  zeroByZero := divBy_eq_full
  byZero z isDividend isDivisor positive :=
    divBy_eq_empty isDividend isDivisor fun value same =>
      Int.ne_of_lt positive ((Int.mul_zero value).symm.trans same)
  single _ _ single isDivisor positive _ := mem_divBy_of_single single isDivisor positive
  grows _ _ dividendSubset divisorSubset := divBy_subset dividendSubset divisorSubset

/-- **Products and quotients lose no value.** This holds of the product of any two domains, and of
the quotient of any third one by the second. -/
theorem products_and_quotients_sound (left right dividend : Domain) :
    SoundProduct left right ∧ SoundQuotient dividend right :=
  ⟨soundProduct left right, soundQuotient dividend right⟩

/-- A product and a quotient where 0 is among the divisors, but not in the dividend. -/
theorem products_and_quotients_sound_beside_zero :
    3 * 7 ∈ (ofValues [3, 9]).mul (ofValues [0, 7]) ∧
      3 ∈ (ofValues [1, 21]).divBy (ofValues [0, 7]) := by
  obtain ⟨product, quotient⟩ :=
    products_and_quotients_sound (ofValues [3, 9]) (ofValues [0, 7]) (ofValues [1, 21])
  exact ⟨product.complete 3 (by decide) 7 (by decide) (by decide),
    quotient.complete 3 (by decide) (by decide) ⟨7, by decide, by decide⟩⟩

/-- The ranges that both hold 0 need not be the ones that are divided by each other. -/
example : (ofValues [0, 7]).divBy (ofValues [0, 3]) = full := by decide

/-- Between the products there may be values that are none. -/
example : (range 2 3).mul (value 4) = range 8 12 := by decide

end Domain

end ConstraintSearch
