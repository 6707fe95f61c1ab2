import ConstraintSearch.Proofs.Domain.Calculation

/-!
# Sums and differences are exact

A sum of domains is put together from the sums of their ranges, and a difference from the
differences. Every integer in the sum of two ranges is the sum of two of their values, so that
nothing is in the sum of two domains but what values of both add up to, as far as variables can take
it. The laws of addition carry over.
-/

namespace ConstraintSearch

namespace Domain

/-! ### Ranges -/

section Ranges

variable {first second : Range} (firstNonempty : first.lo ≤ first.hi)
  (secondNonempty : second.lo ≤ second.hi)

include firstNonempty secondNonempty

/-- A range of sums has the sums of values, no more. -/
theorem mem_sumRange {value : Int} :
    value ∈ sumRange first second ↔ ∃ x ∈ first, ∃ y ∈ second, x + y = value := by
  simp only [sumRange, Range.mem_iff]
  constructor
  · rintro ⟨above, below⟩
    -- The left value is the least one that some right value completes.
    exact ⟨max first.lo (value - second.hi), by omega, value - max first.lo (value - second.hi),
      by omega, by omega⟩
  · rintro ⟨x, inFirst, y, inSecond, rfl⟩
    omega

/-- A range of differences has the differences. -/
theorem mem_differenceRange {value : Int} :
    value ∈ differenceRange first second ↔ ∃ x ∈ first, ∃ y ∈ second, x - y = value := by
  simp only [differenceRange, Range.mem_iff]
  constructor
  · rintro ⟨above, below⟩
    exact ⟨max first.lo (value + second.lo), by omega, max first.lo (value + second.lo) - value,
      by omega, by omega⟩
  · rintro ⟨x, inFirst, y, inSecond, rfl⟩
    omega

end Ranges

/-! ### Domains -/

/-- An operation that is exact on ranges is exact on domains. -/
theorem mem_combine_of_exact {operation : Range → Range → Range} {result : Int → Int → Int}
    (exact : ∀ {first second : Range}, first.lo ≤ first.hi → second.lo ≤ second.hi →
      ∀ {value}, value ∈ operation first second ↔ ∃ x ∈ first, ∃ y ∈ second, result x y = value)
    {left right : Domain} {value : Int} :
    value ∈ combine (fun first second => some (operation first second)) left right ↔
      (∃ x ∈ left, ∃ y ∈ right, result x y = value) ∧ valueFloor ≤ value ∧
        value ≤ valueCeiling := by
  rw [mem_combine]
  refine and_congr_left fun _ => ?_
  constructor
  · rintro ⟨first, inLeft, second, inRight, _, ⟨rfl⟩, member⟩
    obtain ⟨x, inFirst, y, inSecond, same⟩ :=
      (exact (left.canonical.lo_le_hi inLeft) (right.canonical.lo_le_hi inRight)).mp member
    exact ⟨x, ⟨first, inLeft, inFirst⟩, y, ⟨second, inRight, inSecond⟩, same⟩
  · rintro ⟨x, ⟨first, inLeft, inFirst⟩, y, ⟨second, inRight, inSecond⟩, same⟩
    exact ⟨first, inLeft, second, inRight, _, rfl,
      (exact (left.canonical.lo_le_hi inLeft) (right.canonical.lo_le_hi inRight)).mpr
      ⟨x, inFirst, y, inSecond, same⟩⟩

variable {left right : Domain} {value : Int}

/-- The sum of two domains has the sums of their values that are not too large. -/
theorem mem_plus :
    value ∈ left.plus right ↔ (∃ x ∈ left, ∃ y ∈ right, x + y = value) ∧ value ≤ valueCeiling := by
  rw [plus, mem_combine_of_exact mem_sumRange]
  refine and_congr_right ?_
  rintro ⟨x, inLeft, y, inRight, rfl⟩
  have floor : valueFloor = 0 := rfl
  have := bounds inLeft
  have := bounds inRight
  exact and_iff_right (by omega)

/-- The difference has the differences that are not negative. -/
theorem mem_minus :
    value ∈ left.minus right ↔ (∃ x ∈ left, ∃ y ∈ right, x - y = value) ∧ valueFloor ≤ value := by
  rw [minus, mem_combine_of_exact mem_differenceRange]
  refine and_congr_right ?_
  rintro ⟨x, inLeft, y, inRight, rfl⟩
  have floor : valueFloor = 0 := rfl
  have := bounds inLeft
  have := bounds inRight
  exact and_iff_left (by omega)

/-- Sums are commutative. -/
theorem plus_comm (left right : Domain) : left.plus right = right.plus left := by
  have reordered : ∀ {first second : Domain} {value : Int}, value ∈ first.plus second →
      value ∈ second.plus first := by
    intro first second value member
    obtain ⟨⟨x, inFirst, y, inSecond, rfl⟩, ceiling⟩ := mem_plus.mp member
    exact mem_plus.mpr ⟨⟨y, inSecond, x, inFirst, Int.add_comm y x⟩, ceiling⟩
  ext value
  exact ⟨reordered, reordered⟩

/-- A sum of three domains has the sums of their values that are not too large: no partial sum is
too large if the whole one is not. -/
theorem mem_plus_plus {first second third : Domain} :
    value ∈ (first.plus second).plus third ↔
      (∃ x ∈ first, ∃ y ∈ second, ∃ z ∈ third, x + y + z = value) ∧ value ≤ valueCeiling := by
  rw [mem_plus]
  refine and_congr_left fun ceiling => ?_
  constructor
  · rintro ⟨sum, inSum, z, inThird, rfl⟩
    obtain ⟨⟨x, inFirst, y, inSecond, rfl⟩, _⟩ := mem_plus.mp inSum
    exact ⟨x, inFirst, y, inSecond, z, inThird, rfl⟩
  · rintro ⟨x, inFirst, y, inSecond, z, inThird, rfl⟩
    -- The last summand is not negative, so the sum of the others is not cut off.
    have floor : valueFloor = 0 := rfl
    have := bounds inThird
    exact ⟨x + y, mem_plus.mpr ⟨⟨x, inFirst, y, inSecond, rfl⟩, by omega⟩, z, inThird, rfl⟩

/-- So sums are associative. -/
theorem plus_assoc (first second third : Domain) :
    (first.plus second).plus third = first.plus (second.plus third) := by
  ext value
  rw [plus_comm first (second.plus third), mem_plus_plus, mem_plus_plus]
  refine and_congr_left fun _ => ?_
  constructor
  · rintro ⟨x, inFirst, y, inSecond, z, inThird, rfl⟩
    exact ⟨y, inSecond, z, inThird, x, inFirst, by omega⟩
  · rintro ⟨y, inSecond, z, inThird, x, inFirst, rfl⟩
    exact ⟨x, inFirst, y, inSecond, z, inThird, by omega⟩

/-- Taking a summand away again loses no value whose sum was not cut off. -/
theorem mem_minus_plus {x y : Int} (inLeft : x ∈ left) (inRight : y ∈ right)
    (ceiling : x + y ≤ valueCeiling) : x ∈ (left.plus right).minus right := by
  have inSum : x + y ∈ left.plus right := mem_plus.mpr ⟨⟨x, inLeft, y, inRight, rfl⟩, ceiling⟩
  exact mem_minus.mpr ⟨⟨x + y, inSum, y, inRight, Int.add_sub_cancel x y⟩, (bounds inLeft).1⟩

/-- The sum and the difference of two domains hold just the sums and the differences of their values
that variables can take, also where they are calculated on plain lists of ranges, and the laws of
addition hold as far as sums are not cut off. -/
structure ExactSums (first second third : Domain) : Prop where
  plusList : RangeList.combine RangeList.sum first.ranges second.ranges =
    .ok (first.plus second).ranges
  minusList : RangeList.combine RangeList.difference first.ranges second.ranges =
    .ok (first.minus second).ranges
  plus : ∀ value, value ∈ first.plus second ↔
    (∃ x ∈ first, ∃ y ∈ second, x + y = value) ∧ value ≤ valueCeiling
  minus : ∀ value, value ∈ first.minus second ↔
    (∃ x ∈ first, ∃ y ∈ second, x - y = value) ∧ valueFloor ≤ value
  comm : first.plus second = second.plus first
  assoc : (first.plus second).plus third = first.plus (second.plus third)
  back : ∀ x ∈ first, (∃ y ∈ second, x + y ≤ valueCeiling) → x ∈ (first.plus second).minus second

/-- **Exact sums.** Sums and differences are exact for all domains, however many ranges they
have. -/
theorem exactSums (first second third : Domain) : ExactSums first second third where
  plusList := RangeList.plus_eq first second
  minusList := RangeList.minus_eq first second
  plus _ := mem_plus
  minus _ := mem_minus
  comm := plus_comm first second
  assoc := plus_assoc first second third
  back x inFirst := by
    rintro ⟨y, inSecond, ceiling⟩
    exact mem_minus_plus inFirst inSecond ceiling

/-- Of two sums the second one is cut off, and the first one is enough. -/
theorem mem_minus_plus_near_ceiling :
    valueCeiling - 1 ∈ ((Domain.value (valueCeiling - 1)).plus (ofValues [1, 5])).minus
      (ofValues [1, 5]) :=
  (exactSums (Domain.value (valueCeiling - 1)) (ofValues [1, 5]) ∅).back (valueCeiling - 1)
    (by decide) ⟨1, by decide, by decide⟩

end Domain

end ConstraintSearch
