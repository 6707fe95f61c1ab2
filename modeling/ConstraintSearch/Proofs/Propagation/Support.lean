import ConstraintSearch.Proofs.Domain.Order
import ConstraintSearch.Search.Narrowing

/-!
# What the operands of a comparison support in each other

A value of one operand is supported when the comparison holds between it and some value of the other
operand. This module gives the values that a domain supports, for all comparisons in one definition,
and shows that a comparison is rejected exactly when nothing is supported at all.
-/

namespace ConstraintSearch

namespace Domain

/-- Of the supported values, those up to the bound are in the domain. -/
theorem mem_atMost {value bound : Int} (inBounds : valueFloor ≤ value ∧ value ≤ valueCeiling) :
    value ∈ atMost bound ↔ value ≤ bound := by
  rw [atMost, mem_range]
  omega

/-- Those from the bound on are. -/
theorem mem_atLeast {value bound : Int} (inBounds : valueFloor ≤ value ∧ value ≤ valueCeiling) :
    value ∈ atLeast bound ↔ bound ≤ value := by
  rw [atLeast, mem_range]
  omega

/-- All of them but one are. -/
theorem mem_allBut {value excluded : Int} (inBounds : valueFloor ≤ value ∧ value ≤ valueCeiling) :
    value ∈ allBut excluded ↔ value ≠ excluded := by
  simp only [allBut, mem_ofRanges, covers_cons, covers_nil, or_false, Range.mem_iff]
  omega

/-- A domain lies within all values but one if it does not have that one. -/
theorem subset_allBut_iff {domain : Domain} {excluded : Int} :
    domain ⊆ allBut excluded ↔ ¬ excluded ∈ domain := by
  constructor
  · intro subset member
    exact (mem_allBut (bounds member)).mp (subset excluded member) rfl
  · intro missing value member
    refine (mem_allBut (bounds member)).mpr ?_
    rintro rfl
    exact missing member

/-- Two domains have no different values just if both are the same one value. -/
theorem isSolved_and_eq_iff {left right : Domain} (leftNonempty : left.Nonempty)
    (rightNonempty : right.Nonempty) :
    left.isSolved ∧ left = right ↔ ∀ first ∈ left, ∀ second ∈ right, first = second := by
  constructor
  · rintro ⟨solved, rfl⟩ first firstInside second secondInside
    obtain ⟨only, isOnly⟩ := isSolved_iff.mp solved
    have members := solvedValue?_eq_some_iff.mp isOnly
    rw [(members first).mp firstInside, (members second).mp secondInside]
  · intro equal
    obtain ⟨first, firstInside⟩ := leftNonempty
    obtain ⟨second, secondInside⟩ := rightNonempty
    have inLeft : ∀ value, value ∈ left ↔ value = second := fun value =>
      ⟨fun inside => equal value inside second secondInside,
        fun same => same ▸ equal first firstInside second secondInside ▸ firstInside⟩
    have inRight : ∀ value, value ∈ right ↔ value = second := fun value =>
      ⟨fun inside => (equal first firstInside value inside).symm.trans
        (equal first firstInside second secondInside), fun same => same ▸ secondInside⟩
    refine ⟨isSolved_iff.mpr ⟨second, solvedValue?_eq_some_iff.mpr inLeft⟩, ?_⟩
    ext value
    rw [inLeft, inRight]

section Bounds

variable {domain : Domain} {value : Int} (nonempty : domain.Nonempty)
  (inBounds : valueFloor ≤ value ∧ value ≤ valueCeiling)

include nonempty inBounds

/-- A value is below some value of a domain if it is below the greatest one. -/
theorem mem_belowSome : value ∈ domain.belowSome ↔ ∃ other ∈ domain, value < other := by
  obtain ⟨greatest, isGreatest⟩ := nonempty.exists_max?
  obtain ⟨member, most⟩ := max?_eq_some_iff.mp isGreatest
  rw [belowSome, isGreatest]
  refine (mem_atMost inBounds).trans ⟨fun below => ⟨greatest, member, by omega⟩, ?_⟩
  rintro ⟨other, inside, smaller⟩
  have := most other inside
  omega

/-- It is at most some value if it is at most the greatest one. -/
theorem mem_upToSome : value ∈ domain.upToSome ↔ ∃ other ∈ domain, value ≤ other := by
  obtain ⟨greatest, isGreatest⟩ := nonempty.exists_max?
  obtain ⟨member, most⟩ := max?_eq_some_iff.mp isGreatest
  rw [upToSome, isGreatest]
  refine (mem_atMost inBounds).trans ⟨fun below => ⟨greatest, member, below⟩, ?_⟩
  rintro ⟨other, inside, smaller⟩
  exact Int.le_trans smaller (most other inside)

/-- It is above some value if it is above the least one. -/
theorem mem_aboveSome : value ∈ domain.aboveSome ↔ ∃ other ∈ domain, other < value := by
  obtain ⟨smallest, isSmallest⟩ := nonempty.exists_min?
  obtain ⟨member, least⟩ := min?_eq_some_iff.mp isSmallest
  rw [aboveSome, isSmallest]
  refine (mem_atLeast inBounds).trans ⟨fun above => ⟨smallest, member, by omega⟩, ?_⟩
  rintro ⟨other, inside, greater⟩
  have := least other inside
  omega

/-- It is at least some value if it is at least the least one. -/
theorem mem_fromSome : value ∈ domain.fromSome ↔ ∃ other ∈ domain, other ≤ value := by
  obtain ⟨smallest, isSmallest⟩ := nonempty.exists_min?
  obtain ⟨member, least⟩ := min?_eq_some_iff.mp isSmallest
  rw [fromSome, isSmallest]
  refine (mem_atLeast inBounds).trans ⟨fun above => ⟨smallest, member, above⟩, ?_⟩
  rintro ⟨other, inside, greater⟩
  exact Int.le_trans (least other inside) greater

end Bounds

/-- A relation that holds the better the further apart its sides are holds of some pair when it
holds of the ends. -/
theorem exists_pair_iff {left right : Domain} {holds : Int → Int → Prop} [DecidableRel holds]
    (widen : ∀ {first second lower upper}, lower ≤ first → second ≤ upper → holds first second →
      holds lower upper) :
    (match left.min?, right.max? with
      | some smallest, some greatest => decide (holds smallest greatest)
      | _, _ => false) = true ↔ ∃ first ∈ left, ∃ second ∈ right, holds first second := by
  split
  · rename_i smallest greatest isSmallest isGreatest
    obtain ⟨inLeft, least⟩ := min?_eq_some_iff.mp isSmallest
    obtain ⟨inRight, most⟩ := max?_eq_some_iff.mp isGreatest
    rw [decide_eq_true_iff]
    constructor
    · intro related
      exact ⟨smallest, inLeft, greatest, inRight, related⟩
    · rintro ⟨first, firstInside, second, secondInside, related⟩
      exact widen (least first firstInside) (most second secondInside) related
  · -- An operand without an end has no values.
    rename_i missing
    refine iff_of_false Bool.false_ne_true ?_
    rintro ⟨first, firstInside, second, secondInside, _⟩
    obtain ⟨smallest, isSmallest⟩ := Nonempty.exists_min? ⟨first, firstInside⟩
    obtain ⟨greatest, isGreatest⟩ := Nonempty.exists_max? ⟨second, secondInside⟩
    exact missing smallest greatest isSmallest isGreatest

/-- One domain starts below the other if some value does. -/
theorem startsBelow_iff {left right : Domain} :
    left.startsBelow right ↔ ∃ first ∈ left, ∃ second ∈ right, first < second :=
  exists_pair_iff (by omega)

/-- It starts no later if some value is at most one of the other domain. -/
theorem startsUpTo_iff {left right : Domain} :
    left.startsUpTo right ↔ ∃ first ∈ left, ∃ second ∈ right, first ≤ second :=
  exists_pair_iff (by omega)

/-- Domains intersect if they have a common value. -/
theorem intersects_iff {left right : Domain} :
    left.intersects right ↔ ∃ value ∈ left, value ∈ right := by
  rw [intersects, Bool.not_eq_true', isEmpty_eq_false_iff, Nonempty]
  simp only [mem_inter]

end Domain

namespace Comparison

/-! ### Supported values -/

/-- The comparison with its operands turned round. -/
def converse : Comparison → Comparison
  | eq => eq
  | neq => neq
  | lt => gt
  | lte => gte
  | gt => lt
  | gte => lte

@[simp] theorem converse_converse (comparison : Comparison) :
    comparison.converse.converse = comparison := by
  cases comparison <;> rfl

/-- The comparison turned round holds between the values turned round. -/
theorem holds_converse (comparison : Comparison) (left right : Int) :
    comparison.converse.Holds left right ↔ comparison.Holds right left := by
  cases comparison with
  | eq => exact eq_comm
  | neq => exact ne_comm
  | _ => exact Iff.rfl

/-- The values of the left operand that a domain of the right one supports; none if it supports
every value. -/
def support (comparison : Comparison) (right : Domain) : Option Domain :=
  match comparison with
  | eq => some right
  | neq => right.solvedValue?.map .allBut
  | lt => some right.belowSome
  | lte => some right.upToSome
  | gt => some right.aboveSome
  | gte => some right.fromSome

/-- A value is supported when it satisfies the comparison with some value of the right operand. -/
theorem mem_support {comparison : Comparison} {right : Domain} {value : Int}
    (nonempty : right.Nonempty) (inBounds : valueFloor ≤ value ∧ value ≤ valueCeiling) :
    (∀ supported, comparison.support right = some supported → value ∈ supported) ↔
      ∃ other ∈ right, comparison.Holds value other := by
  cases comparison with
  | eq => simp [support, Holds]
  | neq =>
    simp only [support, Holds, Option.map_eq_some_iff, forall_exists_index, and_imp,
      forall_apply_eq_imp_iff₂, Domain.mem_allBut inBounds]
    constructor
    · intro differs
      by_cases solved : right.isSolved
      · obtain ⟨only, solved⟩ := Domain.isSolved_iff.mp solved
        exact ⟨only, Domain.mem_of_solvedValue? solved, differs only solved⟩
      · by_cases inside : value ∈ right
        · obtain ⟨other, otherInside, different⟩ := Domain.exists_ne_of_not_isSolved inside solved
          exact ⟨other, otherInside, different.symm⟩
        · obtain ⟨other, otherInside⟩ := nonempty
          exact ⟨other, otherInside, fun same => inside (same ▸ otherInside)⟩
    · rintro ⟨other, inside, different⟩ only solved
      rwa [← (Domain.solvedValue?_eq_some_iff.mp solved other).mp inside]
  | lt => simp [support, Holds, Domain.mem_belowSome nonempty inBounds]
  | lte => simp [support, Holds, Domain.mem_upToSome nonempty inBounds]
  | gt => simp [support, Holds, Domain.mem_aboveSome nonempty inBounds]
  | gte => simp [support, Holds, Domain.mem_fromSome nonempty inBounds]

/-- Every value of either operand is supported by the other one. -/
def Supported (comparison : Comparison) (left right : Domain) : Prop :=
  (∀ value ∈ left, ∃ other ∈ right, comparison.Holds value other) ∧
    ∀ value ∈ right, ∃ other ∈ left, comparison.Holds other value

/-- Turned round, both sides support each other as before. -/
theorem supported_converse {comparison : Comparison} {left right : Domain} :
    comparison.converse.Supported right left ↔ comparison.Supported left right := by
  simp only [Supported, holds_converse]
  exact And.comm

/-! ### Rejected domains -/

/-- A comparison is rejected exactly when it holds between no two values. -/
theorem isRejected_iff {comparison : Comparison} {left right : Domain} :
    comparison.isRejected left right ↔
      ∀ first ∈ left, ∀ second ∈ right, ¬ comparison.Holds first second := by
  by_cases leftEmpty : left.isEmpty
  · have none := Domain.isEmpty_iff.mp leftEmpty
    simp only [isRejected, leftEmpty, Bool.true_or, true_iff]
    exact fun first inside => absurd inside (none first)
  by_cases rightEmpty : right.isEmpty
  · have none := Domain.isEmpty_iff.mp rightEmpty
    simp only [isRejected, rightEmpty, Bool.or_true, Bool.true_or, true_iff]
    exact fun _ _ second inside => absurd inside (none second)
  simp only [isRejected, leftEmpty, rightEmpty, Bool.false_or]
  have noPair : ∀ {holds : Int → Int → Prop},
      (¬ ∃ first ∈ left, ∃ second ∈ right, holds first second) ↔
        ∀ first ∈ left, ∀ second ∈ right, ¬ holds first second := by
    simp
  have exchange : ∀ {holds : Int → Int → Prop},
      (∃ second ∈ right, ∃ first ∈ left, holds first second) ↔
        ∃ first ∈ left, ∃ second ∈ right, holds first second := by
    intro holds
    constructor
    · rintro ⟨second, inRight, first, inLeft, related⟩
      exact ⟨first, inLeft, second, inRight, related⟩
    · rintro ⟨first, inLeft, second, inRight, related⟩
      exact ⟨second, inRight, first, inLeft, related⟩
  cases comparison with
  | eq =>
    simp only [Bool.not_eq_true', ← Bool.not_eq_true, Domain.intersects_iff, Holds]
    rw [← noPair]
    simp
  | neq =>
    simp only [Bool.and_eq_true, decide_eq_true_iff, Holds, ne_eq, Decidable.not_not]
    exact Domain.isSolved_and_eq_iff
      (Domain.isEmpty_eq_false_iff.mp (Bool.eq_false_iff.mpr leftEmpty))
      (Domain.isEmpty_eq_false_iff.mp (Bool.eq_false_iff.mpr rightEmpty))
  | lt => simp only [Bool.not_eq_true', ← Bool.not_eq_true, Domain.startsBelow_iff, noPair, Holds]
  | lte => simp only [Bool.not_eq_true', ← Bool.not_eq_true, Domain.startsUpTo_iff, noPair, Holds]
  | gt =>
    simp only [Bool.not_eq_true', ← Bool.not_eq_true, Domain.startsBelow_iff, Holds]
    rw [← noPair]
    exact not_congr exchange
  | gte =>
    simp only [Bool.not_eq_true', ← Bool.not_eq_true, Domain.startsUpTo_iff, Holds]
    rw [← noPair]
    exact not_congr exchange

end Comparison

end ConstraintSearch
