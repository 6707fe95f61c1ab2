import ConstraintSearch.Proofs.Domain.Cutting
import Mathlib.Data.Finset.Card

/-!
# Domains as finite sets

A domain stands for the finite set of the values that it enumerates. Each way to make, narrow or ask
a domain is set against the operation on finite sets, and against the walk over plain lists of
ranges which computes it. The main statement is that all of them agree, wherever the holes of the
domains are, and that no number on the way leaves its word.
-/

namespace ConstraintSearch

/-! ### Ends of increasing lists -/

section Increasing

variable {values : List Int} (increasing : values.Pairwise (· < ·))

include increasing

/-- An increasing list starts with its least value. -/
theorem head?_of_increasing {least : Int} (inside : least ∈ values)
    (isLeast : ∀ value ∈ values, least ≤ value) : values.head? = some least := by
  cases values with
  | nil => cases inside
  | cons head rest =>
    rcases List.mem_cons.mp inside with rfl | inRest
    · rfl
    · have := (List.pairwise_cons.mp increasing).1 least inRest
      have := isLeast head List.mem_cons_self
      omega

/-- It ends with its greatest value. -/
theorem getLast?_of_increasing {greatest : Int} (inside : greatest ∈ values)
    (isGreatest : ∀ value ∈ values, value ≤ greatest) : values.getLast? = some greatest := by
  induction values with
  | nil => cases inside
  | cons head rest inductionHypothesis =>
    obtain ⟨before, restIncreasing⟩ := List.pairwise_cons.mp increasing
    cases rest with
    | nil => exact congrArg some (List.mem_singleton.mp inside).symm
    | cons next others =>
      rw [List.getLast?_cons_cons]
      refine inductionHypothesis restIncreasing ?_ fun value inRest =>
        isGreatest value (List.mem_cons_of_mem _ inRest)
      rcases List.mem_cons.mp inside with rfl | inRest
      · have := before next List.mem_cons_self
        have := isGreatest next (List.mem_cons_of_mem _ List.mem_cons_self)
        omega
      · exact inRest

end Increasing

namespace Domain

/-- The finite set of the values that a domain enumerates. -/
def toFinset (domain : Domain) : Finset Int :=
  domain.values.toFinset

/-- The values of a domain are those of its finite set. -/
@[simp] theorem mem_toFinset {value : Int} {domain : Domain} :
    value ∈ domain.toFinset ↔ value ∈ domain := by
  rw [toFinset, List.mem_toFinset, mem_values]

/-! ### Making and narrowing -/

section Narrowing

variable (domain : Domain) (bound : Int)

/-- Intersections of domains are those of finite sets. -/
theorem toFinset_inter (left right : Domain) :
    (left ∩ right).toFinset = left.toFinset ∩ right.toFinset := by
  ext value
  rw [mem_toFinset, mem_inter, Finset.mem_inter, mem_toFinset, mem_toFinset]

/-- Removing a value erases it. -/
theorem toFinset_removeValue (excluded : Int) :
    (domain.removeValue excluded).toFinset = domain.toFinset.erase excluded := by
  ext value
  rw [mem_toFinset, mem_removeValue, Finset.mem_erase, mem_toFinset, and_comm]

/-- Removing all values below a bound keeps the others. -/
theorem toFinset_removeBelow :
    (domain.removeBelow bound).toFinset = domain.toFinset.filter (bound ≤ ·) := by
  ext value
  rw [mem_toFinset, mem_removeBelow, Finset.mem_filter, mem_toFinset]

/-- So does removing all values above one. -/
theorem toFinset_removeAbove :
    (domain.removeAbove bound).toFinset = domain.toFinset.filter (· ≤ bound) := by
  ext value
  rw [mem_toFinset, mem_removeAbove, Finset.mem_filter, mem_toFinset]

/-- Of listed values, the supported ones are taken, each of them once. -/
theorem toFinset_ofValues (listed : List Int) :
    (ofValues listed).toFinset = listed.toFinset.filter fun value =>
      valueFloor ≤ value ∧ value ≤ valueCeiling := by
  ext value
  rw [mem_toFinset, mem_ofValues, Finset.mem_filter, List.mem_toFinset]

/-- A domain is made again from the values that it enumerates. -/
theorem ofValues_values : ofValues domain.values = domain := by
  ext value
  rw [mem_ofValues, mem_values]
  exact and_iff_left_of_imp bounds

end Narrowing

/-! ### Asking -/

/-- Domains intersect if they have a common value. -/
theorem intersects_iff_nonempty {left right : Domain} :
    left.intersects right ↔ (left ∩ right).toFinset.Nonempty := by
  rw [intersects, Bool.not_eq_true', isEmpty_eq_false_iff]
  exact exists_congr fun value => mem_toFinset.symm

/-- The walk over both lists of ranges tells so. -/
theorem meet_ranges (left right : Domain) :
    RangeList.meet left.ranges right.ranges = left.intersects right := by
  rw [Bool.eq_iff_iff, RangeList.meet_iff left.canonical right.canonical, intersects,
    Bool.not_eq_true', isEmpty_eq_false_iff]
  exact exists_congr fun value => mem_inter.symm

/-- The size of a domain is the number of its values. -/
theorem card_toFinset (domain : Domain) : domain.toFinset.card = domain.size := by
  rw [toFinset, List.toFinset_card_of_nodup (domain.pairwise_values.imp Int.ne_of_lt),
    length_values]

/-- The least value is the first one that is enumerated. -/
theorem min?_eq_head? (domain : Domain) : domain.min? = domain.values.head? := by
  cases found : domain.min? with
  | none =>
    have none : domain.ranges = [] := by simpa [min?] using found
    rw [values, none]
    rfl
  | some least =>
    obtain ⟨member, isLeast⟩ := min?_eq_some_iff.mp found
    exact (head?_of_increasing domain.pairwise_values (mem_values.mpr member)
      fun value inside => isLeast value (mem_values.mp inside)).symm

/-- The greatest value is the last one. -/
theorem max?_eq_getLast? (domain : Domain) : domain.max? = domain.values.getLast? := by
  cases found : domain.max? with
  | none =>
    have none : domain.ranges = [] := by simpa [max?] using found
    rw [values, none]
    rfl
  | some greatest =>
    obtain ⟨member, isGreatest⟩ := max?_eq_some_iff.mp found
    exact (getLast?_of_increasing domain.pairwise_values (mem_values.mpr member)
      fun value inside => isGreatest value (mem_values.mp inside)).symm

/-- A lookup by halving answers for the enumeration. -/
theorem holds_ranges {value : Int} {domain : Domain} :
    RangeList.holds value domain.ranges ↔ value ∈ domain.values := by
  rw [RangeList.holds_iff domain.isCanonical, mem_values, mem_iff]

/-- The first listed value that is in the domain is found among its values. -/
theorem firstMember?_eq_find?_values (domain : Domain) (listed : List Int) :
    domain.firstMember? listed = listed.find? (· ∈ domain.values) := by
  rw [firstMember?_eq_find?]
  refine congrArg listed.find? (funext fun entry => ?_)
  exact decide_eq_decide.mpr mem_values.symm

/-- The search through the ranges finds the same one. -/
theorem find?_holds_ranges (domain : Domain) (listed : List Int) :
    listed.find? (RangeList.holds · domain.ranges) = listed.find? (· ∈ domain.values) := by
  refine congrArg listed.find? (funext fun entry => ?_)
  rw [Bool.eq_iff_iff, holds_ranges, decide_eq_true_iff]

/-- Every value that a domain enumerates fits a word of 32 bits. -/
theorem fits_of_mem_values {value : Int} {domain : Domain} (inside : value ∈ domain.values) :
    Word.int32.Fits value := by
  have floor : valueFloor = 0 := rfl
  have ceiling : valueCeiling = 100000000 := rfl
  have := bounds (mem_values.mp inside)
  exact Word.fits_int32.mpr (by omega)

/-- Two domains are treated as the finite sets that they enumerate, and a value and a list of values
along with them: the walks over their ranges do not slip, and give what finite sets give. -/
structure ActsAsSet (left right : Domain) (value : Int) (listed : List Int) : Prop where
  increasing : left.values.Pairwise (· < ·)
  fits : ∀ member ∈ left.values, Word.int32.Fits member
  contains : RangeList.holds value left.ranges ↔ value ∈ left.values
  intersection : overlaps left.ranges right.ranges = (left ∩ right).ranges ∧
    (left ∩ right).toFinset = left.toFinset ∩ right.toFinset
  removeValue : RangeList.removeValue value left.ranges = .ok (left.removeValue value).ranges ∧
    (left.removeValue value).toFinset = left.toFinset.erase value
  removeBelow : RangeList.removeBelow value left.ranges = (left.removeBelow value).ranges ∧
    (left.removeBelow value).toFinset = left.toFinset.filter (value ≤ ·)
  removeAbove : RangeList.removeAbove value left.ranges = (left.removeAbove value).ranges ∧
    (left.removeAbove value).toFinset = left.toFinset.filter (· ≤ value)
  ofValues : RangeList.normalize (listed.map fun entry => ⟨entry, entry⟩) =
    .ok (ofValues listed).ranges ∧ (ofValues listed).toFinset = listed.toFinset.filter fun entry =>
      valueFloor ≤ entry ∧ entry ≤ valueCeiling
  ofOwnValues : Domain.ofValues left.values = left
  intersects : RangeList.meet left.ranges right.ranges = left.intersects right ∧
    (left.intersects right ↔ (left ∩ right).toFinset.Nonempty)
  size : RangeList.count left.ranges = .ok left.size ∧ left.size = left.values.length ∧
    left.size = left.toFinset.card
  ends : left.min? = left.values.head? ∧ left.max? = left.values.getLast?
  middle : RangeList.middle left.ranges = .ok left.middle? ∧
    left.middle? = left.values[left.size / 2]?
  firstMember : listed.find? (RangeList.holds · left.ranges) = left.firstMember? listed ∧
    left.firstMember? listed = listed.find? (· ∈ left.values)

/-- **Domains behave as finite sets.** This holds of any two domains, any value and any list of
values. -/
theorem actsAsSet (left right : Domain) (value : Int) (listed : List Int) :
    ActsAsSet left right value listed where
  increasing := left.pairwise_values
  fits _ inside := fits_of_mem_values inside
  contains := holds_ranges
  intersection := ⟨rfl, toFinset_inter left right⟩
  removeValue := ⟨RangeList.removeValue_eq value left, toFinset_removeValue left value⟩
  removeBelow := ⟨RangeList.removeBelow_eq value left, toFinset_removeBelow left value⟩
  removeAbove := ⟨RangeList.removeAbove_eq value left, toFinset_removeAbove left value⟩
  ofValues := ⟨RangeList.normalize_eq _, toFinset_ofValues listed⟩
  ofOwnValues := ofValues_values left
  intersects := ⟨meet_ranges left right, intersects_iff_nonempty⟩
  size := ⟨RangeList.count_eq left, left.length_values.symm, left.card_toFinset.symm⟩
  ends := ⟨left.min?_eq_head?, left.max?_eq_getLast?⟩
  middle := ⟨RangeList.middle_eq left, left.middle?_eq_getElem?⟩
  firstMember := by
    have byMembers := left.firstMember?_eq_find?_values listed
    exact ⟨(left.find?_holds_ranges listed).trans byMembers.symm, byMembers⟩

end Domain

end ConstraintSearch
