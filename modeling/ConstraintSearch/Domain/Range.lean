/-!
# Ranges of values

A variable takes integer values between `valueFloor` and `valueCeiling`. This module holds the
inclusive range, the building block of a domain, its enumeration, and the overlap of two ranges.
-/

namespace ConstraintSearch

/-- The smallest value a variable can take. -/
def valueFloor : Int := 0

/-- The largest value a variable can take. -/
def valueCeiling : Int := 100000000

/-- The consecutive integers from `lo` to `hi`, both included. -/
structure Range where
  lo : Int
  hi : Int
deriving DecidableEq, Repr

namespace Range

instance : Membership Int Range where
  mem range value := range.lo ≤ value ∧ value ≤ range.hi

theorem mem_iff {value : Int} {range : Range} :
    value ∈ range ↔ range.lo ≤ value ∧ value ≤ range.hi :=
  Iff.rfl

instance (value : Int) (range : Range) : Decidable (value ∈ range) :=
  inferInstanceAs (Decidable (range.lo ≤ value ∧ value ≤ range.hi))

/-- The number of values in the range. -/
def size (range : Range) : Nat :=
  (range.hi - range.lo + 1).toNat

/-- The values of the range in increasing order. -/
def values (range : Range) : List Int :=
  (List.range range.size).map fun (offset : Nat) => range.lo + offset

@[simp] theorem length_values (range : Range) : range.values.length = range.size := by
  simp [values]

/-- A range enumerates its values. -/
theorem mem_values {value : Int} {range : Range} : value ∈ range.values ↔ value ∈ range := by
  simp only [values, size, List.mem_map, List.mem_range, mem_iff]
  constructor
  · rintro ⟨offset, within, rfl⟩
    omega
  · rintro ⟨above, below⟩
    exact ⟨(value - range.lo).toNat, by omega, by omega⟩

/-- It does so in increasing order. -/
theorem pairwise_values (range : Range) : range.values.Pairwise (· < ·) := by
  rw [values, List.pairwise_map]
  exact List.pairwise_lt_range.imp fun smaller => by omega

/-- The values which two ranges share, if there are any. -/
@[inline] def overlap? (left right : Range) : Option Range :=
  if max left.lo right.lo ≤ min left.hi right.hi then
    some ⟨max left.lo right.lo, min left.hi right.hi⟩
  else
    none

/-- An overlap runs from the later start to the earlier end and is not empty. -/
theorem overlap?_eq_some_iff {left right shared : Range} :
    left.overlap? right = some shared ↔
      shared.lo = max left.lo right.lo ∧ shared.hi = min left.hi right.hi ∧
        shared.lo ≤ shared.hi := by
  cases shared
  simp only [overlap?]
  split
  · simp only [Option.some.injEq, Range.mk.injEq]
    omega
  · simp only [reduceCtorEq, false_iff]
    omega

/-- An overlap holds exactly the values of both ranges. -/
theorem exists_mem_overlap? {value : Int} {left right : Range} :
    (∃ shared, left.overlap? right = some shared ∧ value ∈ shared) ↔
      value ∈ left ∧ value ∈ right := by
  simp only [overlap?, mem_iff]
  split
  · simp only [Option.some.injEq, exists_eq_left']
    omega
  · simp only [reduceCtorEq, false_and, exists_false, false_iff]
    omega

/-- The part of the range that variables can take. -/
@[inline] def clamp? (range : Range) : Option Range :=
  range.overlap? ⟨valueFloor, valueCeiling⟩

end Range

end ConstraintSearch
