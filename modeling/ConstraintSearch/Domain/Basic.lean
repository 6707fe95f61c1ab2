import ConstraintSearch.Domain.Sharing
import ConstraintSearch.Fault
import ConstraintSearch.Total

/-!
# Domains

A domain is the set of values that a variable may still take, kept as a canonical list of ranges.
Two domains with the same members are equal. Domains are values: every operation that narrows one
returns a new domain, and all of them are intersections.
-/

namespace ConstraintSearch

/-- A set of values, kept as its canonical list of ranges. -/
structure Domain where
  ranges : List Range
  canonical : CanonicalFrom valueFloor ranges
deriving DecidableEq

namespace Domain

instance : Membership Int Domain where
  mem domain value := Covers domain.ranges value

/-- A value is in a domain if some range covers it. -/
theorem mem_iff {value : Int} {domain : Domain} :
    value ∈ domain ↔ Covers domain.ranges value :=
  Iff.rfl

instance (value : Int) (domain : Domain) : Decidable (value ∈ domain) :=
  decidable_of_iff (reaches value domain.ranges) (reaches_iff domain.canonical)

/-- Domains with the same members are equal. -/
@[ext] theorem ext {left right : Domain} (same : ∀ value, value ∈ left ↔ value ∈ right) :
    left = right := by
  have ranges := left.canonical.eq_of_covers_iff right.canonical same
  cases left
  cases right
  simp_all

/-- Every member is a value that variables can take. -/
theorem bounds {value : Int} {domain : Domain} (member : value ∈ domain) :
    valueFloor ≤ value ∧ value ≤ valueCeiling :=
  domain.canonical.bounds member

/-! ### Making domains -/

/-- The values of arbitrary ranges, as far as variables can take them. -/
def ofRanges (ranges : List Range) : Domain :=
  ⟨canonicalRanges ranges, canonicalFrom_canonicalRanges ranges⟩

/-- Of arbitrary ranges a domain takes the values that variables can take. -/
theorem mem_ofRanges {value : Int} {ranges : List Range} :
    value ∈ ofRanges ranges ↔ Covers ranges value ∧ valueFloor ≤ value ∧ value ≤ valueCeiling :=
  covers_canonicalRanges

/-- The domain without values. -/
def empty : Domain :=
  ⟨[], trivial⟩

instance : EmptyCollection Domain :=
  ⟨empty⟩

instance : Inhabited Domain :=
  ⟨empty⟩

/-- No value is in the empty domain. -/
@[simp] theorem not_mem_empty {value : Int} : ¬ value ∈ (∅ : Domain) :=
  covers_nil

/-- The values from `lo` to `hi`; none if the bounds are inverted. -/
def range (lo hi : Int) : Domain :=
  ofRanges [⟨lo, hi⟩]

/-- Of a range, a domain takes the values that variables can take. -/
theorem mem_range {value lo hi : Int} :
    value ∈ range lo hi ↔ (lo ≤ value ∧ value ≤ hi) ∧ valueFloor ≤ value ∧
      value ≤ valueCeiling := by
  simp [range, mem_ofRanges, Range.mem_iff]

/-- Every value that variables can take. -/
def full : Domain :=
  range valueFloor valueCeiling

/-- The full domain has just those. -/
theorem mem_full {value : Int} : value ∈ full ↔ valueFloor ≤ value ∧ value ≤ valueCeiling := by
  simp [full, mem_range]

/-- The value on its own; nothing if variables cannot take it. -/
def value (value : Int) : Domain :=
  range value value

/-- A domain of one value has no other. -/
theorem mem_value {member only : Int} :
    member ∈ value only ↔ member = only ∧ valueFloor ≤ member ∧ member ≤ valueCeiling := by
  rw [value, mem_range]
  omega

/-- The listed values, as far as variables can take them. -/
def ofValues (values : List Int) : Domain :=
  ofRanges (values.map fun value => ⟨value, value⟩)

/-- Of listed values a domain takes those that variables can take. -/
theorem mem_ofValues {member : Int} {values : List Int} :
    member ∈ ofValues values ↔ member ∈ values ∧ valueFloor ≤ member ∧ member ≤ valueCeiling := by
  rw [ofValues, mem_ofRanges, Covers]
  refine and_congr_left fun _ => ?_
  simp only [List.mem_map, Range.mem_iff]
  constructor
  · rintro ⟨_, ⟨entry, listed, rfl⟩, above, below⟩
    have same : member = entry := Int.le_antisymm below above
    exact same ▸ listed
  · intro listed
    exact ⟨⟨member, member⟩, ⟨member, listed, rfl⟩, Int.le_refl _, Int.le_refl _⟩

/-! ### Narrowing -/

/-- The values of both domains. -/
def intersection (left right : Domain) : Domain :=
  ⟨overlaps left.ranges right.ranges,
    overlaps_eq_sharedRanges left.canonical right.canonical ▸
      canonicalFrom_sharedRanges left.canonical right.canonical⟩

instance : Inter Domain :=
  ⟨intersection⟩

/-- The intersection has the common values. -/
@[simp] theorem mem_inter {value : Int} {left right : Domain} :
    value ∈ left ∩ right ↔ value ∈ left ∧ value ∈ right := by
  change Covers (overlaps left.ranges right.ranges) value ↔ _
  rw [overlaps_eq_sharedRanges left.canonical right.canonical]
  exact covers_sharedRanges

/-- The values up to a bound. -/
def atMost (bound : Int) : Domain :=
  range valueFloor bound

/-- The values from a bound on. -/
def atLeast (bound : Int) : Domain :=
  range bound valueCeiling

/-- All values but one. -/
def allBut (excluded : Int) : Domain :=
  ofRanges [⟨valueFloor, excluded - 1⟩, ⟨excluded + 1, valueCeiling⟩]

/-- The domain without one value. -/
def removeValue (domain : Domain) (excluded : Int) : Domain :=
  domain ∩ allBut excluded

/-- The domain without the values below the bound. -/
def removeBelow (domain : Domain) (bound : Int) : Domain :=
  domain ∩ atLeast bound

/-- The domain without the values above the bound. -/
def removeAbove (domain : Domain) (bound : Int) : Domain :=
  domain ∩ atMost bound

/-- Removing a value leaves all others. -/
theorem mem_removeValue {value excluded : Int} {domain : Domain} :
    value ∈ domain.removeValue excluded ↔ value ∈ domain ∧ value ≠ excluded := by
  simp only [removeValue, mem_inter, allBut, mem_ofRanges, covers_cons, covers_nil, Range.mem_iff]
  refine and_congr_right fun member => ?_
  have := bounds member
  grind

/-- Removing the values below a bound leaves the others. -/
theorem mem_removeBelow {value bound : Int} {domain : Domain} :
    value ∈ domain.removeBelow bound ↔ value ∈ domain ∧ bound ≤ value := by
  simp only [removeBelow, mem_inter, atLeast, mem_range]
  refine and_congr_right fun member => ?_
  have := bounds member
  omega

/-- So does removing those above one. -/
theorem mem_removeAbove {value bound : Int} {domain : Domain} :
    value ∈ domain.removeAbove bound ↔ value ∈ domain ∧ value ≤ bound := by
  simp only [removeAbove, mem_inter, atMost, mem_range]
  refine and_congr_right fun member => ?_
  have := bounds member
  omega

/-! ### Asking about domains -/

/-- Whether no value is left. -/
def isEmpty (domain : Domain) : Bool :=
  domain.ranges.isEmpty

/-- The only value, if exactly one is left. -/
def solvedValue? (domain : Domain) : Option Int :=
  match domain.ranges with
  | [range] => if range.lo = range.hi then some range.lo else none
  | _ => none

/-- Whether exactly one value is left. -/
def isSolved (domain : Domain) : Bool :=
  domain.solvedValue?.isSome

/-- Whether the value is the only one left. -/
def isValue (domain : Domain) (value : Int) : Bool :=
  domain.solvedValue? == some value

/-- The smallest value. -/
def min? (domain : Domain) : Option Int :=
  domain.ranges.head?.map Range.lo

/-- The largest value. -/
def max? (domain : Domain) : Option Int :=
  domain.ranges.getLast?.map Range.hi

/-- The smallest value, or the fault that there is none. -/
def minimum (domain : Domain) : Except Fault Int :=
  domain.min?.elim (.error .emptyMinimum) .ok

/-- The largest value, or the fault that there is none. -/
def maximum (domain : Domain) : Except Fault Int :=
  domain.max?.elim (.error .emptyMaximum) .ok

/-- The number of values. -/
def size (domain : Domain) : Nat :=
  total Range.size domain.ranges

/-- The values in increasing order. -/
def values (domain : Domain) : List Int :=
  domain.ranges.flatMap Range.values

/-- The first values of a list of ranges, at most `count` of them. -/
def firstOfRanges : List Range → Nat → List Int
  | [], _ => []
  | range :: rest, count =>
    if count ≤ range.size then
      (List.range count).map fun (offset : Nat) => range.lo + offset
    else
      range.values ++ firstOfRanges rest (count - range.size)

/-- The first values in increasing order, at most `count` of them. -/
def firstValues (domain : Domain) (count : Nat) : List Int :=
  firstOfRanges domain.ranges count

/-- The value at a position of the enumeration of a list of ranges. -/
def nthOfRanges? : List Range → Nat → Option Int
  | [], _ => none
  | range :: rest, position =>
    if position < range.size then
      some (range.lo + position)
    else
      nthOfRanges? rest (position - range.size)

/-- The value at half the size, rounded down, of the enumeration. -/
def middle? (domain : Domain) : Option Int :=
  nthOfRanges? domain.ranges (domain.size / 2)

/-- The value at half the size of the enumeration, or the fault that there is none. -/
def middle (domain : Domain) : Except Fault Int :=
  domain.middle?.elim (.error .emptyMiddle) .ok

/-- Whether the domains share a value. -/
def intersects (left right : Domain) : Bool :=
  !(left ∩ right).isEmpty

/-- The first listed value that the domain has. The listed ones among its values are singled out
first, since they may be much fewer. -/
def firstMember? (domain : Domain) (listed : List Int) : Option Int :=
  let common := domain ∩ ofValues listed
  listed.find? fun value => value ∈ common

/-- The first member of a list is looked for value by value. -/
theorem firstMember?_eq_find? (domain : Domain) (listed : List Int) :
    domain.firstMember? listed = listed.find? fun value => value ∈ domain := by
  rw [firstMember?, ← List.head?_filter, ← List.head?_filter]
  refine congrArg List.head? (List.filter_congr fun value inside => decide_eq_decide.mpr ?_)
  rw [mem_inter, mem_ofValues]
  exact ⟨And.left, fun member => ⟨member, inside, bounds member⟩⟩

end Domain

end ConstraintSearch
