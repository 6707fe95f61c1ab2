import ConstraintSearch.Domain.Range

/-!
# Canonical lists of ranges

A list of ranges is canonical when it increases, stays within the values that variables can take,
and leaves at least one value out between two neighbours. The main statement is that two canonical
lists which cover the same values are the same list, so that comparing lists compares sets.
Inserting keeps the form.
-/

namespace ConstraintSearch

/-- Some range of the list holds the value. -/
def Covers (ranges : List Range) (value : Int) : Prop :=
  ∃ range ∈ ranges, value ∈ range

/-- No value is in no range. -/
@[simp] theorem covers_nil {value : Int} : ¬ Covers [] value := by
  simp [Covers]

/-- A value is in the first range or in one of the others. -/
@[simp] theorem covers_cons {value : Int} {range : Range} {rest : List Range} :
    Covers (range :: rest) value ↔ value ∈ range ∨ Covers rest value := by
  simp [Covers]

/-- The list is in canonical form and starts at `bound` or later: every range holds a value, none
passes `valueCeiling`, and between two neighbours at least one value is missing. -/
def CanonicalFrom (bound : Int) : List Range → Prop
  | [] => True
  | range :: rest =>
    bound ≤ range.lo ∧ range.lo ≤ range.hi ∧ range.hi ≤ valueCeiling ∧
      CanonicalFrom (range.hi + 2) rest

namespace CanonicalFrom

instance decidable (bound : Int) : (ranges : List Range) → Decidable (CanonicalFrom bound ranges)
  | [] => .isTrue trivial
  | range :: rest =>
    have := decidable (range.hi + 2) rest
    inferInstanceAs (Decidable (_ ∧ _ ∧ _ ∧ _))

/-- A list which starts late enough also starts late enough for a smaller bound. -/
theorem weaken {lower upper : Int} {ranges : List Range}
    (canonical : CanonicalFrom upper ranges) (le : lower ≤ upper) : CanonicalFrom lower ranges := by
  cases ranges with
  | nil => trivial
  | cons range rest => exact ⟨Int.le_trans le canonical.1, canonical.2⟩

/-- Every value of a canonical list lies between its bound and `valueCeiling`. -/
theorem bounds {bound value : Int} {ranges : List Range} (canonical : CanonicalFrom bound ranges)
    (covered : Covers ranges value) : bound ≤ value ∧ value ≤ valueCeiling := by
  induction ranges generalizing bound with
  | nil => simp at covered
  | cons head rest inductionHypothesis =>
    obtain ⟨start, nonempty, ceiling, tail⟩ := canonical
    rcases covers_cons.mp covered with inHead | inRest
    · have := Range.mem_iff.mp inHead
      omega
    · have := inductionHypothesis tail inRest
      omega

/-- Every range of a canonical list starts at its bound or later. -/
theorem le_lo {bound : Int} {ranges : List Range} (canonical : CanonicalFrom bound ranges)
    {range : Range} (inside : range ∈ ranges) : bound ≤ range.lo := by
  induction ranges generalizing bound with
  | nil => simp at inside
  | cons head rest inductionHypothesis =>
    obtain ⟨start, nonempty, _, tail⟩ := canonical
    rcases List.mem_cons.mp inside with rfl | inRest
    · exact start
    · have := inductionHypothesis tail inRest
      omega

/-- A value before the first range is not covered. -/
theorem not_covers {bound value : Int} {ranges : List Range}
    (canonical : CanonicalFrom bound ranges) (before : value < bound) : ¬ Covers ranges value :=
  fun covered => Int.not_le.mpr before (canonical.bounds covered).1

/-- Two canonical lists which cover the same values are the same list. -/
theorem eq_of_covers_iff {left right : List Range} {leftBound rightBound : Int}
    (leftCanonical : CanonicalFrom leftBound left)
    (rightCanonical : CanonicalFrom rightBound right)
    (same : ∀ value, Covers left value ↔ Covers right value) : left = right := by
  induction left generalizing right leftBound rightBound with
  | nil =>
    cases right with
    | nil => rfl
    | cons range rest =>
      have := (same range.lo).mpr (by simp [Range.mem_iff, rightCanonical.2.1])
      simp at this
  | cons leftHead leftRest inductionHypothesis =>
    obtain ⟨_, leftNonempty, _, leftTail⟩ := leftCanonical
    cases right with
    | nil =>
      have := (same leftHead.lo).mp (by simp [Range.mem_iff, leftNonempty])
      simp at this
    | cons rightHead rightRest =>
      obtain ⟨_, rightNonempty, _, rightTail⟩ := rightCanonical
      simp only [covers_cons, Range.mem_iff] at same
      have inLeft := fun value => @bounds _ value _ leftTail
      have inRight := fun value => @bounds _ value _ rightTail
      have sameLo : leftHead.lo = rightHead.lo := by
        have := same leftHead.lo
        have := same rightHead.lo
        have := inLeft rightHead.lo
        have := inRight leftHead.lo
        grind
      have sameHi : leftHead.hi = rightHead.hi := by
        have := same (leftHead.hi + 1)
        have := same (rightHead.hi + 1)
        have := inLeft (rightHead.hi + 1)
        have := inRight (leftHead.hi + 1)
        have := inRight (rightHead.hi + 1)
        have := inLeft (leftHead.hi + 1)
        grind
      have heads : leftHead = rightHead := by
        cases leftHead
        cases rightHead
        simp_all
      subst heads
      refine congrArg (leftHead :: ·) (inductionHypothesis leftTail rightTail fun value => ?_)
      have := same value
      have := inLeft value
      have := inRight value
      grind

/-- Two canonical lists, the second of which starts after a gap behind the first, form one canonical
list. -/
theorem append {bound next : Int} {left right : List Range} (last : Int)
    (leftCanonical : CanonicalFrom bound left) (rightCanonical : CanonicalFrom next right)
    (ends : ∀ range ∈ left, range.hi ≤ last) (gap : last + 2 ≤ next) (le : bound ≤ next) :
    CanonicalFrom bound (left ++ right) := by
  induction left generalizing bound with
  | nil => exact rightCanonical.weaken le
  | cons head rest inductionHypothesis =>
    obtain ⟨start, nonempty, ceiling, tail⟩ := leftCanonical
    have headEnds := ends head (by simp)
    exact ⟨start, nonempty, ceiling,
      inductionHypothesis tail (fun range inside => ends range (by simp [inside])) (by omega)⟩

end CanonicalFrom

/-- Whether a canonical list covers the value, found without a look at the ranges behind it. -/
def reaches (value : Int) : List Range → Bool
  | [] => false
  | range :: rest => range.lo ≤ value && (value ≤ range.hi || reaches value rest)

/-- The early end of the search is right, since all further ranges of a canonical list are above the
value. -/
theorem reaches_iff {bound value : Int} {ranges : List Range}
    (canonical : CanonicalFrom bound ranges) : reaches value ranges ↔ Covers ranges value := by
  induction ranges generalizing bound with
  | nil => simp [reaches]
  | cons head rest inductionHypothesis =>
    obtain ⟨_, nonempty, _, tail⟩ := canonical
    have notLater : value < head.lo → ¬ Covers rest value := fun before =>
      tail.not_covers (by omega)
    rw [covers_cons, ← inductionHypothesis tail, Range.mem_iff]
    rw [← inductionHypothesis tail] at notLater
    simp only [reaches, Bool.and_eq_true, decide_eq_true_eq, Bool.or_eq_true]
    grind

/-- Adds the values of one range to a canonical list, joining the ranges it touches. -/
def insertRange (range : Range) : List Range → List Range
  | [] => [range]
  | head :: rest =>
    if range.hi + 1 < head.lo then range :: head :: rest
    else if head.hi + 1 < range.lo then head :: insertRange range rest
    else insertRange ⟨min range.lo head.lo, max range.hi head.hi⟩ rest

/-- Inserting a range adds just its values, whichever ranges it touches. -/
theorem covers_insertRange {bound value : Int} {range : Range} {ranges : List Range}
    (nonempty : range.lo ≤ range.hi) (canonical : CanonicalFrom bound ranges) :
    Covers (insertRange range ranges) value ↔ value ∈ range ∨ Covers ranges value := by
  induction ranges generalizing range bound with
  | nil => simp [insertRange]
  | cons head rest inductionHypothesis =>
    obtain ⟨_, headNonempty, _, tail⟩ := canonical
    rw [insertRange]
    split
    · simp
    · split
      · simp only [covers_cons, inductionHypothesis nonempty tail]
        grind
      · rw [inductionHypothesis (by simp only; omega) tail, covers_cons, ← or_assoc]
        refine or_congr_left ?_
        simp only [Range.mem_iff]
        omega

/-- It keeps the list canonical, as ranges that touch are joined. -/
theorem canonicalFrom_insertRange {bound : Int} {range : Range} {ranges : List Range}
    (start : bound ≤ range.lo) (nonempty : range.lo ≤ range.hi)
    (ceiling : range.hi ≤ valueCeiling) (canonical : CanonicalFrom bound ranges) :
    CanonicalFrom bound (insertRange range ranges) := by
  induction ranges generalizing range bound with
  | nil => exact ⟨start, nonempty, ceiling, trivial⟩
  | cons head rest inductionHypothesis =>
    obtain ⟨headStart, headNonempty, headCeiling, tail⟩ := canonical
    rw [insertRange]
    split
    · exact ⟨start, nonempty, ceiling, by omega, headNonempty, headCeiling, tail⟩
    · split
      · exact ⟨headStart, headNonempty, headCeiling,
          inductionHypothesis (by omega) nonempty ceiling tail⟩
      · exact inductionHypothesis (by simp only; omega) (by simp only; omega)
          (by simp only; omega) (tail.weaken (by omega))

/-- Whether every range starts where the one before it starts or later. -/
def startInOrder : List Range → Bool
  | first :: second :: rest => first.lo ≤ second.lo && startInOrder (second :: rest)
  | _ => true

/-- The ranges in the order in which they start. -/
def arranged (ranges : List Range) : List Range :=
  if startInOrder ranges then ranges else ranges.mergeSort fun left right => left.lo ≤ right.lo

/-- Arranging ranges leaves out none and adds none. -/
@[simp] theorem mem_arranged {range : Range} {ranges : List Range} :
    range ∈ arranged ranges ↔ range ∈ ranges := by
  rw [arranged]
  split
  · rfl
  · exact List.mem_mergeSort

/-- Adds what variables can take of a range to a canonical list. -/
def includeRange (ranges : List Range) (range : Range) : List Range :=
  match range.clamp? with
  | none => ranges
  | some part => insertRange part ranges

/-- What variables can take of the ranges, joined where it touches. The ranges are added from the
last one on, so that each one meets only the ranges it touches if they come in order. -/
def joined (ranges : List Range) : List Range :=
  ranges.reverse.foldl includeRange []

/-- A further range is included in what the others have come to. -/
theorem joined_cons (range : Range) (rest : List Range) :
    joined (range :: rest) = includeRange (joined rest) range := by
  simp [joined]

/-- Joined ranges are canonical, by inclusion of one after the other. -/
theorem canonicalFrom_joined (ranges : List Range) : CanonicalFrom valueFloor (joined ranges) := by
  induction ranges with
  | nil => trivial
  | cons head rest inductionHypothesis =>
    rw [joined_cons, includeRange]
    split
    · exact inductionHypothesis
    · rename_i part found
      obtain ⟨lo, hi, nonempty⟩ := Range.overlap?_eq_some_iff.mp found
      simp only at lo hi
      exact canonicalFrom_insertRange (by omega) nonempty (by omega) inductionHypothesis

/-- They have the values of all ranges that variables can take. -/
theorem covers_joined {value : Int} {ranges : List Range} :
    Covers (joined ranges) value ↔
      Covers ranges value ∧ valueFloor ≤ value ∧ value ≤ valueCeiling := by
  induction ranges with
  | nil => simp [joined]
  | cons head rest inductionHypothesis =>
    have clamped := @Range.exists_mem_overlap? value head ⟨valueFloor, valueCeiling⟩
    rw [@Range.mem_iff value ⟨valueFloor, valueCeiling⟩] at clamped
    rw [joined_cons, includeRange, covers_cons, or_and_right, ← clamped, ← inductionHypothesis]
    split
    · rename_i none
      rw [Range.clamp?] at none
      simp [none]
    · rename_i part found
      rw [covers_insertRange (Range.overlap?_eq_some_iff.mp found).2.2 (canonicalFrom_joined rest)]
      rw [Range.clamp?] at found
      simp [found]

/-- The canonical list with the values of arbitrary ranges, as far as variables can take them. The
ranges may overlap, come in any order, be inverted or lie out of bounds. -/
def canonicalRanges (ranges : List Range) : List Range :=
  joined (arranged ranges)

/-- Arbitrary ranges have a canonical list. -/
theorem canonicalFrom_canonicalRanges (ranges : List Range) :
    CanonicalFrom valueFloor (canonicalRanges ranges) :=
  canonicalFrom_joined _

/-- It has those of their values that variables can take. -/
theorem covers_canonicalRanges {value : Int} {ranges : List Range} :
    Covers (canonicalRanges ranges) value ↔
      Covers ranges value ∧ valueFloor ≤ value ∧ value ≤ valueCeiling := by
  rw [canonicalRanges, covers_joined]
  simp only [Covers, mem_arranged]

end ConstraintSearch
