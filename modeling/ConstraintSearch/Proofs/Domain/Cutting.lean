import ConstraintSearch.Proofs.Domain.Lists

/-!
# Cutting, comparing and counting lists of ranges

Values are cut off a list of ranges range by range, two lists are walked through together to see
whether they share a value, and values are counted, all on plain lists and with words for the
numbers that are computed. The main statements are that no step slips on the list of a domain, and
that each operation gives what the operation on domains gives (`removeValue_eq`, `removeBelow_eq`,
`removeAbove_eq`, `meet_iff`, `count_eq`, `middle_eq`).
-/

namespace ConstraintSearch

/-- A range that is not inverted has as many values as there are between its bounds. -/
theorem Range.size_eq {range : Range} (nonempty : range.lo ≤ range.hi) :
    (range.size : Int) = range.hi - range.lo + 1 := by
  rw [size]
  omega

namespace RangeList

/-! ### Cutting values off -/

/-- The parts of each range form a canonical list of its values with a property. -/
def Narrows (parts : Range → List Range) (kept : Int → Prop) : Prop :=
  ∀ range : Range, range.Proper → Canonical (parts range) ∧ ∀ value, Covers (parts range) value ↔
    value ∈ range ∧ kept value

/-- A domain is narrowed range by range. -/
theorem flatMap_eq_ranges {parts : Range → List Range} {kept : Int → Prop}
    (narrows : Narrows parts kept) {domain narrowed : Domain}
    (members : ∀ value, value ∈ narrowed ↔ value ∈ domain ∧ kept value) :
    domain.ranges.flatMap parts = narrowed.ranges := by
  obtain ⟨proper, apart⟩ := domain.isCanonical
  have inside : ∀ range ∈ domain.ranges, ∀ part ∈ parts range,
      range.lo ≤ part.lo ∧ part.hi ≤ range.hi := by
    intro range inRanges part inParts
    obtain ⟨canonical, covers⟩ := narrows range (proper range inRanges)
    have nonempty := (canonical.proper part inParts).nonempty
    have lo := ((covers part.lo).mp ⟨part, inParts, Int.le_refl _, nonempty⟩).1
    have hi := ((covers part.hi).mp ⟨part, inParts, nonempty, Int.le_refl _⟩).1
    exact ⟨lo.1, hi.2⟩
  refine Canonical.eq_ranges ⟨?_, ?_⟩ fun value => ?_
  · intro part inList
    obtain ⟨range, inRanges, inParts⟩ := List.mem_flatMap.mp inList
    exact (narrows range (proper range inRanges)).1.proper part inParts
  · rw [List.pairwise_flatMap]
    refine ⟨fun range inRanges => (narrows range (proper range inRanges)).1.apart, ?_⟩
    -- Parts of two ranges are at least as far apart as the ranges.
    refine apart.imp_of_mem
      fun {earlier later} inEarlier inLater gap first inFirst second inSecond => ?_
    have := inside earlier inEarlier first inFirst
    have := inside later inLater second inSecond
    omega
  · rw [members, Domain.mem_iff]
    simp only [Covers, List.mem_flatMap]
    constructor
    · rintro ⟨part, ⟨range, inRanges, inParts⟩, member⟩
      obtain ⟨inRange, isKept⟩ :=
        ((narrows range (proper range inRanges)).2 value).mp ⟨part, inParts, member⟩
      exact ⟨⟨range, inRanges, inRange⟩, isKept⟩
    · rintro ⟨⟨range, inRanges, inRange⟩, isKept⟩
      obtain ⟨part, inParts, member⟩ :=
        ((narrows range (proper range inRanges)).2 value).mpr ⟨inRange, isKept⟩
      exact ⟨part, ⟨range, inRanges, inParts⟩, member⟩

/-- Keeping some ranges and cutting them leaves at most one part of each. -/
theorem map_filter_eq_flatMap (keep : Range → Bool) (cut : Range → Range) (ranges : List Range) :
    (ranges.filter keep).map cut = ranges.flatMap fun range =>
      if keep range then [cut range] else [] := by
  induction ranges with
  | nil => rfl
  | cons head rest inductionHypothesis =>
    rw [List.filter_cons, List.flatMap_cons, ← inductionHypothesis]
    split <;> rfl

/-- A domain is narrowed by passing over the ranges without a value to keep and cutting the
others. -/
theorem map_filter_eq_ranges {keep : Range → Bool} {cut : Range → Range} {kept : Int → Prop}
    (whole : ∀ range : Range, range.Proper → keep range →
      (cut range).Proper ∧ ∀ value, value ∈ cut range ↔ value ∈ range ∧ kept value)
    (passed : ∀ range, keep range = false → ∀ value ∈ range, ¬ kept value)
    {domain narrowed : Domain}
    (members : ∀ value, value ∈ narrowed ↔ value ∈ domain ∧ kept value) :
    (domain.ranges.filter keep).map cut = narrowed.ranges := by
  have narrows : Narrows (fun range => if keep range then [cut range] else []) kept := by
    intro range proper
    rw [← canonicalFrom_floor_iff]
    by_cases isKept : keep range
    · obtain ⟨⟨floor, nonempty, ceiling⟩, sameValues⟩ := whole range proper isKept
      simp only [isKept, if_true, covers_cons, covers_nil, or_false]
      exact ⟨⟨floor, nonempty, ceiling, trivial⟩, sameValues⟩
    · simp only [isKept, Bool.false_eq_true, if_false]
      refine ⟨trivial, fun value => iff_of_false covers_nil ?_⟩
      rintro ⟨inRange, wanted⟩
      exact passed range (Bool.eq_false_iff.mpr isKept) value inRange wanted
  rw [map_filter_eq_flatMap]
  exact flatMap_eq_ranges narrows members

/-- The parts of a range before and behind a value, or the range if it does not hold the value. -/
def partsAround (value : Int) (range : Range) : List Range :=
  if value < range.lo ∨ range.hi < value then
    [range]
  else
    (if range.lo < value then [⟨range.lo, value - 1⟩] else []) ++
      (if value < range.hi then [⟨value + 1, range.hi⟩] else [])

/-- The parts of a range around a value, whose new bounds are to fit their word. -/
def split (value : Int) (range : Range) : Except Slip (List Range) :=
  if value < range.lo ∨ range.hi < value then
    return [range]
  else do
    let below ← if range.lo < value then (Word.int32.hold (value - 1)).map fun hi =>
        [⟨range.lo, hi⟩] else .ok []
    let above ← if value < range.hi then (Word.int32.hold (value + 1)).map fun lo =>
        [⟨lo, range.hi⟩] else .ok []
    return below ++ above

/-- The list without a value. -/
def removeValue (value : Int) (ranges : List Range) : Except Slip (List Range) :=
  if holds value ranges then ranges.flatMapM (split value) else return ranges

/-- The list without the values below a bound. -/
def removeBelow (bound : Int) (ranges : List Range) : List Range :=
  (ranges.filter fun range => bound ≤ range.hi).map fun range => ⟨max range.lo bound, range.hi⟩

/-- The list without the values above a bound. -/
def removeAbove (bound : Int) (ranges : List Range) : List Range :=
  (ranges.filter fun range => range.lo ≤ bound).map fun range => ⟨range.lo, min range.hi bound⟩

/-- A proper range is split without a slip. -/
theorem split_eq {value : Int} {range : Range} (proper : range.Proper) :
    split value range = .ok (partsAround value range) := by
  have := proper.limits
  rw [split, partsAround]
  split
  · rfl
  · have below : Word.int32.hold (value - 1) = .ok (value - 1) :=
      Word.hold_of_fits (Word.fits_int32.mpr (by omega))
    have above : Word.int32.hold (value + 1) = .ok (value + 1) :=
      Word.hold_of_fits (Word.fits_int32.mpr (by omega))
    rw [below, above]
    split <;> split <;> rfl

/-- The parts around a value have all values but that one. -/
theorem narrows_partsAround (value : Int) : Narrows (partsAround value) (· ≠ value) := by
  intro range proper
  obtain ⟨floor, nonempty, ceiling⟩ := proper
  rw [partsAround, ← canonicalFrom_floor_iff]
  split
  · refine ⟨⟨floor, nonempty, ceiling, trivial⟩, fun other => ?_⟩
    simp only [covers_cons, covers_nil, or_false, Range.mem_iff]
    omega
  · refine ⟨?_, fun other => ?_⟩
    · split <;> split <;> simp only [List.nil_append, List.cons_append, CanonicalFrom, and_true] <;>
        omega
    · split <;> split <;>
        simp only [List.nil_append, List.cons_append, covers_cons, covers_nil, or_false, false_iff,
          Range.mem_iff] <;> omega

/-- Removing a value does not slip. -/
theorem removeValue_eq (value : Int) (domain : Domain) :
    removeValue value domain.ranges = .ok (domain.removeValue value).ranges := by
  rw [removeValue]
  split
  · have parts : domain.ranges.flatMapM (split value) =
        .ok (domain.ranges.flatMap (partsAround value)) :=
      flatMapM_eq_ok fun range inside => split_eq (domain.isCanonical.proper range inside)
    rw [parts, flatMap_eq_ranges (narrows_partsAround value) fun _ => Domain.mem_removeValue]
  · rename_i missing
    rw [holds_iff domain.isCanonical] at missing
    refine congrArg Except.ok (Canonical.eq_ranges domain.isCanonical fun other => ?_)
    rw [Domain.mem_removeValue, ← Domain.mem_iff]
    refine ⟨fun member => ⟨member, ?_⟩, And.left⟩
    rintro rfl
    exact missing member

/-- Removing the values below a bound from the list is what it is for domains. -/
theorem removeBelow_eq (bound : Int) (domain : Domain) :
    removeBelow bound domain.ranges = (domain.removeBelow bound).ranges := by
  refine map_filter_eq_ranges ?_ ?_ fun _ => Domain.mem_removeBelow
  · rintro range ⟨floor, nonempty, ceiling⟩ reaches
    have reaches : bound ≤ range.hi := of_decide_eq_true reaches
    refine ⟨⟨Int.le_trans floor (Int.le_max_left _ _), Int.max_le.mpr ⟨nonempty, reaches⟩, ceiling⟩,
      fun value => ?_⟩
    simp only [Range.mem_iff]
    omega
  · intro range missed value inRange above
    exact of_decide_eq_false missed (Int.le_trans above inRange.2)

/-- So is removing those above one. -/
theorem removeAbove_eq (bound : Int) (domain : Domain) :
    removeAbove bound domain.ranges = (domain.removeAbove bound).ranges := by
  refine map_filter_eq_ranges ?_ ?_ fun _ => Domain.mem_removeAbove
  · rintro range ⟨floor, nonempty, ceiling⟩ starts
    have starts : range.lo ≤ bound := of_decide_eq_true starts
    refine ⟨⟨floor, Int.le_min.mpr ⟨nonempty, starts⟩, Int.le_trans (Int.min_le_left _ _) ceiling⟩,
      fun value => ?_⟩
    simp only [Range.mem_iff]
    omega
  · intro range missed value inRange below
    exact of_decide_eq_false missed (Int.le_trans inRange.1 below)

/-! ### Walking through two lists -/

/-- Whether two lists of ranges share a value. Of two ranges that do not overlap the one that ends
first is passed, and the right one if they end together. -/
def meet : List Range → List Range → Bool
  | first :: left, second :: right =>
    if max first.lo second.lo ≤ min first.hi second.hi then true
    else if first.hi < second.hi then meet left (second :: right)
    else meet (first :: left) right
  | _, _ => false
termination_by left right => left.length + right.length

/-- A canonical list covers nothing before its first range. -/
theorem lo_le_of_covers {bound value : Int} {first : Range} {rest : List Range}
    (canonical : CanonicalFrom bound (first :: rest)) (covered : Covers (first :: rest) value) :
    first.lo ≤ value := by
  have fromFirst : CanonicalFrom first.lo (first :: rest) := ⟨Int.le_refl _, canonical.2⟩
  exact (fromFirst.bounds covered).1

/-- Walking through two canonical lists finds out whether they share a value. -/
theorem meet_iff {left right : List Range} {leftBound rightBound : Int}
    (leftCanonical : CanonicalFrom leftBound left)
    (rightCanonical : CanonicalFrom rightBound right) :
    meet left right ↔ ∃ value, Covers left value ∧ Covers right value := by
  revert leftBound rightBound
  refine meet.induct_unfolding
    (motive := fun left right found => ∀ {leftBound rightBound : Int},
      CanonicalFrom leftBound left → CanonicalFrom rightBound right →
        (found ↔ ∃ value, Covers left value ∧ Covers right value))
    ?overlapping ?passLeft ?passRight ?ended left right
  case overlapping =>
    intro first left second right overlap leftBound rightBound _ _
    refine iff_of_true rfl
      ⟨max first.lo second.lo, covers_cons.mpr (.inl ?_), covers_cons.mpr (.inl ?_)⟩
    · exact Range.mem_iff.mpr (by omega)
    · exact Range.mem_iff.mpr (by omega)
  case passLeft =>
    intro first left second right apart endsFirst inductionHypothesis leftBound rightBound
      leftCanonical rightCanonical
    -- The right list starts behind the first range.
    obtain ⟨_, nonempty, _, tail⟩ := leftCanonical
    rw [inductionHypothesis tail rightCanonical]
    refine exists_congr fun value => and_congr_left fun inRight => ?_
    have := lo_le_of_covers rightCanonical inRight
    rw [covers_cons, Range.mem_iff]
    exact (or_iff_right (by omega)).symm
  case passRight =>
    intro first left second right apart endsLater inductionHypothesis leftBound rightBound
      leftCanonical rightCanonical
    obtain ⟨_, nonempty, _, tail⟩ := rightCanonical
    rw [inductionHypothesis leftCanonical tail]
    refine exists_congr fun value => and_congr_right fun inLeft => ?_
    have := lo_le_of_covers leftCanonical inLeft
    rw [covers_cons, Range.mem_iff]
    exact (or_iff_right (by omega)).symm
  case ended =>
    intro left right missing leftBound rightBound _ _
    refine iff_of_false Bool.false_ne_true ?_
    rintro ⟨value, inLeft, inRight⟩
    cases left with
    | nil => exact covers_nil inLeft
    | cons first left =>
      cases right with
      | nil => exact covers_nil inRight
      | cons second right => exact missing first left second right rfl rfl

/-! ### Counting values -/

/-- The number of values of a range. -/
def countRange (range : Range) : Except Slip Int := do
  let distance ← Word.int64.hold (range.hi - range.lo)
  Word.nat64.hold (← Word.int64.hold (distance + 1))

/-- The number of values of a list. -/
def count (ranges : List Range) : Except Slip Int :=
  ranges.foldlM (fun sum range => do Word.nat64.hold (sum + (← countRange range))) 0

/-- The value at a position, if there are so many. -/
def nth (position : Int) : List Range → Except Slip (Option Int)
  | [] => return none
  | range :: rest => do
    let size ← countRange range
    if position < size then
      return some (← Word.int32.hold (range.lo + (← Word.int32.hold position)))
    else
      nth (← Word.nat64.hold (position - size)) rest

/-- The value at half the number of values. -/
def middle (ranges : List Range) : Except Slip (Option Int) := do
  nth (← Word.nat64.divide (← count ranges) 2) ranges

/-- The values of a proper range are counted without a slip. -/
theorem countRange_eq {range : Range} (proper : range.Proper) :
    countRange range = .ok range.size := by
  have := proper.limits
  have distance : Word.int64.hold (range.hi - range.lo) = .ok (range.hi - range.lo) :=
    Word.hold_of_fits (Word.fits_int64.mpr (by omega))
  have size : Word.int64.hold (range.hi - range.lo + 1) = .ok (range.hi - range.lo + 1) :=
    Word.hold_of_fits (Word.fits_int64.mpr (by omega))
  rw [countRange, bind_of_passed distance, bind_of_passed size, Range.size_eq proper.nonempty]
  exact Word.hold_of_fits (Word.fits_nat64.mpr (by omega))

/-- The values of the ranges are added up without one, as long as their number fits. -/
theorem foldlM_count {sum : Int} {ranges : List Range} (proper : ∀ range ∈ ranges, range.Proper)
    (notNegative : 0 ≤ sum) (fits : Word.nat64.Fits (sum + total Range.size ranges)) :
    ranges.foldlM (fun sum range => do Word.nat64.hold (sum + (← countRange range))) sum =
      .ok (sum + total Range.size ranges) := by
  induction ranges generalizing sum with
  | nil => exact congrArg Except.ok (Int.add_zero sum).symm
  | cons head rest inductionHypothesis =>
    have sameTotal : sum + total Range.size (head :: rest) =
        sum + head.size + total Range.size rest := by
      rw [total_cons]
      omega
    rw [sameTotal] at fits ⊢
    have limits := Word.fits_nat64.mp fits
    have sumFits : Word.nat64.hold (sum + head.size) = .ok (sum + head.size) :=
      Word.hold_of_fits (Word.fits_nat64.mpr (by omega))
    rw [List.foldlM_cons, bind_of_passed (countRange_eq (proper head List.mem_cons_self)),
      bind_of_passed sumFits]
    exact inductionHypothesis (fun range inside => proper range (List.mem_cons_of_mem _ inside))
      (by omega) fits

/-- A canonical list has no more values than there are from its bound on. -/
theorem total_size_le {bound : Int} {ranges : List Range} (canonical : CanonicalFrom bound ranges) :
    total Range.size ranges ≤ max 0 (valueCeiling + 1 - bound) := by
  induction ranges generalizing bound with
  | nil => exact Int.le_max_left _ _
  | cons head rest inductionHypothesis =>
    obtain ⟨start, nonempty, ceiling, tail⟩ := canonical
    have := inductionHypothesis tail
    have := Range.size_eq nonempty
    rw [total_cons]
    omega

/-- The number of values of a domain always does. -/
theorem fits_size (domain : Domain) : Word.nat64.Fits domain.size := by
  have floor : valueFloor = 0 := rfl
  have ceiling : valueCeiling = 100000000 := rfl
  have := total_size_le domain.canonical
  rw [Domain.size]
  exact Word.fits_nat64.mpr (by omega)

/-- Counting values does not slip. -/
theorem count_eq (domain : Domain) : count domain.ranges = .ok domain.size := by
  have fits : Word.nat64.Fits (0 + domain.size) := (Int.zero_add _).symm ▸ fits_size domain
  rw [count, foldlM_count domain.isCanonical.proper (Int.le_refl 0) fits, Int.zero_add]
  rfl

/-- The value at a position is found range by range, where the position only falls. -/
theorem nth_eq {position : Nat} {ranges : List Range} (proper : ∀ range ∈ ranges, range.Proper)
    (fits : Word.nat64.Fits position) :
    nth position ranges = .ok (Domain.nthOfRanges? ranges position) := by
  have counts := Word.fits_nat64.mp fits
  induction ranges generalizing position with
  | nil => rfl
  | cons head rest inductionHypothesis =>
    have headProper := proper head List.mem_cons_self
    have limits := headProper.limits
    have isSize := Range.size_eq headProper.nonempty
    rw [nth, Domain.nthOfRanges?, bind_of_passed (countRange_eq headProper)]
    by_cases early : position < head.size
    · have offset : Word.int32.hold position = .ok (position : Int) :=
        Word.hold_of_fits (Word.fits_int32.mpr (by omega))
      have value : Word.int32.hold (head.lo + position) = .ok (head.lo + position) :=
        Word.hold_of_fits (Word.fits_int32.mpr (by omega))
      rw [if_pos (Int.ofNat_lt.mpr early), if_pos early, bind_of_passed offset,
        bind_of_passed value]
      rfl
    · have left : (position : Int) - head.size = (position - head.size : Nat) := by omega
      have leftFits : Word.nat64.Fits (position - head.size : Nat) := Word.fits_nat64.mpr (by omega)
      rw [if_neg (by omega), if_neg early, left, bind_of_passed (Word.hold_of_fits leftFits)]
      exact inductionHypothesis (fun range inside => proper range (List.mem_cons_of_mem _ inside))
        leftFits (Word.fits_nat64.mp leftFits)

/-- Finding the middle value does not slip. -/
theorem middle_eq (domain : Domain) : middle domain.ranges = .ok domain.middle? := by
  have limits := Word.fits_nat64.mp (fits_size domain)
  have half : Word.nat64.divide domain.size 2 = .ok (domain.size / 2 : Nat) :=
    Word.divide_of_fits (fits_size domain) (Int.le_refl 0) limits.1 (by omega)
  have fits : Word.nat64.Fits (domain.size / 2 : Nat) := Word.fits_nat64.mpr (by omega)
  rw [middle, bind_of_passed (count_eq domain), bind_of_passed half]
  exact nth_eq domain.isCanonical.proper fits

end RangeList

end ConstraintSearch
