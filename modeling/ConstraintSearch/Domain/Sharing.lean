import ConstraintSearch.Domain.Canonical

/-!
# What two lists of ranges share

Two lists of ranges share the overlaps of their ranges. In canonical lists these are found on one
walk through both, since a range that ends first overlaps nothing that comes later in the other
list. The main statement is that the walk finds exactly the shared ranges.
-/

namespace ConstraintSearch

namespace CanonicalFrom

/-- What one range shares with a canonical list is canonical. -/
theorem filterMap_overlap? {bound : Int} {ranges : List Range}
    (canonical : CanonicalFrom bound ranges) (range : Range) :
    CanonicalFrom (max bound range.lo) (ranges.filterMap range.overlap?) := by
  induction ranges generalizing bound with
  | nil => trivial
  | cons head rest inductionHypothesis =>
    obtain ⟨start, nonempty, ceiling, tail⟩ := canonical
    have restCanonical := inductionHypothesis tail
    rw [List.filterMap_cons]
    split
    · exact restCanonical.weaken (by omega)
    · rename_i shared found
      obtain ⟨sharedLo, sharedHi, sharedNonempty⟩ := Range.overlap?_eq_some_iff.mp found
      exact ⟨by omega, sharedNonempty, by omega, restCanonical.weaken (by omega)⟩

end CanonicalFrom

/-- What two lists of ranges share, range by range. -/
def sharedRanges (left right : List Range) : List Range :=
  left.flatMap fun range => right.filterMap range.overlap?

/-- Shared ranges have the common values. -/
theorem covers_sharedRanges {value : Int} {left right : List Range} :
    Covers (sharedRanges left right) value ↔ Covers left value ∧ Covers right value := by
  simp only [Covers, sharedRanges, List.mem_flatMap, List.mem_filterMap]
  constructor
  · rintro ⟨shared, ⟨first, inLeft, second, inRight, overlap⟩, inside⟩
    have both := Range.exists_mem_overlap?.mp ⟨shared, overlap, inside⟩
    exact ⟨⟨first, inLeft, both.1⟩, second, inRight, both.2⟩
  · rintro ⟨⟨first, inLeft, inFirst⟩, second, inRight, inSecond⟩
    obtain ⟨shared, overlap, inside⟩ := Range.exists_mem_overlap?.mpr ⟨inFirst, inSecond⟩
    exact ⟨shared, ⟨first, inLeft, second, inRight, overlap⟩, inside⟩

/-- They are canonical as the ranges of the left list are, which they are parts of. -/
theorem canonicalFrom_sharedRanges {leftBound rightBound : Int} {left right : List Range}
    (leftCanonical : CanonicalFrom leftBound left)
    (rightCanonical : CanonicalFrom rightBound right) :
    CanonicalFrom leftBound (sharedRanges left right) := by
  induction left generalizing leftBound with
  | nil => trivial
  | cons head rest inductionHypothesis =>
    obtain ⟨start, nonempty, ceiling, tail⟩ := leftCanonical
    have headShared := (rightCanonical.filterMap_overlap? head).weaken
      (show leftBound ≤ max rightBound head.lo by omega)
    refine CanonicalFrom.append head.hi headShared (inductionHypothesis tail) ?_
      (by omega) (by omega)
    intro shared inside
    obtain ⟨other, _, overlap⟩ := List.mem_filterMap.mp inside
    have := (Range.overlap?_eq_some_iff.mp overlap).2.1
    omega

/-! ### Walking through both lists -/

/-- A walk through a list of ranges. -/
structure Walk where
  /-- The overlaps found so far, the latest one first. -/
  found : List Range
  /-- The ranges that may overlap something later. -/
  ahead : List Range

namespace Walk

/-- Goes on to the first range that ends behind the given one, and notes what overlaps that one on
the way. -/
def along (range : Range) (found : List Range) : (ahead : List Range) → Walk
  | [] => ⟨found, []⟩
  | next :: rest =>
    let found := (range.overlap? next).elim found (· :: found)
    if range.hi < next.hi then ⟨found, next :: rest⟩ else along range found rest

/-- Along one range, the walk finds its overlaps with those ahead. -/
theorem found_along {range : Range} {found ahead : List Range} {bound : Int}
    (canonical : CanonicalFrom bound ahead) :
    (along range found ahead).found = (ahead.filterMap range.overlap?).reverse ++ found := by
  induction ahead generalizing found bound with
  | nil => rfl
  | cons next rest inductionHypothesis =>
    obtain ⟨_, _, _, tail⟩ := canonical
    have noted : (range.overlap? next).elim found (· :: found) =
        (range.overlap? next).toList.reverse ++ found := by
      cases range.overlap? next <;> rfl
    have split : (next :: rest).filterMap range.overlap? =
        (range.overlap? next).toList ++ rest.filterMap range.overlap? := by
      rw [List.filterMap_cons]
      cases range.overlap? next <;> rfl
    rw [along]
    split
    · rename_i ends
      have noneLater : rest.filterMap range.overlap? = [] := by
        refine List.filterMap_eq_nil_iff.mpr fun later inside =>
          Option.eq_none_iff_forall_ne_some.mpr fun shared overlap => ?_
        have := Range.overlap?_eq_some_iff.mp overlap
        have := tail.le_lo inside
        omega
      rw [split, noneLater, List.append_nil]
      exact noted
    · rw [inductionHypothesis tail, noted, split, List.reverse_append, List.append_assoc]

/-- What is left behind overlaps nothing that starts later. -/
theorem filterMap_ahead_along {range later : Range} {found ahead : List Range}
    (behind : range.hi < later.lo) :
    (along range found ahead).ahead.filterMap later.overlap? = ahead.filterMap later.overlap? := by
  induction ahead generalizing found with
  | nil => rfl
  | cons next rest inductionHypothesis =>
    rw [along]
    split
    · rfl
    · rename_i ends
      have apart : later.overlap? next = none :=
        Option.eq_none_iff_forall_ne_some.mpr fun shared overlap => by
          have := Range.overlap?_eq_some_iff.mp overlap
          omega
      rw [inductionHypothesis, List.filterMap_cons_none apart]

/-- What is ahead of the walk stays canonical. -/
theorem canonicalFrom_ahead_along {range : Range} {found ahead : List Range} {bound : Int}
    (canonical : CanonicalFrom bound ahead) :
    CanonicalFrom bound (along range found ahead).ahead := by
  induction ahead generalizing found bound with
  | nil => trivial
  | cons next rest inductionHypothesis =>
    rw [along]
    split
    · exact canonical
    · obtain ⟨_, _, _, tail⟩ := canonical
      exact (inductionHypothesis tail).weaken (by omega)

end Walk

/-- What two canonical lists share, found in one walk through both. -/
def overlaps (left right : List Range) : List Range :=
  (left.foldl (fun walk range => .along range walk.found walk.ahead)
    (Walk.mk [] right)).found.reverse

/-- The whole walk finds the shared ranges, last ones first. No range that it has left behind meets
a later one. -/
theorem found_foldl_along {left : List Range} {walk : Walk} {leftBound rightBound : Int}
    (leftCanonical : CanonicalFrom leftBound left)
    (rightCanonical : CanonicalFrom rightBound walk.ahead) :
    (left.foldl (fun walk range => .along range walk.found walk.ahead) walk).found =
      (sharedRanges left walk.ahead).reverse ++ walk.found := by
  induction left generalizing walk leftBound rightBound with
  | nil => rfl
  | cons head rest inductionHypothesis =>
    obtain ⟨_, _, _, tail⟩ := leftCanonical
    have restShared : sharedRanges rest (Walk.along head walk.found walk.ahead).ahead =
        sharedRanges rest walk.ahead := by
      refine congrArg List.flatten (List.map_congr_left fun later inside =>
        Walk.filterMap_ahead_along ?_)
      have := tail.le_lo inside
      omega
    rw [List.foldl_cons, inductionHypothesis tail (Walk.canonicalFrom_ahead_along rightCanonical),
      restShared, Walk.found_along rightCanonical, sharedRanges, sharedRanges, List.flatMap_cons,
      List.reverse_append, List.append_assoc]

/-- The walk finds exactly the shared ranges. -/
theorem overlaps_eq_sharedRanges {left right : List Range} {leftBound rightBound : Int}
    (leftCanonical : CanonicalFrom leftBound left)
    (rightCanonical : CanonicalFrom rightBound right) :
    overlaps left right = sharedRanges left right := by
  rw [overlaps, found_foldl_along leftCanonical rightCanonical, List.append_nil,
    List.reverse_reverse]

end ConstraintSearch
