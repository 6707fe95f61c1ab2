import ConstraintSearch.Domain.Basic

/-!
# The size of a domain

The enumeration of a domain is strictly increasing and lists exactly its members, and its length is
the size. The main statement is that an intersection is never larger than its left operand, and
smaller unless it is equal: this is what makes every run of the propagators and every search end.
-/

namespace ConstraintSearch

/-- A strictly increasing list within another one is a sublist of it. -/
theorem sublist_of_increasing {left right : List Int} (leftIncreasing : left.Pairwise (· < ·))
    (rightIncreasing : right.Pairwise (· < ·)) (subset : left ⊆ right) : left.Sublist right := by
  induction right generalizing left with
  | nil => simp [List.subset_nil.mp subset]
  | cons head rest inductionHypothesis =>
    have restIncreasing := (List.pairwise_cons.mp rightIncreasing).2
    cases left with
    | nil => simp
    | cons first others =>
      have later := (List.pairwise_cons.mp leftIncreasing).1
      have othersIncreasing := (List.pairwise_cons.mp leftIncreasing).2
      by_cases same : first = head
      · subst same
        refine List.Sublist.cons_cons _ (inductionHypothesis othersIncreasing restIncreasing ?_)
        intro value inside
        have := later value inside
        rcases List.mem_cons.mp (subset (List.mem_cons_of_mem _ inside)) with rfl | inRest
        · omega
        · exact inRest
      · refine List.Sublist.cons _ (inductionHypothesis leftIncreasing restIncreasing ?_)
        have firstInRest : first ∈ rest := by
          rcases List.mem_cons.mp (subset List.mem_cons_self) with same' | inRest
          · exact absurd same' same
          · exact inRest
        have headBefore := (List.pairwise_cons.mp rightIncreasing).1 first firstInRest
        intro value inside
        rcases List.mem_cons.mp (subset inside) with rfl | inRest
        · rcases List.mem_cons.mp inside with rfl | inOthers
          · omega
          · have := later _ inOthers
            omega
        · exact inRest

namespace Domain

/-- A domain enumerates its values. -/
theorem mem_values {value : Int} {domain : Domain} : value ∈ domain.values ↔ value ∈ domain := by
  simp only [values, List.mem_flatMap, Range.mem_values, mem_iff, Covers]

/-- A canonical list of ranges is enumerated in strictly increasing order. -/
theorem pairwise_flatMap_values {bound : Int} {ranges : List Range}
    (canonical : CanonicalFrom bound ranges) :
    (ranges.flatMap Range.values).Pairwise (· < ·) := by
  induction ranges generalizing bound with
  | nil => simp
  | cons head rest inductionHypothesis =>
    obtain ⟨_, _, _, tail⟩ := canonical
    rw [List.flatMap_cons, List.pairwise_append]
    refine ⟨head.pairwise_values, inductionHypothesis tail, fun value inHead other inRest => ?_⟩
    have covered : Covers rest other := by
      simpa only [Covers, List.mem_flatMap, Range.mem_values] using inRest
    have := tail.bounds covered
    have := Range.mem_iff.mp (Range.mem_values.mp inHead)
    omega

/-- It does so in increasing order. -/
theorem pairwise_values (domain : Domain) : domain.values.Pairwise (· < ·) :=
  pairwise_flatMap_values domain.canonical

/-- It enumerates as many as its size tells. -/
theorem length_values (domain : Domain) : domain.values.length = domain.size := by
  simp only [values, size, length_flatMap_eq_total, Range.length_values]

/-- What is found at a position by the sizes of the ranges is what the enumeration has there. -/
theorem nthOfRanges?_eq_getElem? (ranges : List Range) (position : Nat) :
    nthOfRanges? ranges position = (ranges.flatMap Range.values)[position]? := by
  induction ranges generalizing position with
  | nil => rfl
  | cons head rest inductionHypothesis =>
    rw [nthOfRanges?, List.flatMap_cons, List.getElem?_append, Range.length_values,
      inductionHypothesis]
    split
    · rename_i early
      rw [Range.values, List.getElem?_map, List.getElem?_range early]
      rfl
    · rfl

/-- The middle value is the one at half the size. -/
theorem middle?_eq_getElem? (domain : Domain) : domain.middle? = domain.values[domain.size / 2]? :=
  nthOfRanges?_eq_getElem? domain.ranges (domain.size / 2)

/-- A domain is the set of the values it enumerates. -/
theorem eq_of_values_eq {left right : Domain} (same : left.values = right.values) :
    left = right := by
  ext value
  rw [← mem_values, ← mem_values, same]

/-- A part of a domain is never larger than the domain. -/
theorem size_le_of_subset {part whole : Domain} (subset : ∀ value, value ∈ part → value ∈ whole) :
    part.size ≤ whole.size := by
  rw [← length_values, ← length_values]
  exact (sublist_of_increasing part.pairwise_values whole.pairwise_values
    fun value inside => mem_values.mpr (subset value (mem_values.mp inside))).length_le

/-- A part as large as the domain is the domain. -/
theorem eq_of_subset_of_size_le {part whole : Domain}
    (subset : ∀ value, value ∈ part → value ∈ whole) (large : whole.size ≤ part.size) :
    part = whole := by
  rw [← length_values, ← length_values] at large
  exact eq_of_values_eq ((sublist_of_increasing part.pairwise_values whole.pairwise_values
    fun value inside => mem_values.mpr (subset value (mem_values.mp inside))).eq_of_length_le large)

/-- An intersection is no larger than either domain. -/
theorem size_inter_le (left right : Domain) : (left ∩ right).size ≤ left.size :=
  size_le_of_subset fun _ inside => (mem_inter.mp inside).1

/-- An intersection which differs from its left operand is smaller. -/
theorem size_inter_lt {left right : Domain} (changed : left ∩ right ≠ left) :
    (left ∩ right).size < left.size :=
  Nat.lt_of_not_le fun large =>
    changed (eq_of_subset_of_size_le (fun _ inside => (mem_inter.mp inside).1) large)

end Domain

end ConstraintSearch
