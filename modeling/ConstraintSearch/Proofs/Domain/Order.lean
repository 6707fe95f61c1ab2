import ConstraintSearch.Domain.Size

/-!
# The order of domains

Domains are ordered by inclusion. This module says what the questions that are asked of a domain
mean for its members: `min?` and `max?` are its ends, `isEmpty` holds when it has no member, and
`solvedValue?` gives the only member there is.
-/

namespace ConstraintSearch

namespace CanonicalFrom

/-- The bounds of a canonical range are in order. -/
theorem lo_le_hi {bound : Int} {ranges : List Range} (canonical : CanonicalFrom bound ranges)
    {range : Range} (inside : range ∈ ranges) : range.lo ≤ range.hi := by
  induction ranges generalizing bound with
  | nil => simp at inside
  | cons head rest inductionHypothesis =>
    obtain ⟨_, nonempty, _, tail⟩ := canonical
    rcases List.mem_cons.mp inside with rfl | inRest
    · exact nonempty
    · exact inductionHypothesis tail inRest

/-- No value of a canonical list is behind its last range. -/
theorem le_getLast? {bound value : Int} {ranges : List Range} {last : Range}
    (canonical : CanonicalFrom bound ranges) (isLast : ranges.getLast? = some last)
    (covered : Covers ranges value) : value ≤ last.hi := by
  induction ranges generalizing bound with
  | nil => simp at isLast
  | cons head rest inductionHypothesis =>
    obtain ⟨_, _, _, tail⟩ := canonical
    cases rest with
    | nil =>
      obtain rfl : head = last := by simpa using isLast
      rcases covers_cons.mp covered with inHead | inRest
      · exact (Range.mem_iff.mp inHead).2
      · exact absurd inRest covers_nil
    | cons next others =>
      rw [List.getLast?_cons_cons] at isLast
      rcases covers_cons.mp covered with inHead | inRest
      · have lastInside := List.mem_of_getLast? isLast
        have := tail.le_lo lastInside
        have := tail.lo_le_hi lastInside
        have := Range.mem_iff.mp inHead
        omega
      · exact inductionHypothesis tail isLast inRest

end CanonicalFrom

namespace Domain

/-! ### Inclusion -/

instance : HasSubset Domain where
  Subset part whole := ∀ value, value ∈ part → value ∈ whole

/-- Inclusion is read off the values. -/
theorem subset_iff {part whole : Domain} : part ⊆ whole ↔ ∀ value, value ∈ part → value ∈ whole :=
  Iff.rfl

theorem Subset.refl (domain : Domain) : domain ⊆ domain :=
  fun _ member => member

theorem Subset.trans {first second third : Domain} (lower : first ⊆ second)
    (upper : second ⊆ third) : first ⊆ third :=
  fun value member => upper value (lower value member)

/-- Domains with the same values are equal. -/
theorem Subset.antisymm {left right : Domain} (forth : left ⊆ right) (back : right ⊆ left) :
    left = right := by
  ext value
  exact ⟨forth value, back value⟩

theorem inter_subset_left (left right : Domain) : left ∩ right ⊆ left :=
  fun _ member => (mem_inter.mp member).1

/-- The intersection leaves a domain as it is just when it is included. -/
theorem inter_eq_left_iff {left right : Domain} : left ∩ right = left ↔ left ⊆ right := by
  constructor
  · intro same value member
    rw [← same] at member
    exact (mem_inter.mp member).2
  · intro subset
    exact Subset.antisymm (inter_subset_left left right) fun value member =>
      mem_inter.mpr ⟨member, subset value member⟩

/-- A part that differs from the domain is smaller. -/
theorem size_lt_of_subset_of_ne {part whole : Domain} (subset : part ⊆ whole)
    (different : part ≠ whole) :
    part.size < whole.size :=
  Nat.lt_of_not_le fun large => different (eq_of_subset_of_size_le subset large)

/-! ### Members -/

/-- The domain has a member. -/
def Nonempty (domain : Domain) : Prop :=
  ∃ value, value ∈ domain

/-- A domain with a value has it in every larger one. -/
theorem Nonempty.of_subset {part whole : Domain} (nonempty : part.Nonempty)
    (subset : part ⊆ whole) : whole.Nonempty := by
  obtain ⟨value, member⟩ := nonempty
  exact ⟨value, subset value member⟩

theorem not_nonempty_empty : ¬ (∅ : Domain).Nonempty := by
  rintro ⟨value, member⟩
  exact not_mem_empty member

/-- The check for emptiness tells whether there is no value. -/
theorem isEmpty_iff {domain : Domain} : domain.isEmpty ↔ ∀ value, ¬ value ∈ domain := by
  rw [isEmpty, List.isEmpty_iff]
  constructor
  · intro none value member
    rw [mem_iff, none] at member
    exact covers_nil member
  · intro none
    cases shape : domain.ranges with
    | nil => rfl
    | cons head rest =>
      have nonempty := domain.canonical.lo_le_hi (shape ▸ List.mem_cons_self)
      refine absurd ?_ (none head.lo)
      rw [mem_iff, shape, covers_cons, Range.mem_iff]
      exact .inl ⟨Int.le_refl _, nonempty⟩

/-- It fails just when there is a value. -/
theorem isEmpty_eq_false_iff {domain : Domain} : domain.isEmpty = false ↔ domain.Nonempty := by
  rw [← Bool.not_eq_true, isEmpty_iff, Nonempty]
  exact Classical.not_forall_not

/-! ### Ends -/

/-- Only the empty domain has no least value. -/
theorem min?_eq_none_iff {domain : Domain} : domain.min? = none ↔ domain.isEmpty := by
  simp [min?, isEmpty]

/-- The first bound is the least value. -/
theorem min?_eq_some_iff {domain : Domain} {smallest : Int} :
    domain.min? = some smallest ↔ smallest ∈ domain ∧ ∀ value ∈ domain, smallest ≤ value := by
  have attained : ∀ {least}, domain.min? = some least →
      least ∈ domain ∧ ∀ value ∈ domain, least ≤ value := by
    intro least found
    have canonical := domain.canonical
    rw [min?] at found
    simp only [mem_iff]
    cases shape : domain.ranges with
    | nil => simp [shape] at found
    | cons head rest =>
      rw [shape] at canonical found
      obtain ⟨_, nonempty, _, tail⟩ := canonical
      obtain rfl : head.lo = least := by simpa using found
      refine ⟨covers_cons.mpr (.inl ⟨Int.le_refl _, nonempty⟩), fun value covered => ?_⟩
      rcases covers_cons.mp covered with inHead | inRest
      · exact (Range.mem_iff.mp inHead).1
      · have := tail.bounds inRest
        omega
  refine ⟨attained, fun ⟨member, least⟩ => ?_⟩
  cases found : domain.min? with
  | none =>
    have empty : domain.ranges = [] := by simpa [min?] using found
    rw [mem_iff, empty] at member
    exact absurd member covers_nil
  | some other =>
    obtain ⟨otherMember, otherLeast⟩ := attained found
    exact congrArg some (Int.le_antisymm (otherLeast _ member) (least _ otherMember))

/-- The last bound is the greatest value. -/
theorem max?_eq_some_iff {domain : Domain} {greatest : Int} :
    domain.max? = some greatest ↔ greatest ∈ domain ∧ ∀ value ∈ domain, value ≤ greatest := by
  have attained : ∀ {most}, domain.max? = some most →
      most ∈ domain ∧ ∀ value ∈ domain, value ≤ most := by
    intro most found
    obtain ⟨last, isLast, rfl⟩ := Option.map_eq_some_iff.mp found
    have inside := List.mem_of_getLast? isLast
    exact ⟨⟨last, inside, domain.canonical.lo_le_hi inside, Int.le_refl _⟩,
      fun value covered => domain.canonical.le_getLast? isLast covered⟩
  refine ⟨attained, fun ⟨member, most⟩ => ?_⟩
  cases found : domain.max? with
  | none =>
    have empty : domain.ranges = [] := by simpa [max?] using found
    rw [mem_iff, empty] at member
    exact absurd member covers_nil
  | some other =>
    obtain ⟨otherMember, otherMost⟩ := attained found
    exact congrArg some (Int.le_antisymm (most _ otherMember) (otherMost _ member))

/-- A domain with values has a least one. -/
theorem Nonempty.exists_min? {domain : Domain} (nonempty : domain.Nonempty) :
    ∃ smallest, domain.min? = some smallest := by
  obtain ⟨value, member⟩ := nonempty
  apply Option.ne_none_iff_exists'.mp
  intro missing
  exact isEmpty_iff.mp (min?_eq_none_iff.mp missing) value member

/-- It has a greatest one as well. -/
theorem Nonempty.exists_max? {domain : Domain} (nonempty : domain.Nonempty) :
    ∃ greatest, domain.max? = some greatest := by
  obtain ⟨value, member⟩ := nonempty
  apply Option.ne_none_iff_exists'.mp
  intro missing
  have empty : domain.ranges = [] := by simpa [max?] using missing
  rw [mem_iff, empty] at member
  exact covers_nil member

/-! ### The only member -/

/-- A domain is solved by a value just when it has that one and no other. -/
theorem solvedValue?_eq_some_iff {domain : Domain} {only : Int} :
    domain.solvedValue? = some only ↔ ∀ value, value ∈ domain ↔ value = only := by
  have solved : ∀ {single}, domain.solvedValue? = some single → ∀ value, value ∈ domain ↔
      value = single := by
    intro single found value
    rw [solvedValue?] at found
    split at found
    · rename_i range shape
      split at found
      · rename_i same
        obtain rfl : range.lo = single := by simpa using found
        simp only [mem_iff, shape, covers_cons, covers_nil, or_false, Range.mem_iff]
        omega
      · cases found
    · cases found
  refine ⟨solved, fun members => ?_⟩
  have only_of_min : domain.min? = some only := min?_eq_some_iff.mpr
    ⟨(members only).mpr rfl, fun value member => Int.le_of_eq ((members value).mp member).symm⟩
  have only_of_max : domain.max? = some only := max?_eq_some_iff.mpr
    ⟨(members only).mpr rfl, fun value member => Int.le_of_eq ((members value).mp member)⟩
  -- A second range would start behind the end of the first one, and both hold nothing but the only
  -- member.
  have canonical := domain.canonical
  rw [min?] at only_of_min
  rw [solvedValue?]
  cases shape : domain.ranges with
  | nil => simp [shape] at only_of_min
  | cons head rest =>
    rw [shape] at canonical only_of_min
    obtain ⟨_, nonempty, _, tail⟩ := canonical
    obtain rfl : head.lo = only := by simpa using only_of_min
    have hi_only : head.hi = head.lo := by
      apply (members head.hi).mp
      rw [mem_iff, shape, covers_cons, Range.mem_iff]
      exact .inl ⟨nonempty, Int.le_refl _⟩
    cases rest with
    | nil => simp [hi_only]
    | cons next others =>
      obtain ⟨start, nextNonempty, _, _⟩ := tail
      have next_only : next.lo = head.lo := by
        apply (members next.lo).mp
        rw [mem_iff, shape, covers_cons, covers_cons, Range.mem_iff, Range.mem_iff]
        exact .inr (.inl ⟨Int.le_refl _, nextNonempty⟩)
      omega

/-- The value that solves a domain is in it. -/
theorem mem_of_solvedValue? {domain : Domain} {only : Int}
    (solved : domain.solvedValue? = some only) :
    only ∈ domain :=
  (solvedValue?_eq_some_iff.mp solved only).mpr rfl

/-- A domain with one value left is the domain of that value. -/
theorem eq_value_of_solvedValue? {domain : Domain} {only : Int}
    (solved : domain.solvedValue? = some only) :
    domain = value only := by
  have members := solvedValue?_eq_some_iff.mp solved
  have inRange := bounds (mem_of_solvedValue? solved)
  ext other
  rw [members, mem_value]
  constructor
  · rintro rfl
    exact ⟨rfl, inRange⟩
  · exact And.left

/-- A nonempty part of a domain with one value left is the whole domain. -/
theorem eq_of_subset_of_solvedValue? {part whole : Domain} {only : Int} (nonempty : part.Nonempty)
    (subset : part ⊆ whole) (solved : whole.solvedValue? = some only) : part = whole := by
  have members := solvedValue?_eq_some_iff.mp solved
  obtain ⟨value, member⟩ := nonempty
  obtain rfl := (members value).mp (subset value member)
  apply Subset.antisymm subset
  intro other inWhole
  obtain rfl := (members other).mp inWhole
  exact member

/-- A domain is solved if some value solves it. -/
theorem isSolved_iff {domain : Domain} :
    domain.isSolved ↔ ∃ only, domain.solvedValue? = some only :=
  Option.isSome_iff_exists

/-- It is a value if that one solves it. -/
theorem isValue_iff {domain : Domain} {only : Int} :
    domain.isValue only ↔ domain.solvedValue? = some only := by
  rw [isValue, beq_iff_eq]

/-- A domain that is one value is no other. -/
theorem not_isValue_of_ne {domain : Domain} {only other : Int} (isOnly : domain.isValue only)
    (different : only ≠ other) : ¬ domain.isValue other := by
  rw [isValue_iff] at isOnly ⊢
  rw [isOnly, Option.some.injEq]
  exact different

/-- A domain that has a value and is not down to one value has another value beside each of its
values. -/
theorem exists_ne_of_not_isSolved {domain : Domain} {value : Int} (member : value ∈ domain)
    (unsolved : ¬ domain.isSolved) : ∃ other ∈ domain, other ≠ value := by
  refine Classical.not_forall_not.mp fun none => unsolved (isSolved_iff.mpr ⟨value, ?_⟩)
  refine solvedValue?_eq_some_iff.mpr fun other => ⟨fun inside => ?_, fun same => same ▸ member⟩
  exact Classical.not_not.mp fun different => none other ⟨inside, different⟩

/-- The domain of a value that variables can take is down to that value. -/
theorem solvedValue?_value {only : Int} (low : valueFloor ≤ only) (high : only ≤ valueCeiling) :
    (value only).solvedValue? = some only := by
  refine solvedValue?_eq_some_iff.mpr fun other => ?_
  rw [mem_value]
  constructor
  · exact And.left
  · rintro rfl
    exact ⟨rfl, low, high⟩

end Domain

end ConstraintSearch
