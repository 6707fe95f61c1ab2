import ConstraintSearch.Proofs.Domain.Order
import ConstraintSearch.Proofs.Domain.Words

/-!
# Domains as plain lists of ranges

A domain is kept as a canonical list of ranges. Here the list is looked at without what the type of
domains says of it: what it is for a list to be canonical, how a value is looked up in it by
halving, and how arbitrary ranges are arranged and merged into it from the first one on. Every
number that is computed has a word to fit (`Word.hold`). The main statements are that the lookup
finds exactly the values of a canonical list (`holds_iff`), and that merging does not slip and gives
the list of the domain with these ranges (`normalize_eq`).
-/

namespace ConstraintSearch

/-! ### Canonical lists -/

/-- A range with a value, and with none that variables cannot take. -/
structure Range.Proper (range : Range) : Prop where
  floor : valueFloor ≤ range.lo
  nonempty : range.lo ≤ range.hi
  ceiling : range.hi ≤ valueCeiling

/-- A range is proper if its bounds are supported and in order. -/
theorem Range.proper_iff {range : Range} :
    range.Proper ↔ valueFloor ≤ range.lo ∧ range.lo ≤ range.hi ∧ range.hi ≤ valueCeiling :=
  ⟨fun ⟨floor, nonempty, ceiling⟩ => ⟨floor, nonempty, ceiling⟩, fun ⟨floor, nonempty, ceiling⟩ =>
    ⟨floor, nonempty, ceiling⟩⟩

/-- The bounds of a proper range, in numbers. -/
theorem Range.Proper.limits {range : Range} (proper : range.Proper) :
    0 ≤ range.lo ∧ range.lo ≤ range.hi ∧ range.hi ≤ 100000000 :=
  ⟨proper.floor, proper.nonempty, proper.ceiling⟩

/-- A list of ranges in canonical form: each range is proper, they come in increasing order, and
between two of them at least one value is missing. -/
structure Canonical (ranges : List Range) : Prop where
  proper : ∀ range ∈ ranges, range.Proper
  apart : ranges.Pairwise fun earlier later => earlier.hi + 1 < later.lo

/-- A list is canonical from a bound on if its ranges are, and no two of them touch. -/
theorem canonicalFrom_iff {bound : Int} {ranges : List Range} :
    CanonicalFrom bound ranges ↔
      (∀ range ∈ ranges, bound ≤ range.lo ∧ range.lo ≤ range.hi ∧ range.hi ≤ valueCeiling) ∧
        ranges.Pairwise fun earlier later => earlier.hi + 1 < later.lo := by
  induction ranges generalizing bound with
  | nil => simp [CanonicalFrom]
  | cons head rest inductionHypothesis =>
    rw [CanonicalFrom, inductionHypothesis, List.forall_mem_cons, List.pairwise_cons]
    constructor
    · rintro ⟨start, nonempty, ceiling, within, apart⟩
      refine ⟨⟨⟨start, nonempty, ceiling⟩, fun range inside => ?_⟩, fun range inside => ?_, apart⟩
      · have := within range inside
        omega
      · have := within range inside
        omega
    · rintro ⟨⟨⟨start, nonempty, ceiling⟩, within⟩, behind, apart⟩
      refine ⟨start, nonempty, ceiling, fun range inside => ?_, apart⟩
      have := within range inside
      have := behind range inside
      omega

/-- From the least supported value on, every canonical list is. -/
theorem canonicalFrom_floor_iff {ranges : List Range} :
    CanonicalFrom valueFloor ranges ↔ Canonical ranges := by
  simp only [canonicalFrom_iff, ← Range.proper_iff]
  exact ⟨fun ⟨proper, apart⟩ => ⟨proper, apart⟩, fun ⟨proper, apart⟩ => ⟨proper, apart⟩⟩

/-- The ranges of a domain are canonical. -/
theorem Domain.isCanonical (domain : Domain) : Canonical domain.ranges :=
  canonicalFrom_floor_iff.mp domain.canonical

namespace Canonical

/-- A canonical list that covers the values of a domain is the list of that domain. -/
theorem eq_ranges {ranges : List Range} {domain : Domain} (canonical : Canonical ranges)
    (same : ∀ value, Covers ranges value ↔ value ∈ domain) : ranges = domain.ranges :=
  (canonicalFrom_floor_iff.mpr canonical).eq_of_covers_iff domain.canonical same

/-- Ranges are in order by their places. -/
theorem apart_getElem {ranges : List Range} (canonical : Canonical ranges) {earlier later : Nat}
    (order : earlier < later) (inside : later < ranges.length) :
    ranges[earlier].hi + 1 < ranges[later].lo :=
  List.pairwise_iff_getElem.mp canonical.apart earlier later (by omega) inside order

end Canonical

/-! ### Looking a value up -/

namespace RangeList

/-- A range of the list between two places that holds the value, looked for by halving what is
between them. -/
def seek (value : Int) (ranges : List Range) (start stop : Nat) (inside : stop ≤ ranges.length) :
    Option Nat :=
  if _ : start < stop then
    let middle := start + (stop - start) / 2
    if ranges[middle].hi < value then seek value ranges (middle + 1) stop inside
    else if value < ranges[middle].lo then seek value ranges start middle (by omega)
    else some middle
  else
    none
termination_by stop - start

/-- Whether some range of the list holds the value. -/
def holds (value : Int) (ranges : List Range) : Bool :=
  (seek value ranges 0 ranges.length (Nat.le_refl _)).isSome

/-- Looking the value up between two places comes to the result: it goes on behind the middle range
or before it, ends there, or there is nothing left between the places. -/
inductive Seeks (value : Int) (ranges : List Range) : (start stop : Nat) → Option Nat → Prop
  | behind {start stop : Nat} {result : Option Nat}
      (inside : start + (stop - start) / 2 < ranges.length)
    (order : start < stop) (ends : ranges[start + (stop - start) / 2].hi < value)
    (later : Seeks value ranges (start + (stop - start) / 2 + 1) stop result) :
    Seeks value ranges start stop result
  | before {start stop : Nat} {result : Option Nat}
      (inside : start + (stop - start) / 2 < ranges.length)
    (order : start < stop) (starts : value < ranges[start + (stop - start) / 2].lo)
    (later : Seeks value ranges start (start + (stop - start) / 2) result) :
    Seeks value ranges start stop result
  | here {start stop : Nat} (inside : start + (stop - start) / 2 < ranges.length)
    (holder : value ∈ ranges[start + (stop - start) / 2]) :
    Seeks value ranges start stop (some (start + (stop - start) / 2))
  | nowhere {start stop : Nat} (order : stop ≤ start) : Seeks value ranges start stop none

/-- Every lookup goes one of these ways. -/
theorem seeks (value : Int) (ranges : List Range) (start stop : Nat)
    (inside : stop ≤ ranges.length) :
    Seeks value ranges start stop (seek value ranges start stop inside) := by
  refine seek.induct_unfolding value ranges
    (motive := fun start stop _ => Seeks value ranges start stop)
    ?behind ?before ?here ?nowhere start stop inside
  case behind =>
    intro start stop inside order middle ends later
    exact .behind (by omega) order ends later
  case before =>
    intro start stop inside order middle _ starts later
    exact .before (by omega) order starts later
  case here =>
    intro start stop inside order middle notBehind notBefore
    exact .here (by omega) ⟨Int.not_lt.mp notBefore, Int.not_lt.mp notBehind⟩
  case nowhere =>
    intro start stop inside order
    exact .nowhere (Nat.not_lt.mp order)

/-- What is found holds the value, whatever the list. -/
theorem mem_of_seek {value : Int} {ranges : List Range} {start stop place : Nat}
    {inside : stop ≤ ranges.length} (found : seek value ranges start stop inside = some place) :
    ∃ placed : place < ranges.length, value ∈ ranges[place] := by
  have sought := seeks value ranges start stop inside
  rw [found] at sought
  generalize isPlace : some place = result at sought
  clear found inside
  induction sought with
  | behind _ order ends later inductionHypothesis => exact inductionHypothesis isPlace
  | before _ order starts later inductionHypothesis => exact inductionHypothesis isPlace
  | here placed holder =>
    cases isPlace
    exact ⟨placed, holder⟩
  | nowhere order => cases isPlace

/-- In a canonical list a range that holds the value is not passed over. -/
theorem isSome_seek {value : Int} {ranges : List Range} (canonical : Canonical ranges)
    {start stop place : Nat} {inside : stop ≤ ranges.length} (placed : place < ranges.length)
    (holder : value ∈ ranges[place]) (after : start ≤ place) (before : place < stop) :
    (seek value ranges start stop inside).isSome := by
  have inHolder := Range.mem_iff.mp holder
  have sought := seeks value ranges start stop inside
  generalize seek value ranges start stop inside = result at sought ⊢
  clear inside
  induction sought with
  | @behind start stop result middleInside order ends later inductionHypothesis =>
    -- The holder is not the middle range, and one before that would end before it starts.
    refine inductionHypothesis ?_ before
    rcases Nat.lt_trichotomy place (start + (stop - start) / 2) with less | rfl | greater
    · have := canonical.apart_getElem less middleInside
      have := (canonical.proper _ (List.getElem_mem middleInside)).nonempty
      omega
    · omega
    · omega
  | @before start stop result middleInside order starts later inductionHypothesis =>
    refine inductionHypothesis after ?_
    rcases Nat.lt_trichotomy place (start + (stop - start) / 2) with less | rfl | greater
    · exact less
    · omega
    · have := canonical.apart_getElem greater placed
      have := (canonical.proper _ (List.getElem_mem middleInside)).nonempty
      omega
  | here middleInside holder => rfl
  | nowhere order => omega

/-- A value is found in a canonical list just if a range covers it. -/
theorem holds_iff {value : Int} {ranges : List Range} (canonical : Canonical ranges) :
    holds value ranges ↔ Covers ranges value := by
  constructor
  · intro found
    obtain ⟨place, isPlace⟩ := Option.isSome_iff_exists.mp found
    obtain ⟨placed, holder⟩ := mem_of_seek isPlace
    exact ⟨ranges[place], List.getElem_mem placed, holder⟩
  · rintro ⟨range, inRanges, holder⟩
    obtain ⟨place, placed, rfl⟩ := List.getElem_of_mem inRanges
    exact isSome_seek canonical placed holder (Nat.zero_le _) placed

/-! ### Arranging and merging -/

/-- What variables can take of a range. -/
def clamp (range : Range) : Except Slip (Option Range) :=
  let lo := max range.lo valueFloor
  let hi := min range.hi valueCeiling
  if lo ≤ hi then do
    return some ⟨← Word.int32.hold lo, ← Word.int32.hold hi⟩
  else
    return none

/-- The order of ranges by their starts, and of those with the same start by their ends. -/
def startsUpTo (left right : Range) : Bool :=
  left.lo < right.lo || left.lo = right.lo && left.hi ≤ right.hi

/-- Merges arranged ranges into the last one: those that start in it or right behind it become a
part of it, and the first one that does not is the last one from there on. -/
def mergeInto (last : Range) : List Range → Except Slip (List Range)
  | [] => return [last]
  | next :: rest => do
    let behind ← Word.int64.hold (last.hi + 1)
    if next.lo ≤ behind then
      mergeInto ⟨last.lo, max last.hi next.hi⟩ rest
    else
      return last :: (← mergeInto next rest)

/-- Merges arranged ranges where they touch. -/
def merge : List Range → Except Slip (List Range)
  | [] => return []
  | first :: rest => mergeInto first rest

/-- The values of arbitrary ranges, as far as variables can take them. -/
def normalize (ranges : List Range) : Except Slip (List Range) := do
  let clamped ← ranges.filterMapM clamp
  merge (clamped.mergeSort startsUpTo)

/-- Cutting a range down to the supported values does not slip. -/
theorem clamp_eq (range : Range) : clamp range = .ok range.clamp? := by
  have floor : valueFloor = 0 := rfl
  have ceiling : valueCeiling = 100000000 := rfl
  rw [clamp, Range.clamp?, Range.overlap?]
  split
  · have lo : Word.int32.hold (max range.lo valueFloor) = .ok (max range.lo valueFloor) :=
      Word.hold_of_fits (Word.fits_int32.mpr (by omega))
    have hi : Word.int32.hold (min range.hi valueCeiling) = .ok (min range.hi valueCeiling) :=
      Word.hold_of_fits (Word.fits_int32.mpr (by omega))
    rw [bind_of_passed lo, bind_of_passed hi]
    rfl
  · rfl

/-- Arranged ranges merge into a canonical list of the same values, which starts where they do. -/
theorem exists_mergeInto {last : Range} {ranges : List Range} (lastProper : last.Proper)
    (proper : ∀ range ∈ ranges, range.Proper)
    (arranged : (last :: ranges).Pairwise fun left right => left.lo ≤ right.lo) :
    ∃ merged, mergeInto last ranges = .ok merged ∧ CanonicalFrom last.lo merged ∧
      ∀ value, Covers merged value ↔ Covers (last :: ranges) value := by
  induction ranges generalizing last with
  | nil =>
    exact ⟨[last], rfl, ⟨Int.le_refl _, lastProper.nonempty, lastProper.ceiling, trivial⟩,
      fun _ => Iff.rfl⟩
  | cons next rest inductionHypothesis =>
    obtain ⟨lastBefore, nextArranged⟩ := List.pairwise_cons.mp arranged
    have ordered := lastBefore next List.mem_cons_self
    have lastLimits := lastProper.limits
    have nextProper := proper next List.mem_cons_self
    have nextLimits := nextProper.limits
    have restProper := fun range inside => proper range (List.mem_cons_of_mem _ inside)
    have behind : Word.int64.hold (last.hi + 1) = .ok (last.hi + 1) :=
      Word.hold_of_fits (Word.fits_int64.mpr (by omega))
    rw [mergeInto, bind_of_passed behind]
    split
    · rename_i touches
      -- The joined range takes the place of the last one.
      have joinedProper : Range.Proper ⟨last.lo, max last.hi next.hi⟩ :=
        ⟨lastProper.floor, Int.le_trans lastProper.nonempty (Int.le_max_left _ _),
          Int.max_le.mpr ⟨lastProper.ceiling, nextProper.ceiling⟩⟩
      obtain ⟨merged, isMerged, canonical, covers⟩ := inductionHypothesis joinedProper restProper
        (List.pairwise_cons.mpr
          ⟨fun range inside => lastBefore range (List.mem_cons_of_mem _ inside),
            (List.pairwise_cons.mp nextArranged).2⟩)
      refine ⟨merged, isMerged, canonical, fun value => ?_⟩
      rw [covers]
      simp only [covers_cons, ← or_assoc, Range.mem_iff]
      apply or_congr_left
      omega
    · rename_i gap
      obtain ⟨merged, isMerged, canonical, covers⟩ :=
        inductionHypothesis nextProper restProper nextArranged
      rw [bind_of_passed isMerged]
      refine ⟨last :: merged, rfl, ?_, fun value => ?_⟩
      · exact ⟨Int.le_refl _, lastProper.nonempty, lastProper.ceiling, canonical.weaken (by omega)⟩
      · rw [covers_cons, covers, @covers_cons _ last]

/-- What variables can take of arbitrary ranges, arranged. -/
def arrange (ranges : List Range) : List Range :=
  (ranges.filterMap Range.clamp?).mergeSort startsUpTo

/-- Arranged ranges have the values of the domain that is made of them. -/
theorem covers_arrange {ranges : List Range} {value : Int} :
    Covers (arrange ranges) value ↔ value ∈ Domain.ofRanges ranges := by
  rw [Domain.mem_ofRanges]
  simp only [Covers, arrange, List.mem_mergeSort, List.mem_filterMap]
  constructor
  · rintro ⟨part, ⟨range, inside, isPart⟩, member⟩
    have both := Range.exists_mem_overlap?.mp ⟨part, isPart, member⟩
    exact ⟨⟨range, inside, both.1⟩, both.2⟩
  · rintro ⟨⟨range, inside, member⟩, inBounds⟩
    obtain ⟨part, isPart, inPart⟩ :=
      (@Range.exists_mem_overlap? value range ⟨valueFloor, valueCeiling⟩).mpr ⟨member, inBounds⟩
    exact ⟨part, ⟨range, inside, isPart⟩, inPart⟩

/-- All of them are proper. -/
theorem proper_of_mem_arrange {ranges : List Range} {part : Range}
    (inside : part ∈ arrange ranges) : part.Proper := by
  obtain ⟨range, _, isPart⟩ := List.mem_filterMap.mp (List.mem_mergeSort.mp inside)
  obtain ⟨lo, hi, nonempty⟩ := Range.overlap?_eq_some_iff.mp isPart
  exact ⟨lo ▸ Int.le_max_right _ _, nonempty, hi ▸ Int.min_le_right _ _⟩

/-- They come in the order in which they start. -/
theorem pairwise_arrange (ranges : List Range) :
    (arrange ranges).Pairwise fun left right => left.lo ≤ right.lo := by
  refine (List.pairwise_mergeSort ?_ ?_ _).imp ?_ <;>
    simp only [startsUpTo, Bool.or_eq_true, Bool.and_eq_true, decide_eq_true_eq] <;> omega

/-- Normalizing does not slip and gives the canonical list of the values. -/
theorem normalize_eq (ranges : List Range) :
    normalize ranges = .ok (Domain.ofRanges ranges).ranges := by
  have clamped : ranges.filterMapM clamp = .ok (ranges.filterMap Range.clamp?) :=
    filterMapM_eq_ok fun range _ => clamp_eq range
  have merged : merge (arrange ranges) = .ok (Domain.ofRanges ranges).ranges := by
    have covers := @covers_arrange ranges
    have proper := @proper_of_mem_arrange ranges
    have arranged := pairwise_arrange ranges
    cases shape : arrange ranges with
    | nil =>
      rw [shape] at covers
      have canonical : Canonical [] := canonicalFrom_floor_iff.mp trivial
      exact congrArg Except.ok (canonical.eq_ranges fun _ => covers)
    | cons first rest =>
      rw [shape] at covers proper arranged
      have firstProper := proper List.mem_cons_self
      obtain ⟨merged, isMerged, canonical, sameValues⟩ :=
        exists_mergeInto firstProper (fun _ inside =>
          proper (List.mem_cons_of_mem _ inside)) arranged
      rw [merge, isMerged]
      have canonical : Canonical merged :=
        canonicalFrom_floor_iff.mp (canonical.weaken firstProper.floor)
      exact congrArg Except.ok (canonical.eq_ranges fun value => (sameValues value).trans covers)
  rw [normalize, bind_of_passed clamped]
  exact merged

end RangeList

end ConstraintSearch
