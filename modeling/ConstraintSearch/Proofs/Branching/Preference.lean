import ConstraintSearch.Branching.Selection
import ConstraintSearch.Proofs.Domain.Order
import Mathlib.Data.Int.Order.Basic
import Mathlib.Data.List.Lex
import Mathlib.Order.Lattice

/-!
# The variable that is preferred

A criterion puts one variable before another for a ground that is stated here without a comparison,
and an order decides by the first of its criteria that puts either before the other. Every criterion
comes from a number for each variable, so that an order is lexicographic in lists of numbers and
hence a total preorder, and the fold that keeps the former best in a tie ends with the earliest of
the best variables (`VariableOrder.selectsBest`).
-/

namespace ConstraintSearch

namespace Criterion

/-- The ground on which the criterion puts the first variable before the second. -/
def Precedes (network : Network) (space : Space) (first second : VariableId) :
    Criterion VariableId → Prop
  | naive => False
  | size => (space.domainOf first).size < (space.domainOf second).size
  | min => ∃ value ∈ space.domainOf first, ∀ other ∈ space.domainOf second, value < other
  | max => ∃ value ∈ space.domainOf first, ∀ other ∈ space.domainOf second, other < value
  | markov => network.isMarkov first ∧ ¬ network.isMarkov second
  | list listed inverted =>
    first ∈ listed ∧
      (second ∈ listed →
        if inverted then listed.idxOf second < listed.idxOf first
          else listed.idxOf first < listed.idxOf second)

/-- The criterion puts neither variable before the other. -/
def Ties (network : Network) (space : Space) (first second : VariableId)
    (criterion : Criterion VariableId) : Prop :=
  ¬ criterion.Precedes network space first second ∧ ¬ criterion.Precedes network space second first

/-- The number by which the criterion orders the variables, the least first. -/
def key (network : Network) (space : Space) (variableId : VariableId) : Criterion VariableId → Int
  | naive => 0
  | size => (space.domainOf variableId).size
  | min => (space.domainOf variableId).min?.getD valueFloor
  | max => -(space.domainOf variableId).max?.getD valueFloor
  | markov => -(network.isMarkov variableId).toNat
  | list listed inverted =>
    if variableId ∈ listed then
      if inverted then -listed.idxOf variableId else listed.idxOf variableId
    else
      listed.length

variable {network : Network} {space : Space} {first second : VariableId}

/-- The place of a variable is found just if it is listed. -/
theorem idxOf?_eq_ite (listed : List VariableId) (variableId : VariableId) :
    listed.idxOf? variableId = if variableId ∈ listed then some (listed.idxOf variableId)
      else none := by
  induction listed with
  | nil => rfl
  | cons head rest inductionHypothesis =>
    rw [List.idxOf?_cons, List.idxOf_cons, inductionHypothesis]
    by_cases same : head = variableId
    · simp [same]
    · have other : (head == variableId) = false := beq_false_of_ne same
      by_cases inside : variableId ∈ rest <;> simp [other, inside, Ne.symm same]

/-- The candidate is preferred if its number is less. -/
theorem prefer_eq_lt_iff (criterion : Criterion VariableId) :
    criterion.prefer network space first second = .lt ↔
      criterion.key network space first < criterion.key network space second := by
  cases criterion with
  | naive => simp [prefer, key]
  | size => rw [prefer, key, key, Nat.compare_eq_lt, Int.ofNat_lt]
  | min => rw [prefer, key, key, Int.compare_eq_lt]
  | max => rw [prefer, key, key, Int.compare_eq_lt, Int.neg_lt_neg_iff]
  | markov => rw [prefer, key, key, Nat.compare_eq_lt, Int.neg_lt_neg_iff, Int.ofNat_lt]
  | list listed inverted =>
    rw [prefer, key, key, idxOf?_eq_ite, idxOf?_eq_ite]
    by_cases firstListed : first ∈ listed
    · have firstPlace := List.idxOf_lt_length_of_mem firstListed
      by_cases secondListed : second ∈ listed
      · cases inverted <;> simp [comparePlaces, firstListed, secondListed, Nat.compare_eq_lt]
      · cases inverted <;> simp [comparePlaces, firstListed, secondListed] <;> omega
    · by_cases secondListed : second ∈ listed
      · have secondPlace := List.idxOf_lt_length_of_mem secondListed
        cases inverted <;> simp [comparePlaces, firstListed, secondListed, Nat.le_of_lt secondPlace]
      · simp [comparePlaces, firstListed, secondListed]

/-- Which of two variables is preferred does not depend on which is the candidate. -/
theorem prefer_swap (criterion : Criterion VariableId) :
    (criterion.prefer network space first second).swap =
      criterion.prefer network space second first := by
  cases criterion with
  | naive => rfl
  | size | markov => exact Nat.compare_swap _ _
  | min | max => exact Int.compare_swap _ _
  | list listed inverted =>
    rw [prefer, prefer]
    cases listed.idxOf? first <;> cases listed.idxOf? second <;> try rfl
    cases inverted
    · exact Nat.compare_swap _ _
    · exact Nat.compare_swap _ _

/-- Between variables that have values, the ground of a criterion is that the number is less. -/
theorem precedes_iff (criterion : Criterion VariableId)
    (firstNonempty : (space.domainOf first).Nonempty)
    (secondNonempty : (space.domainOf second).Nonempty) :
    criterion.Precedes network space first second ↔
      criterion.key network space first < criterion.key network space second := by
  cases criterion with
  | naive => simp [Precedes, key]
  | size => rw [Precedes, key, key, Int.ofNat_lt]
  | min =>
    obtain ⟨smallest, isSmallest⟩ := firstNonempty.exists_min?
    obtain ⟨least, isLeast⟩ := secondNonempty.exists_min?
    rw [Precedes, key, key, isSmallest, isLeast, Option.getD_some, Option.getD_some]
    rw [Domain.min?_eq_some_iff] at isSmallest isLeast
    constructor
    · rintro ⟨value, inside, below⟩
      exact Int.lt_of_le_of_lt (isSmallest.2 value inside) (below least isLeast.1)
    · intro less
      exact ⟨smallest, isSmallest.1, fun other inside =>
        Int.lt_of_lt_of_le less (isLeast.2 other inside)⟩
  | max =>
    obtain ⟨largest, isLargest⟩ := firstNonempty.exists_max?
    obtain ⟨greatest, isGreatest⟩ := secondNonempty.exists_max?
    rw [Precedes, key, key, isLargest, isGreatest, Option.getD_some, Option.getD_some,
      Int.neg_lt_neg_iff]
    rw [Domain.max?_eq_some_iff] at isLargest isGreatest
    constructor
    · rintro ⟨value, inside, above⟩
      exact Int.lt_of_lt_of_le (above greatest isGreatest.1) (isLargest.2 value inside)
    · intro less
      exact ⟨largest, isLargest.1, fun other inside =>
        Int.lt_of_le_of_lt (isGreatest.2 other inside) less⟩
  | markov =>
    rw [Precedes, key, key]
    cases network.isMarkov first <;> cases network.isMarkov second <;> simp
  | list listed inverted =>
    rw [Precedes, key, key]
    by_cases firstListed : first ∈ listed
    · have firstPlace := List.idxOf_lt_length_of_mem firstListed
      by_cases secondListed : second ∈ listed
      · cases inverted <;> simp [firstListed, secondListed]
      · cases inverted <;> simp [firstListed, secondListed] <;> omega
    · by_cases secondListed : second ∈ listed
      · have secondPlace := List.idxOf_lt_length_of_mem secondListed
        cases inverted <;> simp [firstListed, secondListed, Nat.le_of_lt secondPlace]
      · simp [firstListed, secondListed]

/-! ### Chains of criteria -/

/-- The numbers by which the criteria order the variables, one after the other. -/
def keys (network : Network) (space : Space) (criteria : List (Criterion VariableId))
    (variableId : VariableId) : List Int :=
  criteria.map (key network space variableId)

/-- Lists of numbers are compared at the first criterion, and at the others in a tie. -/
theorem keys_cons_lt_iff {criterion : Criterion VariableId} {ties : List (Criterion VariableId)} :
    keys network space (criterion :: ties) first < keys network space (criterion :: ties) second ↔
      criterion.key network space first < criterion.key network space second ∨
        criterion.key network space first = criterion.key network space second ∧
          keys network space ties first < keys network space ties second := by
  rw [keys, keys, List.map_cons, List.map_cons, List.cons_lt_cons_iff]
  rfl

/-- A variable is preferred by some criteria if its numbers come first. -/
theorem preferAmong_eq_lt_iff (criteria : List (Criterion VariableId)) :
    preferAmong network space first second criteria = .lt ↔
      keys network space criteria first < keys network space criteria second := by
  induction criteria with
  | nil => simp [preferAmong, keys]
  | cons criterion ties inductionHypothesis =>
    have less := @prefer_eq_lt_iff network space first second criterion
    have greater := @prefer_eq_lt_iff network space second first criterion
    rw [← prefer_swap, Ordering.swap_eq_lt] at greater
    rw [preferAmong, keys_cons_lt_iff]
    cases decided : criterion.prefer network space first second with
    | eq =>
      have same : criterion.key network space first = criterion.key network space second := by
        rw [decided] at less greater
        have := mt less.mpr (by decide)
        have := mt greater.mpr (by decide)
        omega
      simpa only [same, Int.lt_irrefl, false_or, true_and] using inductionHypothesis
    | lt => exact iff_of_true rfl (Or.inl (less.mp decided))
    | gt =>
      have above := greater.mp decided
      refine iff_of_false Ordering.noConfusion ?_
      rintro (below | ⟨same, _⟩) <;> omega

/-- Preference turns round with the variables. -/
theorem preferAmong_swap (criteria : List (Criterion VariableId)) :
    (preferAmong network space first second criteria).swap =
      preferAmong network space second first criteria := by
  induction criteria with
  | nil => rfl
  | cons criterion ties inductionHypothesis =>
    have swapped := @prefer_swap network space first second criterion
    rw [preferAmong, preferAmong, ← swapped]
    cases criterion.prefer network space first second with
    | eq => exact inductionHypothesis
    | lt | gt => rfl

end Criterion

namespace VariableOrder

open Criterion

/-- The first criterion that puts either variable before the other puts the first one before the
second. -/
def Precedes (order : VariableOrder VariableId) (network : Network) (space : Space)
    (first second : VariableId) : Prop :=
  ∃ tied deciding rest, order.criteria = tied ++ deciding :: rest ∧
    (∀ criterion ∈ tied, criterion.Ties network space first second) ∧
      deciding.Precedes network space first second

variable {order : VariableOrder VariableId} {network : Network} {space : Space}
  {first second : VariableId}

/-- Between variables that have values, an order is lexicographic. -/
theorem precedes_iff (firstNonempty : (space.domainOf first).Nonempty)
    (secondNonempty : (space.domainOf second).Nonempty) :
    order.Precedes network space first second ↔
      keys network space order.criteria first < keys network space order.criteria second := by
  rw [Precedes]
  induction order.criteria with
  | nil => simp [keys]
  | cons criterion ties inductionHypothesis =>
    have forth :=
      @Criterion.precedes_iff network space first second criterion firstNonempty secondNonempty
    have back :=
      @Criterion.precedes_iff network space second first criterion secondNonempty firstNonempty
    rw [keys_cons_lt_iff, ← forth]
    constructor
    · rintro ⟨tied, deciding, rest, split, allTie, decides⟩
      cases tied with
      | nil =>
        cases split
        exact .inl decides
      | cons head tied =>
        cases split
        obtain ⟨notForth, notBack⟩ := allTie criterion List.mem_cons_self
        rw [forth] at notForth
        rw [back] at notBack
        refine .inr ⟨by omega, inductionHypothesis.mp ⟨tied, deciding, rest, rfl, ?_, decides⟩⟩
        exact fun other inside => allTie other (List.mem_cons_of_mem _ inside)
    · rintro (decides | ⟨same, later⟩)
      · exact ⟨[], criterion, ties, rfl, fun _ nowhere => absurd nowhere List.not_mem_nil, decides⟩
      · obtain ⟨tied, deciding, rest, split, allTie, decides⟩ := inductionHypothesis.mpr later
        refine ⟨criterion :: tied, deciding, rest, congrArg _ split, ?_, decides⟩
        refine List.forall_mem_cons.mpr ⟨⟨?_, ?_⟩, allTie⟩
        · rw [forth]
          omega
        · rw [back]
          omega

/-- An order prefers a variable if the numbers of its criteria come first. -/
theorem prefer_eq_lt_iff :
    order.prefer network space first second = .lt ↔
      keys network space order.criteria first < keys network space order.criteria second :=
  preferAmong_eq_lt_iff order.criteria

/-- It prefers the other one if those come first. -/
theorem prefer_eq_gt_iff :
    order.prefer network space first second = .gt ↔
      keys network space order.criteria second < keys network space order.criteria first := by
  rw [← prefer_eq_lt_iff, prefer, prefer, ← preferAmong_swap order.criteria, Ordering.swap_eq_gt]

/-! ### The earliest of the best -/

/-- The variable is listed, no listed variable precedes it, and each variable listed before it is
preceded by another one. -/
def Earliest (precedes : VariableId → VariableId → Prop) (listed : List VariableId)
    (best : VariableId) : Prop :=
  ∃ earlier later, listed = earlier ++ best :: later ∧ (∀ other ∈ listed, ¬ precedes other best) ∧
    ∀ passed ∈ earlier, ∃ better ∈ listed, precedes better passed

/-- The earliest of the best variables is the only one. -/
theorem Earliest.unique {precedes : VariableId → VariableId → Prop} {listed : List VariableId}
    {best other : VariableId} (earliest : Earliest precedes listed best)
    (earliestToo : Earliest precedes listed other) : best = other := by
  obtain ⟨earlier, later, rfl, unpreceded, passed⟩ := earliest
  obtain ⟨earlierToo, laterToo, same, unprecededToo, passedToo⟩ := earliestToo
  have outside : best ∉ earlierToo := by
    intro inside
    obtain ⟨better, listed, precedes⟩ := passedToo best inside
    exact unpreceded better listed precedes
  have outsideToo : other ∉ earlier := by
    intro inside
    obtain ⟨better, listed, precedes⟩ := passed other inside
    exact unprecededToo better listed precedes
  rcases List.append_eq_append_iff.mp same with ⟨between, rfl, split⟩ | ⟨between, rfl, split⟩
  · cases between with
    | nil => exact (List.cons.inj split).1
    | cons head rest =>
      rw [(List.cons.inj split).1] at outside
      exact absurd (List.mem_append_right _ List.mem_cons_self) outside
  · cases between with
    | nil => exact (List.cons.inj split).1.symm
    | cons head rest =>
      rw [(List.cons.inj split).1] at outsideToo
      exact absurd (List.mem_append_right _ List.mem_cons_self) outsideToo

/-- A fold that replaces the best variable only by one with a lower score ends with the earliest of
the best. -/
theorem earliest_foldl {κ : Type} [LinearOrder κ] {score : VariableId → κ}
    {step : VariableId → VariableId → VariableId}
    (replaces : ∀ best candidate, score candidate < score best → step best candidate = candidate)
    (keeps : ∀ best candidate, ¬ score candidate < score best → step best candidate = best)
    (first : VariableId) (others : List VariableId) :
    Earliest (fun left right => score left < score right) (first :: others)
      (others.foldl step first) := by
  induction others generalizing first with
  | nil => exact ⟨[], [], rfl, by simp, by simp⟩
  | cons candidate rest inductionHypothesis =>
    rw [List.foldl_cons]
    by_cases lower : score candidate < score first
    · rw [replaces first candidate lower]
      obtain ⟨earlier, later, split, unpreceded, passed⟩ := inductionHypothesis candidate
      generalize rest.foldl step candidate = best at split unpreceded
      refine ⟨first :: earlier, later, congrArg _ split, List.forall_mem_cons.mpr ⟨?_, unpreceded⟩,
        List.forall_mem_cons.mpr ⟨?_, fun other inside => ?_⟩⟩
      · exact not_lt_of_ge ((not_lt.mp (unpreceded candidate List.mem_cons_self)).trans lower.le)
      · exact ⟨candidate, by simp, lower⟩
      · obtain ⟨better, listed, precedes⟩ := passed other inside
        exact ⟨better, List.mem_cons_of_mem _ listed, precedes⟩
    · rw [keeps first candidate lower]
      obtain ⟨earlier, later, split, unpreceded, passed⟩ := inductionHypothesis first
      generalize rest.foldl step first = best at split unpreceded
      have above : ¬ score candidate < score best :=
        not_lt_of_ge ((not_lt.mp (unpreceded first List.mem_cons_self)).trans (not_lt.mp lower))
      have stillUnpreceded : ∀ other ∈ first :: candidate :: rest, ¬ score other < score best := by
        obtain ⟨firstNot, restNot⟩ := List.forall_mem_cons.mp unpreceded
        exact List.forall_mem_cons.mpr ⟨firstNot, List.forall_mem_cons.mpr ⟨above, restNot⟩⟩
      cases earlier with
      | nil =>
        obtain ⟨rfl, rfl⟩ := List.cons.inj split
        exact ⟨[], candidate :: rest, rfl, stillUnpreceded, by simp⟩
      | cons head earlier =>
        obtain ⟨rfl, rfl⟩ := List.cons.inj split
        have passedStill : ∀ other ∈ first :: earlier,
            ∃ better ∈ first :: candidate :: (earlier ++ best :: later),
              score better < score other := by
          intro other inside
          obtain ⟨better, listed, precedes⟩ := passed other inside
          refine ⟨better, ?_, precedes⟩
          rcases List.mem_cons.mp listed with rfl | inRest
          · exact List.mem_cons_self
          · exact List.mem_cons_of_mem _ (List.mem_cons_of_mem _ inRest)
        obtain ⟨firstPassed, restPassed⟩ := List.forall_mem_cons.mp passedStill
        refine ⟨first :: candidate :: earlier, later, rfl, stillUnpreceded, ?_⟩
        refine List.forall_mem_cons.mpr ⟨firstPassed, List.forall_mem_cons.mpr ⟨?_, restPassed⟩⟩
        -- What precedes the first variable precedes the candidate, which is no better.
        obtain ⟨better, listed, precedes⟩ := firstPassed
        exact ⟨better, listed, precedes.trans_le (not_lt.mp lower)⟩

/-- The candidate is better if its numbers come first. -/
theorem better_of_lt {best candidate : VariableId}
    (lower : keys network space order.criteria candidate < keys network space order.criteria best) :
    order.better network space best candidate = candidate := by
  rw [better, prefer_eq_lt_iff.mpr lower]

/-- In a tie, the best variable so far remains. -/
theorem better_of_not_lt {best candidate : VariableId}
    (notLower : ¬ keys network space order.criteria candidate <
      keys network space order.criteria best) :
    order.better network space best candidate = best := by
  rw [better]
  split
  · rename_i preferred
    exact absurd (prefer_eq_lt_iff.mp preferred) notLower
  · rfl

/-- What is meant by selecting the best variable of a space: the comparison is a total preorder,
which decides by the first criterion that has a ground, and the selected variable is the earliest of
the best, or simply the first if the first criterion is the naive one. -/
structure SelectsBest (order : VariableOrder VariableId) (network : Network) (space : Space) :
    Prop where
  prefer_lt : ∀ candidate ∈ space.unsolved, ∀ best ∈ space.unsolved,
    (order.prefer network space candidate best = .lt ↔ order.Precedes network space candidate best)
  prefer_gt : ∀ candidate ∈ space.unsolved, ∀ best ∈ space.unsolved,
    (order.prefer network space candidate best = .gt ↔ order.Precedes network space best candidate)
  total : ∀ first ∈ space.unsolved, ∀ second ∈ space.unsolved,
    ¬ order.Precedes network space second first ∨ ¬ order.Precedes network space first second
  transitive : ∀ first ∈ space.unsolved, ∀ second ∈ space.unsolved, ∀ third ∈ space.unsolved,
    ¬ order.Precedes network space second first → ¬ order.Precedes network space third second →
      ¬ order.Precedes network space third first
  select_naive : order.first = .naive → order.select? network space = space.unsolved.head?
  select_best : order.first ≠ .naive → ∀ best, order.select? network space = some best ↔
    Earliest (order.Precedes network space) space.unsolved best
  select_none : order.select? network space = none ↔ space.unsolved = []

/-- An order that does not start with the naive criterion selects the best variable that is not
fixed. -/
theorem select?_of_ne_naive {others : List VariableId} (criterion : order.first ≠ .naive)
    (unsolved : space.unsolved = first :: others) :
    order.select? network space = some (others.foldl (order.better network space) first) := by
  rw [select?, unsolved]
  dsimp only
  split
  · rename_i naive
    exact absurd naive criterion
  · rfl

/-- **The preferred variable.** In every space whose unsolved variables have values, every order of
criteria compares the unsolved variables by a total preorder and selects the earliest of the
best. -/
theorem selectsBest (order : VariableOrder VariableId) (network : Network) {space : Space}
    (nonempty : ∀ variableId ∈ space.unsolved, (space.domainOf variableId).Nonempty) :
    order.SelectsBest network space := by
  have precedes : ∀ first ∈ space.unsolved, ∀ second ∈ space.unsolved,
      (order.Precedes network space first second ↔
        keys network space order.criteria first < keys network space order.criteria second) :=
    fun first inside second insideToo =>
      precedes_iff (nonempty first inside) (nonempty second insideToo)
  -- The keys of the criteria are ordered lexicographically, so being a total preorder comes down to
  -- that linear order.
  refine ⟨?_, ?_, ?_, ?_, ?_, ?_, ?_⟩
  · intro candidate inside best insideToo
    rw [precedes candidate inside best insideToo, prefer_eq_lt_iff]
  · intro candidate inside best insideToo
    rw [precedes best insideToo candidate inside, prefer_eq_gt_iff]
  · intro first inside second insideToo
    rw [precedes first inside second insideToo, precedes second insideToo first inside,
      not_lt, not_lt]
    exact le_total _ _
  · intro first inFirst second inSecond third inThird
    rw [precedes second inSecond first inFirst, precedes third inThird second inSecond,
      precedes third inThird first inFirst, not_lt, not_lt, not_lt]
    exact le_trans
  · intro naive
    rw [select?, naive]
    cases space.unsolved <;> rfl
  · intro criterion best
    cases unsolved : space.unsolved with
    | nil =>
      exact iff_of_false (by rw [select?, unsolved]; rintro ⟨⟩)
        (by rintro ⟨earlier, _, split, _⟩; simp at split)
    | cons first others =>
      rw [unsolved] at precedes
      obtain ⟨earlier, later, split, unpreceded, passed⟩ :=
        earliest_foldl (fun _ _ => @better_of_lt order network space _ _)
          (fun _ _ => better_of_not_lt) first others
      have earliest : Earliest (order.Precedes network space) (first :: others)
          (others.foldl (order.better network space) first) := by
        have listed : ∀ variableId ∈ earlier ++ others.foldl (order.better network space) first ::
            later, variableId ∈ first :: others := fun _ inside => split ▸ inside
        refine ⟨earlier, later, split, fun other inside => ?_, fun other inside => ?_⟩
        · rw [precedes other inside _ (listed _ (by simp))]
          exact unpreceded other inside
        · obtain ⟨better, inside', lower⟩ := passed other inside
          exact ⟨better, inside',
            (precedes better inside' other (listed _ (List.mem_append_left _ inside))).mpr lower⟩
      rw [select?_of_ne_naive criterion unsolved, Option.some.injEq]
      exact ⟨fun same => same ▸ earliest, earliest.unique⟩
  · rw [select?]
    cases space.unsolved with
    | nil => exact iff_of_true rfl rfl
    | cons first others =>
      refine iff_of_false ?_ (List.cons_ne_nil _ _)
      dsimp only
      split <;> exact Option.some_ne_none _

/-! ### An inverted list -/

/-- Four variables, three of which have the largest maximum; two of these are listed, one of them
twice. -/
def ranked : Network :=
  .build ([⟨"A", .range 0 9, none⟩, ⟨"B", .range 4 9, none⟩, ⟨"C", .range 0 9, none⟩,
    ⟨"D", .range 0 3, none⟩].foldl .push ∅) [] none ⟨.max, [.list [2, 1, 2] true, .size]⟩ .min ∅

/-- The listed variable whose first place comes last is selected, although it stands last neither
among the variables nor among the places of the list. -/
theorem selectsBest_ranked :
    (∀ variableId ∈ (Space.root ranked).unsolved,
      ((Space.root ranked).domainOf variableId).Nonempty) ∧ ranked.order.first ≠ .naive ∧
        ranked.order.select? ranked (Space.root ranked) = some 1 ∧
          Earliest (ranked.order.Precedes ranked (Space.root ranked)) [0, 1, 2, 3] 1 := by
  have occupied : ∀ variableId ∈ (Space.root ranked).unsolved,
      ((Space.root ranked).domainOf variableId).isEmpty = false := by
    decide +kernel
  have nonempty : ∀ variableId ∈ (Space.root ranked).unsolved,
      ((Space.root ranked).domainOf variableId).Nonempty :=
    fun variableId inside => Domain.isEmpty_eq_false_iff.mp (occupied variableId inside)
  have selected : ranked.order.select? ranked (Space.root ranked) = some 1 := by decide +kernel
  have unsolved : (Space.root ranked).unsolved = [0, 1, 2, 3] := by decide +kernel
  have selects := selectsBest ranked.order ranked nonempty
  exact ⟨nonempty, by decide, selected, unsolved ▸ (selects.select_best (by decide) 1).mp selected⟩

end VariableOrder

end ConstraintSearch
