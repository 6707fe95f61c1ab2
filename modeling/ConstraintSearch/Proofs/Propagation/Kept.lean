import ConstraintSearch.Proofs.Domain.Combination
import ConstraintSearch.Proofs.Propagation.Consistency

/-!
# Domains that propagators keep

What it means for a family of domains that a propagator keeps it, for each kind of propagator, and
two laws that hold of all kinds. On fixed variables a propagator keeps the domains exactly when its
relation holds. A propagator without weights never touches a family of domains that it keeps,
however large the domains around the family are.
-/

namespace ConstraintSearch

open Rule

/-! ### Comparisons -/

namespace Comparison

variable {comparison : Comparison} {left right : VariableId} {family : Family} {value : Int}

/-- The rule for the left operand admits the values that have a partner on the right. -/
theorem admits_leftRule (nonempty : (family right).Nonempty)
    (inBounds : valueFloor ≤ value ∧ value ≤ valueCeiling) :
    (comparison.leftRule left right).Admits family value ↔
      ∃ other ∈ family right, comparison.Holds value other :=
  mem_support nonempty inBounds

/-- That for the right operand admits those that have one on the left. -/
theorem admits_rightRule (nonempty : (family left).Nonempty)
    (inBounds : valueFloor ≤ value ∧ value ≤ valueCeiling) :
    (comparison.rightRule left right).Admits family value ↔
      ∃ other ∈ family left, comparison.Holds other value := by
  apply (mem_support nonempty inBounds).trans
  simp only [holds_converse]

/-- The rules of a comparison keep the domains exactly when the operands support each other. -/
theorem keeps_rules_iff_supported (leftNonempty : (family left).Nonempty)
    (rightNonempty : (family right).Nonempty) :
    (∀ rule ∈ comparison.rules left right, rule.Keeps family) ↔
      comparison.Supported (family left) (family right) := by
  have leftKeeps : (comparison.leftRule left right).Keeps family ↔
      ∀ value ∈ family left, ∃ other ∈ family right, comparison.Holds value other :=
    forall₂_congr fun _ member => admits_leftRule rightNonempty (Domain.bounds member)
  have rightKeeps : (comparison.rightRule left right).Keeps family ↔
      ∀ value ∈ family right, ∃ other ∈ family left, comparison.Holds other value :=
    forall₂_congr fun _ member => admits_rightRule leftNonempty (Domain.bounds member)
  simp only [mem_rules, forall_eq_or_imp, forall_eq, leftKeeps, rightKeeps, Supported]

/-- Between fixed operands there is support just where the comparison holds. -/
theorem supported_iff_holds {left right : Domain} {leftValue rightValue : Int}
    (leftSolved : left.solvedValue? = some leftValue)
    (rightSolved : right.solvedValue? = some rightValue) :
    comparison.Supported left right ↔ comparison.Holds leftValue rightValue := by
  simp [Supported, Domain.solvedValue?_eq_some_iff.mp leftSolved,
    Domain.solvedValue?_eq_some_iff.mp rightSolved]

/-- Operands between which the comparison holds for every pair of values support each other. -/
theorem supported_of_forall {left right : Domain} (leftNonempty : left.Nonempty)
    (rightNonempty : right.Nonempty)
    (always : ∀ first ∈ left, ∀ second ∈ right, comparison.Holds first second) :
    comparison.Supported left right := by
  obtain ⟨first, inLeft⟩ := leftNonempty
  obtain ⟨second, inRight⟩ := rightNonempty
  exact ⟨fun value member => ⟨second, inRight, always value member second inRight⟩,
    fun value member => ⟨first, inLeft, always first inLeft value member⟩⟩

/-- A comparison whose operands support each other is not rejected. -/
theorem not_isRejected_of_supported {left right : Domain} (nonempty : left.Nonempty)
    (supported : comparison.Supported left right) : ¬ comparison.isRejected left right := by
  obtain ⟨value, member⟩ := nonempty
  obtain ⟨other, inside, holds⟩ := supported.1 value member
  exact fun rejected => isRejected_iff.mp rejected value member other inside holds

/-- A part of rejected domains is rejected. -/
theorem isRejected_of_subset {left right outerLeft outerRight : Domain}
    (leftSubset : left ⊆ outerLeft) (rightSubset : right ⊆ outerRight)
    (rejected : comparison.isRejected outerLeft outerRight) : comparison.isRejected left right :=
  isRejected_iff.mpr fun first inLeft second inRight =>
    isRejected_iff.mp rejected first (leftSubset first inLeft) second (rightSubset second inRight)

/-- What the negation rejects, the comparison holds for. -/
theorem isRejected_negate_iff {left right : Domain} :
    comparison.negate.isRejected left right ↔
      ∀ first ∈ left, ∀ second ∈ right, comparison.Holds first second := by
  simp only [isRejected_iff, holds_negate, Classical.not_not]

/-- Rules of a comparison admit operands that support each other, whatever larger domains they
see. -/
theorem admits_of_supported {inner outer : Family} (leftNonempty : (inner left).Nonempty)
    (rightNonempty : (inner right).Nonempty)
    (supported : comparison.Supported (inner left) (inner right))
    (within : Within inner outer) :
    ∀ rule ∈ comparison.rules left right, ∀ value ∈ inner rule.target, rule.Admits outer value := by
  intro rule inside value member
  rcases mem_rules.mp inside with rfl | rfl
  · obtain ⟨other, otherInside, holds⟩ := supported.1 value member
    apply (admits_leftRule (rightNonempty.of_subset (within right)) (Domain.bounds member)).mpr
    exact ⟨other, within right other otherInside, holds⟩
  · obtain ⟨other, otherInside, holds⟩ := supported.2 value member
    apply (admits_rightRule (leftNonempty.of_subset (within left)) (Domain.bounds member)).mpr
    exact ⟨other, within left other otherInside, holds⟩

end Comparison

namespace RingOperation

variable {operation : RingOperation} {left right : Domain}

/-- The result of an operation grows with its operands. -/
theorem apply_subset {outerLeft outerRight : Domain} (leftSubset : left ⊆ outerLeft)
    (rightSubset : right ⊆ outerRight) :
    operation.apply left right ⊆ operation.apply outerLeft outerRight := by
  cases operation with
  | plus => exact Domain.plus_subset leftSubset rightSubset
  | minus => exact Domain.minus_subset leftSubset rightSubset
  | mul => exact Domain.mul_subset leftSubset rightSubset
  | divBy => exact Domain.divBy_subset leftSubset rightSubset

/-- On fixed operands an operation is exact. -/
theorem mem_apply_iff_holds {leftValue rightValue value : Int}
    (leftSolved : left.solvedValue? = some leftValue)
    (rightSolved : right.solvedValue? = some rightValue)
    (inBounds : valueFloor ≤ value ∧ value ≤ valueCeiling) :
    value ∈ operation.apply left right ↔ operation.Holds leftValue rightValue value := by
  cases operation with
  | plus => exact Domain.mem_plus_of_solvedValue? leftSolved rightSolved inBounds
  | minus => exact Domain.mem_minus_of_solvedValue? leftSolved rightSolved inBounds
  | mul => exact Domain.mem_mul_of_solvedValue? leftSolved rightSolved inBounds
  | divBy => exact Domain.mem_divBy_of_solvedValue? leftSolved rightSolved inBounds

end RingOperation

namespace Propagator

/-- The variable that tells whether the comparison of a reified propagator holds. -/
def truthVariable? : Propagator → Option VariableId
  | reified _ _ _ result => some result
  | _ => none

def isRing : Propagator → Bool
  | ring _ _ _ _ => true
  | _ => false

def isMarkov : Propagator → Bool
  | markov _ _ => true
  | _ => false

section Kept

variable {comparison : Comparison} {operation : RingOperation}
  {left right result weighted : VariableId} {matrix : MarkovMatrix VariableId} {family : Family}

/-- A comparison keeps domains that support each other. -/
theorem keeps_relation_iff (leftNonempty : (family left).Nonempty)
    (rightNonempty : (family right).Nonempty) : (relation comparison left right).Keeps family ↔
      comparison.Supported (family left) (family right) :=
  Comparison.keeps_rules_iff_supported leftNonempty rightNonempty

/-- A rule that does not depend on anything keeps the domains within what it supports. -/
theorem keeps_always_iff {target : VariableId} {supported : Domain} :
    (∀ rule ∈ [always target supported], rule.Keeps family) ↔ family target ⊆ supported := by
  simp [Rule.Keeps, Rule.Admits, always, Domain.subset_iff]

/-- Where the result is 1, the comparison is kept. -/
theorem keeps_reified_of_one (leftNonempty : (family left).Nonempty)
    (rightNonempty : (family right).Nonempty) (one : (family result).isValue 1) :
    (reified comparison left right result).Keeps family ↔
      comparison.Supported (family left) (family right) := by
  rw [Keeps, rules, Comparison.reifiedRules, if_pos one]
  exact Comparison.keeps_rules_iff_supported leftNonempty rightNonempty

/-- Where it is 0, the negated comparison is. -/
theorem keeps_reified_of_zero (leftNonempty : (family left).Nonempty)
    (rightNonempty : (family right).Nonempty) (zero : (family result).isValue 0) :
    (reified comparison left right result).Keeps family ↔
      comparison.negate.Supported (family left) (family right) := by
  have notOne := Domain.not_isValue_of_ne zero Int.zero_ne_one
  rw [Keeps, rules, Comparison.reifiedRules, if_neg notOne, if_pos zero]
  exact Comparison.keeps_rules_iff_supported leftNonempty rightNonempty

/-- Before the result is fixed, it must not be possible to exclude a value of it. -/
theorem keeps_reified_of_open (notOne : ¬ (family result).isValue 1)
    (notZero : ¬ (family result).isValue 0) : (reified comparison left right result).Keeps family ↔
      (comparison.isRejected (family left) (family right) → family result ⊆ .allBut 1) ∧
        (¬ comparison.isRejected (family left) (family right) →
          comparison.negate.isRejected (family left) (family right) →
            family result ⊆ .allBut 0) := by
  rw [Keeps, rules, Comparison.reifiedRules, if_neg notOne, if_neg notZero]
  split
  · rename_i rejected
    simp only [keeps_always_iff, rejected, true_implies, not_true, false_implies, and_true]
  · rename_i unrejected
    split
    · rename_i rejected
      rw [keeps_always_iff]
      simp [unrejected, rejected]
    · rename_i neither
      simp [unrejected, neither]

/-- An operation keeps a result that it can give. -/
theorem keeps_ring_iff :
    (ring operation left right result).Keeps family ↔
      family result ⊆ operation.apply (family left) (family right) := by
  simp [Keeps, rules, ringRule, Rule.Keeps, Rule.Admits, Domain.subset_iff]

/-- A weighted variable is kept as long as it is not fixed to a value without weight. -/
theorem keeps_markov_iff : (markov weighted matrix).Keeps family ↔
    ∀ value, (family weighted).solvedValue? = some value →
      0.0 < matrix.weightOf value (family weighted) fun guard => (family guard).isValue 1 := by
  rw [Keeps, rules, markovRules]
  cases fixed : (family weighted).solvedValue? with
  | none => simp
  | some value =>
    have member := Domain.mem_of_solvedValue? fixed
    simp only [Option.some.injEq, forall_eq']
    split
    · rename_i positive
      exact iff_of_true (fun _ nowhere => absurd nowhere List.not_mem_nil) positive
    · rename_i weightless
      rw [keeps_always_iff]
      exact iff_of_false (fun subset => Domain.not_mem_empty (subset value member)) weightless

/-- Where the operands reject a comparison, all that is asked of its result is not to be 1. -/
theorem keeps_reified_iff_of_isRejected (leftNonempty : (family left).Nonempty)
    (rightNonempty : (family right).Nonempty)
    (rejected : comparison.isRejected (family left) (family right)) :
    (reified comparison left right result).Keeps family ↔ family result ⊆ .allBut 1 := by
  rw [Domain.subset_allBut_iff]
  by_cases one : (family result).isValue 1
  · rw [keeps_reified_of_one leftNonempty rightNonempty one]
    refine iff_of_false (fun supported => ?_) fun missing => ?_
    · exact Comparison.not_isRejected_of_supported leftNonempty supported rejected
    · exact missing (Domain.mem_of_solvedValue? (Domain.isValue_iff.mp one))
  by_cases zero : (family result).isValue 0
  · rw [keeps_reified_of_zero leftNonempty rightNonempty zero]
    refine iff_of_true (Comparison.supported_of_forall leftNonempty rightNonempty ?_) fun member =>
      ?_
    · simpa only [Comparison.holds_negate] using Comparison.isRejected_iff.mp rejected
    · cases (Domain.solvedValue?_eq_some_iff.mp (Domain.isValue_iff.mp zero) 1).mp member
  · rw [keeps_reified_of_open one zero, Domain.subset_allBut_iff]
    simp only [rejected, true_implies, not_true, false_implies, and_true]

/-- Where they reject its negation, all that is asked of it is not to be 0. -/
theorem keeps_reified_iff_of_isRejected_negate (leftNonempty : (family left).Nonempty)
    (rightNonempty : (family right).Nonempty)
    (rejected : comparison.negate.isRejected (family left) (family right)) :
    (reified comparison left right result).Keeps family ↔ family result ⊆ .allBut 0 := by
  have supported := Comparison.supported_of_forall leftNonempty rightNonempty
    (Comparison.isRejected_negate_iff.mp rejected)
  rw [Domain.subset_allBut_iff]
  by_cases one : (family result).isValue 1
  · rw [keeps_reified_of_one leftNonempty rightNonempty one]
    refine iff_of_true supported fun member => ?_
    cases (Domain.solvedValue?_eq_some_iff.mp (Domain.isValue_iff.mp one) 0).mp member
  by_cases zero : (family result).isValue 0
  · rw [keeps_reified_of_zero leftNonempty rightNonempty zero]
    refine iff_of_false (fun negated => ?_) fun missing => ?_
    · exact Comparison.not_isRejected_of_supported leftNonempty negated rejected
    · exact missing (Domain.mem_of_solvedValue? (Domain.isValue_iff.mp zero))
  · have unrejected := Comparison.not_isRejected_of_supported leftNonempty supported
    rw [keeps_reified_of_open one zero]
    exact ⟨fun kept => Domain.subset_allBut_iff.mp (kept.2 unrejected rejected), fun missing =>
      ⟨fun nowRejected => absurd nowRejected unrejected, fun _ _ =>
        Domain.subset_allBut_iff.mpr missing⟩⟩

end Kept

/-! ### Fixed variables -/

/-- The weight of a value depends on the guards of the matrix only. -/
theorem weightOf_congr {matrix : MarkovMatrix VariableId} {first second : VariableId → Bool}
    {value : Int} {domain : Domain}
    (agree : ∀ guard ∈ matrix.rows.filterMap MarkovRow.guard, first guard = second guard) :
    matrix.weightOf value domain first = matrix.weightOf value domain second := by
  rw [MarkovMatrix.weightOf, MarkovMatrix.weightOf, activeRow?_congr matrix agree]

/-- On fixed variables a propagator keeps the domains exactly when its relation holds between their
values. -/
theorem keeps_iff_holds {propagator : Propagator} {family : Family} {assignment : VariableId → Int}
    (solved : ∀ variableId ∈ propagator.scope, (family variableId).solvedValue? =
      some (assignment variableId))
    (truth : ∀ result, propagator.truthVariable? = some result →
      assignment result = 0 ∨ assignment result = 1) :
    propagator.Keeps family ↔ propagator.Holds assignment := by
  have nonempty : ∀ {variableId}, (family variableId).solvedValue? = some (assignment variableId) →
      (family variableId).Nonempty := fun solved => ⟨_, Domain.mem_of_solvedValue? solved⟩
  cases propagator with
  | relation comparison left right =>
    have leftSolved := solved left (by simp)
    have rightSolved := solved right (by simp)
    rw [keeps_relation_iff (nonempty leftSolved) (nonempty rightSolved)]
    exact Comparison.supported_iff_holds leftSolved rightSolved
  | reified comparison left right result =>
    have leftSolved := solved left (by simp)
    have rightSolved := solved right (by simp)
    have resultSolved := solved result (by simp)
    rcases truth result rfl with isZero | isOne
    · rw [isZero] at resultSolved
      rw [keeps_reified_of_zero (nonempty leftSolved) (nonempty rightSolved)
        (Domain.isValue_iff.mpr resultSolved),
        Comparison.supported_iff_holds leftSolved rightSolved, Comparison.holds_negate]
      simp [Holds, isZero]
    · rw [isOne] at resultSolved
      rw [keeps_reified_of_one (nonempty leftSolved) (nonempty rightSolved)
        (Domain.isValue_iff.mpr resultSolved),
        Comparison.supported_iff_holds leftSolved rightSolved]
      simp [Holds, isOne]
  | ring operation left right result =>
    have leftSolved := solved left (by simp)
    have rightSolved := solved right (by simp)
    have resultSolved := solved result (by simp)
    have inBounds := Domain.bounds (Domain.mem_of_solvedValue? resultSolved)
    rw [keeps_ring_iff, Holds, ← RingOperation.mem_apply_iff_holds leftSolved rightSolved inBounds,
      Domain.subset_iff]
    simp [Domain.solvedValue?_eq_some_iff.mp resultSolved]
  | markov weighted matrix =>
    have weightedSolved := solved weighted (by simp)
    have sameWeight : matrix.weightOf (assignment weighted) (family weighted)
        (fun guard => (family guard).isValue 1) = matrix.weightOf (assignment weighted)
        (.value (assignment weighted)) fun guard => assignment guard == 1 := by
      rw [Domain.eq_value_of_solvedValue? weightedSolved]
      apply weightOf_congr
      intro guard inside
      have guardSolved := solved guard (mem_scope_markov.mpr (.inr inside))
      rw [Domain.isValue, guardSolved]
      rfl
    rw [keeps_markov_iff, Holds, ← sameWeight]
    simp [weightedSolved]

/-! ### Sheltered families -/

/-- The rules of a reified comparison admit every family in the domains that it keeps: where they
restrict the result, the operands of the family leave it the same truth. -/
theorem admits_of_keeps_reified {comparison : Comparison} {left right result : VariableId}
    {inner outer : Family} (leftNonempty : (inner left).Nonempty)
    (rightNonempty : (inner right).Nonempty) (resultNonempty : (inner result).Nonempty)
    (keeps : (reified comparison left right result).Keeps inner) (within : Within inner outer) :
    ∀ rule ∈ (reified comparison left right result).rules outer, ∀ seen, Within inner seen →
      ∀ value ∈ inner rule.target, rule.Admits seen value := by
  intro rule inside seen withinSeen
  have sameValue : ∀ {only : Int}, (outer result).isValue only → (inner result).isValue only := by
    intro only isOnly
    rwa [Domain.eq_of_subset_of_solvedValue? resultNonempty (within result)
      (Domain.isValue_iff.mp isOnly)]
  have innerRejected : ∀ {other : Comparison}, other.isRejected (outer left) (outer right) →
      other.isRejected (inner left) (inner right) :=
    fun rejected => Comparison.isRejected_of_subset (within left) (within right) rejected
  have admitsAlways : ∀ {excluded : Int}, rule ∈ [always result (.allBut excluded)] →
      inner result ⊆ .allBut excluded → ∀ value ∈ inner rule.target, rule.Admits seen value := by
    rintro excluded inside subset value member supported support
    rw [List.mem_singleton.mp inside] at member support
    cases support
    exact subset value member
  simp only [rules, Comparison.reifiedRules] at inside
  split at inside
  · rename_i one
    have supported := (keeps_reified_of_one leftNonempty rightNonempty (sameValue one)).mp keeps
    exact Comparison.admits_of_supported leftNonempty rightNonempty supported withinSeen rule inside
  split at inside
  · rename_i zero
    have supported := (keeps_reified_of_zero leftNonempty rightNonempty (sameValue zero)).mp keeps
    exact Comparison.admits_of_supported leftNonempty rightNonempty supported withinSeen rule inside
  split at inside
  · rename_i rejected
    exact admitsAlways inside ((keeps_reified_iff_of_isRejected leftNonempty rightNonempty
      (innerRejected rejected)).mp keeps)
  split at inside
  · rename_i rejected
    exact admitsAlways inside ((keeps_reified_iff_of_isRejected_negate leftNonempty rightNonempty
      (innerRejected rejected)).mp keeps)
  · cases inside

/-- The rules that a propagator follows on some domains admit every family in them that the
propagator keeps, where weights do not exclude the domains themselves. -/
theorem admits_of_keeps {propagator : Propagator} {inner outer : Family}
    (weighed : propagator.isMarkov → propagator.Keeps outer)
    (nonempty : ∀ variableId ∈ propagator.scope, (inner variableId).Nonempty)
    (keeps : propagator.Keeps inner) (within : Within inner outer) :
    ∀ rule ∈ propagator.rules outer, ∀ seen, Within inner seen → ∀ value ∈ inner rule.target,
      rule.Admits seen value := by
  intro rule inside seen withinSeen
  cases propagator with
  | relation comparison left right =>
    have leftNonempty := nonempty left (by simp)
    have rightNonempty := nonempty right (by simp)
    have supported := (keeps_relation_iff leftNonempty rightNonempty).mp keeps
    exact Comparison.admits_of_supported leftNonempty rightNonempty supported withinSeen rule inside
  | reified comparison left right result =>
    exact admits_of_keeps_reified (nonempty left (by simp)) (nonempty right (by simp))
      (nonempty result (by simp)) keeps within rule inside seen withinSeen
  | ring operation left right result =>
    obtain rfl := List.mem_singleton.mp inside
    rintro value member supported ⟨rfl⟩
    have admitted := keeps_ring_iff.mp keeps value member
    exact RingOperation.apply_subset (withinSeen left) (withinSeen right) value admitted
  | markov weighted matrix =>
    have leftAlone := keeps_markov_iff.mp (weighed rfl)
    simp only [rules, markovRules] at inside
    split at inside
    · cases inside
    · rename_i value fixed
      rw [if_pos (leftAlone value fixed)] at inside
      cases inside

/-- A propagator never touches a family that it keeps, where weights do not exclude the domains
around it. -/
theorem propagate_shelters {propagator : Propagator} {inner : Family} {state : Narrowing}
    (weighed : propagator.isMarkov → propagator.Keeps state.domainOf)
    (nonempty : ∀ variableId ∈ propagator.scope, (inner variableId).Nonempty)
    (keeps : propagator.Keeps inner)
    (within : Within inner state.domainOf) :
    ∃ final, propagator.propagate state = .ok () final ∧ Within inner final.domainOf := by
  rw [propagate_eq_followAll]
  apply followAll_shelters (fun rule inside => nonempty rule.target (target_mem_scope inside))
    within
  intro rule inside seen withinSeen _
  exact admits_of_keeps weighed nonempty keeps within rule inside seen withinSeen

/-- A run leaves alone a smaller family that its propagator keeps. -/
theorem run_shelters {propagator : Propagator} {inner : Family} {state : Narrowing}
    (weighed : propagator.isMarkov → propagator.Keeps state.domainOf)
    (nonempty : ∀ variableId ∈ propagator.scope, (inner variableId).Nonempty)
    (keeps : propagator.Keeps inner)
    (within : Within inner state.domainOf) :
    ∃ final, propagator.run state = .ok () final ∧ Within inner final.domainOf :=
  @propagate_shelters _ _ state.counted weighed nonempty keeps within

end Propagator

end ConstraintSearch
