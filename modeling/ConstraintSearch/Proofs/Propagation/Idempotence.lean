import ConstraintSearch.Proofs.Propagation.Kept

/-!
# Propagators that need no second run

A propagator that is not an operation keeps the domains that it leaves behind, so that it need not
run again before another propagator changes them. The exception are the strict comparisons of a
variable with itself: these narrow a domain by one value in every run until it is empty, and
`Propagator.OrdersItself` tells when a propagator stands for one.
-/

namespace ConstraintSearch

open Rule

namespace Comparison

/-- Whether the comparison holds between no value and itself although it is an order. -/
def isStrict : Comparison → Bool
  | lt | gt => true
  | _ => false

/-- A comparison that is neither strict nor an inequality holds between a value and itself. -/
theorem holds_self {comparison : Comparison} (lax : comparison.isStrict = false)
    (different : comparison ≠ neq) (value : Int) : comparison.Holds value value := by
  cases comparison with
  | neq => exact absurd rfl different
  | lt => cases lax
  | gt => cases lax
  | _ => simp [Holds]

variable {comparison : Comparison} {left right : VariableId} {state final : Narrowing}

/-- Two variables support each other once each of them was restricted to what the other one
supports. -/
theorem supported_of_leftRule_rightRule
    (ran : followAll [comparison.leftRule left right, comparison.rightRule left right]
      state = .ok () final)
    (different : left ≠ right) (leftNonempty : (state.domainOf left).Nonempty)
    (rightNonempty : (state.domainOf right).Nonempty) :
    comparison.Supported (final.domainOf left) (final.domainOf right) := by
  obtain ⟨middle, first, restRan⟩ := exists_of_followAll_cons ran leftNonempty
  have middleRight : (middle.domainOf right).Nonempty := first.narrows.nonempty rightNonempty
  have middleLeft : (middle.domainOf left).Nonempty := first.narrows.nonempty leftNonempty
  obtain ⟨_, second, ⟨rfl⟩⟩ := exists_of_followAll_cons restRan middleRight
  have sameLeft : final.domainOf left = middle.domainOf left := second.elsewhere left different
  have sameRight : middle.domainOf right = state.domainOf right :=
    first.elsewhere right different.symm
  constructor
  · intro value member
    rw [sameLeft] at member
    -- The support that the value was kept for is itself supported by the value, so it was kept as
    -- well.
    have admitted := ((first.mem_target value).mp member).2
    obtain ⟨other, inside, holds⟩ :=
      (admits_leftRule rightNonempty (Domain.bounds member)).mp admitted
    refine ⟨other, (second.mem_target other).mpr ⟨sameRight ▸ inside, ?_⟩, holds⟩
    exact (admits_rightRule middleLeft (Domain.bounds inside)).mpr ⟨value, member, holds⟩
  · intro value member
    have admitted := ((second.mem_target value).mp member).2
    rw [sameLeft]
    exact (admits_rightRule middleLeft (Domain.bounds member)).mp admitted

/-- A variable that was made to differ from itself has two values. -/
theorem supported_neq_self (ran : followAll (neq.rules left left) state = .ok () final)
    (nonempty : (state.domainOf left).Nonempty) :
    neq.Supported (final.domainOf left) (final.domainOf left) := by
  obtain ⟨middle, first, restRan⟩ := exists_of_followAll_cons ran nonempty
  have middleNonempty : (middle.domainOf left).Nonempty := first.narrows.nonempty nonempty
  obtain ⟨_, second, ⟨rfl⟩⟩ := exists_of_followAll_cons restRan middleNonempty
  have differs : ∀ value ∈ final.domainOf left, ∃ other ∈ final.domainOf left, value ≠ other := by
    intro value member
    obtain ⟨inMiddle, admitted⟩ := (second.mem_target value).mp member
    obtain ⟨other, inside, holds⟩ :=
      (admits_leftRule middleNonempty (Domain.bounds member)).mp admitted
    refine ⟨other, (second.mem_target other).mpr ⟨inside, ?_⟩, holds⟩
    exact (admits_leftRule middleNonempty (Domain.bounds inside)).mpr
      ⟨value, inMiddle, Ne.symm holds⟩
  refine ⟨differs, fun value member => ?_⟩
  obtain ⟨other, inside, different⟩ := differs value member
  exact ⟨other, inside, different.symm⟩

/-- After its rules were followed, a comparison is supported, unless it is strict and compares a
variable with itself. -/
theorem supported_of_followAll (ran : followAll (comparison.rules left right) state = .ok () final)
    (possible : ¬ (comparison.isStrict ∧ left = right))
    (leftNonempty : (state.domainOf left).Nonempty)
    (rightNonempty : (state.domainOf right).Nonempty) :
    comparison.Supported (final.domainOf left) (final.domainOf right) := by
  by_cases same : left = right
  · subst same
    have lax : comparison.isStrict = false :=
      Bool.eq_false_iff.mpr fun strict => possible ⟨strict, rfl⟩
    by_cases unequal : comparison = neq
    · subst unequal
      exact supported_neq_self ran leftNonempty
    · have itself := holds_self lax unequal
      exact ⟨fun value member => ⟨value, member, itself value⟩, fun value member =>
        ⟨value, member, itself value⟩⟩
  · have turned : comparison.rules left right =
        [comparison.rightRule left right, comparison.leftRule left right] →
          comparison.Supported (final.domainOf left) (final.domainOf right) := by
      intro order
      have converseLeft : comparison.converse.rightRule right left =
          comparison.leftRule left right := by
        rw [rightRule, leftRule, converse_converse]
      rw [order, ← converseLeft] at ran
      exact supported_converse.mp (supported_of_leftRule_rightRule ran (Ne.symm same)
        rightNonempty leftNonempty)
    cases comparison with
    | eq | lt | lte => exact supported_of_leftRule_rightRule ran same leftNonempty rightNonempty
    | neq | gt | gte => exact turned rfl

/-- No domain supports a strict comparison with itself: one of its ends has nothing beyond it. -/
theorem not_supported_self {domain : Domain} (strict : comparison.isStrict)
    (nonempty : domain.Nonempty) : ¬ comparison.Supported domain domain := by
  intro supported
  cases comparison with
  | lt =>
    obtain ⟨greatest, isGreatest⟩ := nonempty.exists_max?
    obtain ⟨member, most⟩ := Domain.max?_eq_some_iff.mp isGreatest
    obtain ⟨other, inside, greater⟩ := supported.1 greatest member
    exact absurd (most other inside) (Int.not_le.mpr greater)
  | gt =>
    obtain ⟨smallest, isSmallest⟩ := nonempty.exists_min?
    obtain ⟨member, least⟩ := Domain.min?_eq_some_iff.mp isSmallest
    obtain ⟨other, inside, smaller⟩ := supported.1 smallest member
    exact absurd (least other inside) (Int.not_le.mpr smaller)
  | eq | neq | lte | gte => cases strict

end Comparison

namespace Propagator

/-- On these domains the propagator demands that a variable is ordered strictly before itself. -/
def OrdersItself (propagator : Propagator) (family : Family) : Prop :=
  match propagator with
  | relation comparison left right => comparison.isStrict ∧ left = right
  | reified comparison left right result =>
    left = right ∧ (((family result).isValue 1 ∧ comparison.isStrict) ∨
      ((family result).isValue 0 ∧ comparison.negate.isStrict))
  | ring _ _ _ _ | markov _ _ => False

/-- Whether a variable is ordered before itself depends on the domains in the scope. -/
theorem OrdersItself.congr {propagator : Propagator} {first second : Family}
    (demands : propagator.OrdersItself first)
    (agree : ∀ variableId ∈ propagator.scope, first variableId = second variableId) :
    propagator.OrdersItself second := by
  cases propagator with
  | relation comparison left right => exact demands
  | reified comparison left right result =>
    rw [OrdersItself, ← agree result (by simp)]
    exact demands
  | ring operation left right result => exact demands
  | markov weighted matrix => exact demands

/-- A propagator that orders a variable before itself keeps no family in which that one has
values. -/
theorem not_keeps_of_ordersItself {propagator : Propagator} {family : Family}
    (nonempty : ∀ variableId ∈ propagator.scope, (family variableId).Nonempty)
    (demands : propagator.OrdersItself family) :
    ¬ propagator.Keeps family := by
  cases propagator with
  | relation comparison left right =>
    obtain ⟨strict, rfl⟩ := demands
    have leftNonempty := nonempty left (by simp)
    rw [keeps_relation_iff leftNonempty leftNonempty]
    exact Comparison.not_supported_self strict leftNonempty
  | reified comparison left right result =>
    obtain ⟨rfl, ⟨one, strict⟩ | ⟨zero, strict⟩⟩ := demands
    · have leftNonempty := nonempty left (by simp)
      rw [keeps_reified_of_one leftNonempty leftNonempty one]
      exact Comparison.not_supported_self strict leftNonempty
    · have leftNonempty := nonempty left (by simp)
      rw [keeps_reified_of_zero leftNonempty leftNonempty zero]
      exact Comparison.not_supported_self strict leftNonempty
  | ring operation left right result => cases demands
  | markov weighted matrix => cases demands

variable {state final : Narrowing}

/-- A reified comparison keeps the domains that it leaves, unless it orders a variable before
itself. The cases are those of its rules: the result is 1 or 0, the operands reject the comparison
or its negation, or all is open. What decided between them still holds of the narrowed domains. -/
theorem keeps_reified_of_propagate {comparison : Comparison} {left right result : VariableId}
    (nonempty : ∀ variableId ∈ (reified comparison left right result).scope,
      (state.domainOf variableId).Nonempty)
    (ran : (reified comparison left right result).propagate state = .ok () final)
    (possible : ¬ (reified comparison left right result).OrdersItself final.domainOf) :
    (reified comparison left right result).Keeps final.domainOf := by
  have narrows := narrows_of_propagate nonempty ran
  have leftNonempty := nonempty left (by simp)
  have rightNonempty := nonempty right (by simp)
  have resultNonempty := nonempty result (by simp)
  have finalLeft := narrows.nonempty leftNonempty
  have finalRight := narrows.nonempty rightNonempty
  have sameValue : ∀ {only : Int}, (state.domainOf result).isValue only →
      (final.domainOf result).isValue only := by
    intro only isOnly
    rwa [narrows.eq_of_solvedValue? (Domain.isValue_iff.mp isOnly)]
  have stillRejected : ∀ {other : Comparison},
      other.isRejected (state.domainOf left) (state.domainOf right) →
        other.isRejected (final.domainOf left) (final.domainOf right) :=
    fun rejected =>
      Comparison.isRejected_of_subset (narrows.subset left) (narrows.subset right) rejected
  rw [propagate_eq_followAll, rules, Comparison.reifiedRules] at ran
  split at ran
  · rename_i one
    rw [keeps_reified_of_one finalLeft finalRight (sameValue one)]
    have lax : ¬ (comparison.isStrict ∧ left = right) := by
      rintro ⟨strict, same⟩
      exact possible ⟨same, .inl ⟨sameValue one, strict⟩⟩
    exact Comparison.supported_of_followAll ran lax leftNonempty rightNonempty
  split at ran
  · rename_i zero
    rw [keeps_reified_of_zero finalLeft finalRight (sameValue zero)]
    have lax : ¬ (comparison.negate.isStrict ∧ left = right) := by
      rintro ⟨strict, same⟩
      exact possible ⟨same, .inr ⟨sameValue zero, strict⟩⟩
    exact Comparison.supported_of_followAll ran lax leftNonempty rightNonempty
  split at ran
  · rename_i rejected
    exact (keeps_reified_iff_of_isRejected finalLeft finalRight (stillRejected rejected)).mpr
      (subset_of_followAll_always ran resultNonempty)
  split at ran
  · rename_i rejected
    exact (keeps_reified_iff_of_isRejected_negate finalLeft finalRight (stillRejected rejected)).mpr
      (subset_of_followAll_always ran resultNonempty)
  · rename_i notOne notZero unrejected negationUnrejected
    cases ran
    exact (keeps_reified_of_open notOne notZero).mpr ⟨fun rejected => absurd rejected unrejected,
      fun _ rejected => absurd rejected negationUnrejected⟩

/-- A propagator that is not an operation keeps the domains that it leaves, unless it orders a
variable before itself. -/
theorem keeps_of_propagate_of_not_ordersItself {propagator : Propagator}
    (notRing : propagator.isRing = false)
    (nonempty : ∀ variableId ∈ propagator.scope, (state.domainOf variableId).Nonempty)
    (ran : propagator.propagate state = .ok () final)
    (possible : ¬ propagator.OrdersItself final.domainOf) : propagator.Keeps final.domainOf := by
  have narrows := narrows_of_propagate nonempty ran
  cases propagator with
  | relation comparison left right =>
    have leftNonempty := nonempty left (by simp)
    have rightNonempty := nonempty right (by simp)
    rw [keeps_relation_iff (narrows.nonempty leftNonempty) (narrows.nonempty rightNonempty)]
    rw [propagate_eq_followAll] at ran
    exact Comparison.supported_of_followAll ran possible leftNonempty rightNonempty
  | reified comparison left right result => exact keeps_reified_of_propagate nonempty ran possible
  | ring operation left right result => cases notRing
  | markov weighted matrix =>
    -- A weighted variable either passes unchanged or has no value left.
    have sameDomains : final.domainOf = state.domainOf := by
      rw [propagate_eq_followAll, rules, markovRules] at ran
      split at ran
      · cases ran
        rfl
      split at ran
      · cases ran
        rfl
      · have weightedNonempty := nonempty weighted (by simp)
        have empty := subset_of_followAll_always ran weightedNonempty
        exact absurd ((narrows.nonempty weightedNonempty).of_subset empty) Domain.not_nonempty_empty
    rw [sameDomains]
    exact keeps_of_propagate nonempty ran sameDomains

/-- So does a run of the propagator. -/
theorem keeps_of_run_of_not_ordersItself {propagator : Propagator}
    (notRing : propagator.isRing = false)
    (nonempty : ∀ variableId ∈ propagator.scope, (state.domainOf variableId).Nonempty)
    (ran : propagator.run state = .ok () final)
    (possible : ¬ propagator.OrdersItself final.domainOf) : propagator.Keeps final.domainOf :=
  @keeps_of_propagate_of_not_ordersItself state.counted _ _ notRing nonempty ran possible

/-- An operation changes nothing but its result. -/
theorem eq_of_run_ring {operation : RingOperation} {left right result : VariableId}
    (nonempty : ∀ variableId ∈ (ring operation left right result).scope,
      (state.domainOf variableId).Nonempty)
    (ran : (ring operation left right result).run state = .ok () final) {variableId : VariableId}
    (other : variableId ≠ result) : final.domainOf variableId = state.domainOf variableId := by
  rw [run_eq_followAll] at ran
  have untargeted : ∀ rule ∈ [ringRule operation left right result], variableId ≠ rule.target := by
    intro rule inside
    rwa [List.mem_singleton.mp inside]
  exact (elsewhere_of_followAll ran (nonempty_targets nonempty) untargeted :)

end Propagator

end ConstraintSearch
