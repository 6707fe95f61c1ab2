import ConstraintSearch.Proofs.Propagation.Rule
import ConstraintSearch.Proofs.Propagation.Support
import Mathlib.Data.List.Find

/-!
# Propagators as rules

Every propagator follows a few rules, which it chooses by the domains it finds. `Propagator.Keeps`
says of a family of domains that these rules admit all of it, and `Propagator.rests_iff_keeps` that
this is the same as running the propagator on the family without any effect. Only the variables in
the scope of a propagator matter to it.
-/

namespace ConstraintSearch

open Narrow Rule

/-! ### Rules of comparisons -/

namespace Comparison

/-- Keeps the values of the left operand that the right one supports. -/
def leftRule (comparison : Comparison) (left right : VariableId) : Rule where
  target := left
  support family := comparison.support (family right)

/-- Keeps the values of the right operand that the left one supports. -/
def rightRule (comparison : Comparison) (left right : VariableId) : Rule where
  target := right
  support family := comparison.converse.support (family left)

/-- The rules of a comparison in the order in which they are followed. -/
def rules (comparison : Comparison) (left right : VariableId) : List Rule :=
  match comparison with
  | eq | lt | lte => [comparison.leftRule left right, comparison.rightRule left right]
  | neq | gt | gte => [comparison.rightRule left right, comparison.leftRule left right]

/-- A comparison has a rule for each of its operands, in either order. -/
theorem mem_rules {comparison : Comparison} {left right : VariableId} {rule : Rule} :
    rule ∈ comparison.rules left right ↔
      rule = comparison.leftRule left right ∨ rule = comparison.rightRule left right := by
  cases comparison <;> simp [rules, or_comm]

/-- Taking a fixed value from the other operand is what the rule of that operand does. -/
theorem propagateUnequal_eq_follow (fixed other : VariableId) (state : Narrowing) :
    propagateUnequal fixed other state = (neq.rightRule fixed other).follow state := by
  simp only [propagateUnequal, Bind.bind, EStateM.bind, domain, follow, rightRule,
    converse, support]
  cases (state.domainOf fixed).solvedValue? <;> rfl

/-- Propagating a comparison is following its rules, as each case of the code follows them in its
own order. -/
theorem propagate_eq_followAll (comparison : Comparison) (left right : VariableId)
    (state : Narrowing) :
    comparison.propagate left right state = followAll (comparison.rules left right) state := by
  have twice : ∀ first second : Rule, followAll [first, second] state =
      (first.follow >>= fun _ => second.follow) state := by
    intro first second
    simp only [Bind.bind, EStateM.bind]
    cases ran : first.follow state with
    | ok result middle => rw [followAll_cons_of_ok ran, followAll_singleton]
    | error variableId failed => rw [followAll_cons_of_error ran]
  have unequal : (do propagateUnequal left right; propagateUnequal right left : Narrow Unit) =
      (neq.rightRule left right).follow >>= fun _ => (neq.leftRule left right).follow := by
    rw [funext (propagateUnequal_eq_follow left right),
      funext (propagateUnequal_eq_follow right left)]
    rfl
  cases comparison with
  | neq => rw [propagate, unequal, rules, twice]
  | eq => exact (twice (eq.leftRule left right) (eq.rightRule left right)).symm
  | lt => exact (twice (lt.leftRule left right) (lt.rightRule left right)).symm
  | lte => exact (twice (lte.leftRule left right) (lte.rightRule left right)).symm
  | gt => exact (twice (gt.rightRule left right) (gt.leftRule left right)).symm
  | gte => exact (twice (gte.rightRule left right) (gte.leftRule left right)).symm

/-- The rules of a reified comparison, which depend on whether the result is fixed and, if not, on
what the operands reject. -/
def reifiedRules (comparison : Comparison) (left right result : VariableId) (family : Family) :
    List Rule :=
  if (family result).isValue 1 then
    comparison.rules left right
  else if (family result).isValue 0 then
    comparison.negate.rules left right
  else if comparison.isRejected (family left) (family right) then
    [always result (.allBut 1)]
  else if comparison.negate.isRejected (family left) (family right) then
    [always result (.allBut 0)]
  else
    []

/-- Propagating a reified comparison is following the rules for the domains that it finds at
first. -/
theorem propagateReified_eq_followAll (comparison : Comparison) (left right result : VariableId)
    (state : Narrowing) : comparison.propagateReified left right result state =
      followAll (comparison.reifiedRules left right result state.domainOf) state := by
  have read : ∀ (variableId : VariableId) (next : Domain → Narrow Unit),
      (domain variableId >>= next) state = next (state.domainOf variableId) state := fun _ _ => rfl
  rw [propagateReified, read, reifiedRules]
  split
  · exact propagate_eq_followAll comparison left right state
  split
  · exact propagate_eq_followAll comparison.negate left right state
  rw [read, read]
  split
  · exact (followAll_always result _ state).symm
  split
  · exact (followAll_always result _ state).symm
  · rfl

end Comparison

/-! ### Rules of propagators -/

namespace Propagator

/-- The rule of an operation: keeps the results that it gives on the operands. -/
def ringRule (operation : RingOperation) (left right result : VariableId) : Rule where
  target := result
  support family := some (operation.apply (family left) (family right))

/-- The rules of a weighted variable: one that admits nothing, if the variable is fixed to a value
without weight. -/
def markovRules (weighted : VariableId) (matrix : MarkovMatrix VariableId) (family : Family) :
    List Rule :=
  match (family weighted).solvedValue? with
  | none => []
  | some value =>
    if 0.0 < matrix.weightOf value (family weighted) (fun guard => (family guard).isValue 1) then
      []
    else
      [always weighted ∅]

/-- The rules that a propagator follows on the domains of a family. -/
def rules (propagator : Propagator) (family : Family) : List Rule :=
  match propagator with
  | relation comparison left right => comparison.rules left right
  | reified comparison left right result => comparison.reifiedRules left right result family
  | ring operation left right result => [ringRule operation left right result]
  | markov weighted matrix => markovRules weighted matrix family

/-- A weighted variable is checked by following its rule. -/
theorem propagateMarkov_eq_followAll (weighted : VariableId) (matrix : MarkovMatrix VariableId)
    (state : Narrowing) :
    propagateMarkov weighted matrix state = followAll
      (markovRules weighted matrix state.domainOf) state := by
  simp only [propagateMarkov, markovRules]
  cases (state.domainOf weighted).solvedValue? with
  | none => rfl
  | some value =>
    by_cases positive : 0.0 < matrix.weightOf value (state.domainOf weighted)
        fun guard => (state.domainOf guard).isValue 1
    · simp only [positive, if_true]
      rfl
    · simp only [positive, if_false]
      exact (followAll_always weighted ∅ state).symm

/-- Every propagator follows the rules that it has for the domains found at first. -/
theorem propagate_eq_followAll (propagator : Propagator) (state : Narrowing) :
    propagator.propagate state = followAll (propagator.rules state.domainOf) state := by
  cases propagator with
  | relation comparison left right => exact comparison.propagate_eq_followAll left right state
  | reified comparison left right result =>
    exact comparison.propagateReified_eq_followAll left right result state
  | ring operation left right result =>
    exact (followAll_singleton (ringRule operation left right result) state).symm
  | markov weighted matrix => exact propagateMarkov_eq_followAll weighted matrix state

/-- A run is counted before its rules are followed. -/
theorem run_eq_followAll (propagator : Propagator) (state : Narrowing) :
    propagator.run state = followAll (propagator.rules state.domainOf) state.counted :=
  propagator.propagate_eq_followAll state.counted

/-! ### Scopes -/

/-- Rules restrict variables in the scope only. -/
theorem target_mem_scope {propagator : Propagator} {family : Family} {rule : Rule}
    (inside : rule ∈ propagator.rules family) : rule.target ∈ propagator.scope := by
  have operand : ∀ {comparison : Comparison} {left right : VariableId},
      rule ∈ comparison.rules left right → rule.target = left ∨ rule.target = right := by
    intro comparison left right inside
    rcases Comparison.mem_rules.mp inside with rfl | rfl
    · exact .inl rfl
    · exact .inr rfl
  cases propagator with
  | relation comparison left right =>
    exact mem_scope_relation.mpr (operand inside)
  | reified comparison left right result =>
    simp only [rules, Comparison.reifiedRules] at inside
    have isResult : ∀ excluded, rule ∈ [always result (.allBut excluded)] →
        rule.target = result := by
      intro excluded member
      rw [List.mem_singleton.mp member, always]
    rw [mem_scope_reified]
    split at inside
    · exact (operand inside).imp_right .inl
    · split at inside
      · exact (operand inside).imp_right .inl
      · split at inside
        · exact .inr (.inr (isResult 1 inside))
        · split at inside
          · exact .inr (.inr (isResult 0 inside))
          · cases inside
  | ring operation left right result =>
    rw [List.mem_singleton.mp inside]
    simp [ringRule]
  | markov weighted matrix =>
    simp only [rules, markovRules] at inside
    split at inside
    · cases inside
    · split at inside
      · cases inside
      · rw [List.mem_singleton.mp inside, always]
        exact mem_scope_markov.mpr (.inl rfl)

/-- Which row is active depends on its guards only. -/
theorem activeRow?_congr {Guard : Type} (matrix : MarkovMatrix Guard) {first second : Guard → Bool}
    (agree : ∀ guard ∈ matrix.rows.filterMap MarkovRow.guard, first guard = second guard) :
    matrix.activeRow? first = matrix.activeRow? second := by
  have sameRow : matrix.rows.find? (fun row => row.guard.all first) =
      matrix.rows.find? (fun row => row.guard.all second) := by
    refine List.find?_congr fun row inside => ?_
    cases guarded : row.guard with
    | none => rfl
    | some guard => exact agree guard (List.mem_filterMap.mpr ⟨row, inside, guarded⟩)
  rw [MarkovMatrix.activeRow?, MarkovMatrix.activeRow?, sameRow]

section Agreement

variable {propagator : Propagator} {first second : Family}
  (agree : ∀ variableId ∈ propagator.scope, first variableId = second variableId)

include agree

/-- Which rules a propagator has depends on the domains in its scope only. -/
theorem rules_congr : propagator.rules first = propagator.rules second := by
  cases propagator with
  | relation comparison left right => rfl
  | reified comparison left right result =>
    have atLeft := agree left (by simp)
    have atRight := agree right (by simp)
    have atResult := agree result (by simp)
    simp only [rules, Comparison.reifiedRules, atLeft, atRight, atResult]
  | ring operation left right result => rfl
  | markov weighted matrix =>
    have atWeighted := agree weighted (by simp)
    have sameRow : (matrix.activeRow? fun guard => (first guard).isValue 1) =
        matrix.activeRow? fun guard => (second guard).isValue 1 := by
      refine activeRow?_congr matrix fun guard inside => ?_
      rw [agree guard (mem_scope_markov.mpr (.inr inside))]
    have sameWeight : ∀ value, matrix.weightOf value (second weighted)
        (fun guard => (first guard).isValue 1) = matrix.weightOf value (second weighted)
        fun guard => (second guard).isValue 1 := by
      intro value
      rw [MarkovMatrix.weightOf, MarkovMatrix.weightOf, sameRow]
    simp only [rules, markovRules, atWeighted, sameWeight]

/-- So do the values that its rules support. -/
theorem support_congr {rule : Rule} {family : Family} (inside : rule ∈ propagator.rules family) :
    rule.support first = rule.support second := by
  have ofComparison : ∀ {comparison : Comparison} {left right : VariableId},
      left ∈ propagator.scope → right ∈ propagator.scope → rule ∈ comparison.rules left right →
        rule.support first = rule.support second := by
    intro comparison left right leftInside rightInside inside
    rcases Comparison.mem_rules.mp inside with rfl | rfl
    · simp only [Comparison.leftRule, agree right rightInside]
    · simp only [Comparison.rightRule, agree left leftInside]
  cases propagator with
  | relation comparison left right =>
    exact ofComparison (by simp) (by simp) inside
  | reified comparison left right result =>
    have leftInside : left ∈ (reified comparison left right result).scope := by simp
    have rightInside : right ∈ (reified comparison left right result).scope := by simp
    simp only [rules, Comparison.reifiedRules] at inside
    split at inside
    · exact ofComparison leftInside rightInside inside
    · split at inside
      · exact ofComparison leftInside rightInside inside
      · split at inside
        · rw [List.mem_singleton.mp inside, always]
        · split at inside
          · rw [List.mem_singleton.mp inside, always]
          · cases inside
  | ring operation left right result =>
    have atLeft := agree left (by simp)
    have atRight := agree right (by simp)
    rw [List.mem_singleton.mp inside]
    simp only [ringRule, atLeft, atRight]
  | markov weighted matrix =>
    simp only [rules, markovRules] at inside
    split at inside
    · cases inside
    · split at inside
      · cases inside
      · rw [List.mem_singleton.mp inside, always]

end Agreement

/-! ### Domains that a propagator keeps -/

/-- The rules that the propagator follows on the family admit all of it. -/
def Keeps (propagator : Propagator) (family : Family) : Prop :=
  ∀ rule ∈ propagator.rules family, rule.Keeps family

/-- So does what it keeps. -/
theorem Keeps.congr {propagator : Propagator} {first second : Family}
    (keeps : propagator.Keeps first)
    (agree : ∀ variableId ∈ propagator.scope, first variableId = second variableId) :
    propagator.Keeps second := by
  intro rule inside value member supported support
  rw [← rules_congr agree] at inside
  rw [← agree _ (target_mem_scope inside)] at member
  exact keeps rule inside value member supported ((support_congr agree inside).trans support)

/-- Running the propagator on the domains succeeds and leaves them as they are. -/
def Rests (propagator : Propagator) (domains : Table Domain) : Prop :=
  ∀ state : Narrowing, state.domains = domains →
    ∃ final, propagator.run state = .ok () final ∧ final.domains = domains

end Propagator

/-- The family of the domains in a table, where variables that do not exist have no values. -/
def familyOf (domains : Table Domain) : Family :=
  fun variableId => domains.getD variableId ∅

namespace Propagator

variable {propagator : Propagator} {state final : Narrowing}

/-- The domains that the rules restrict have values, as those in the scope do. -/
theorem nonempty_targets {family : Family}
    (nonempty : ∀ variableId ∈ propagator.scope, (family variableId).Nonempty) :
    ∀ rule ∈ propagator.rules family, (family rule.target).Nonempty :=
  fun rule inside => nonempty rule.target (target_mem_scope inside)

/-- A propagator that succeeds narrows domains. -/
theorem narrows_of_propagate (nonempty : ∀ variableId ∈ propagator.scope,
    (state.domainOf variableId).Nonempty) (ran : propagator.propagate state = .ok () final) :
      Narrows state final := by
  rw [propagate_eq_followAll] at ran
  exact narrows_of_followAll ran (nonempty_targets nonempty)

/-- So does a run of it. -/
theorem narrows_of_run (nonempty : ∀ variableId ∈ propagator.scope,
    (state.domainOf variableId).Nonempty) (ran : propagator.run state = .ok () final) :
      Narrows state final :=
  (Narrows.of_counted state).trans (@narrows_of_propagate _ state.counted _ nonempty ran)

/-- Only variables in the scope change. -/
theorem elsewhere_of_propagate
    (nonempty : ∀ variableId ∈ propagator.scope, (state.domainOf variableId).Nonempty)
    (ran : propagator.propagate state = .ok () final) {variableId : VariableId}
    (outside : variableId ∉ propagator.scope) :
    final.domainOf variableId = state.domainOf variableId := by
  rw [propagate_eq_followAll] at ran
  have untargeted : ∀ rule ∈ propagator.rules state.domainOf, variableId ≠ rule.target := by
    rintro rule inside rfl
    exact outside (target_mem_scope inside)
  exact elsewhere_of_followAll ran (nonempty_targets nonempty) untargeted

/-- A run leaves the variables outside the scope as they are. -/
theorem elsewhere_of_run (nonempty : ∀ variableId ∈ propagator.scope,
    (state.domainOf variableId).Nonempty)
    (ran : propagator.run state = .ok () final) {variableId : VariableId}
    (outside : variableId ∉ propagator.scope) :
    final.domainOf variableId = state.domainOf variableId :=
  @elsewhere_of_propagate _ state.counted _ nonempty ran _ outside

/-- A propagator that changes nothing keeps what it found, as each of its rules admitted it. -/
theorem keeps_of_propagate (nonempty : ∀ variableId ∈ propagator.scope,
    (state.domainOf variableId).Nonempty)
    (ran : propagator.propagate state = .ok () final) (same : final.domainOf = state.domainOf) :
    propagator.Keeps state.domainOf := by
  rw [propagate_eq_followAll] at ran
  exact keeps_of_followAll ran (nonempty_targets nonempty) same

/-- So does a run that changes nothing. -/
theorem keeps_of_run (nonempty : ∀ variableId ∈ propagator.scope,
    (state.domainOf variableId).Nonempty)
    (ran : propagator.run state = .ok () final) (same : final.domainOf = state.domainOf) :
    propagator.Keeps state.domainOf :=
  @keeps_of_propagate _ state.counted _ nonempty ran same

/-- A propagator changes nothing about domains that it keeps. -/
theorem propagate_of_keeps (nonempty : ∀ variableId ∈ propagator.scope,
    (state.domainOf variableId).Nonempty) (keeps : propagator.Keeps state.domainOf) :
      propagator.propagate state = .ok () state := by
  rw [propagate_eq_followAll]
  exact followAll_of_keeps (nonempty_targets nonempty) keeps

/-- A run on such domains only counts itself. -/
theorem run_of_keeps (nonempty : ∀ variableId ∈ propagator.scope,
    (state.domainOf variableId).Nonempty) (keeps : propagator.Keeps state.domainOf) :
      propagator.run state = .ok () state.counted :=
  @propagate_of_keeps _ state.counted nonempty keeps

/-- A propagator rests exactly on the domains that it keeps. -/
theorem rests_iff_keeps {domains : Table Domain}
    (nonempty : ∀ variableId ∈ propagator.scope, (familyOf domains variableId).Nonempty) :
    propagator.Rests domains ↔ propagator.Keeps (familyOf domains) := by
  constructor
  · intro rests
    generalize isState : (⟨domains, .forVariables 0, 0, {}⟩ : Narrowing) = state
    have sameDomains : state.domains = domains := isState ▸ rfl
    subst sameDomains
    obtain ⟨final, ran, same⟩ := rests state rfl
    apply keeps_of_run nonempty ran
    funext variableId
    simp only [Narrowing.domainOf, same]
  · rintro keeps state rfl
    exact ⟨_, run_of_keeps nonempty keeps, rfl⟩

end Propagator

end ConstraintSearch
