import ConstraintSearch.Domain.Size
import ConstraintSearch.Search.Narrowing

/-!
# What propagators can do to a state

A propagator does nothing but restrict domains. So a relation between the states before and after
that holds of a single restriction, and adds up, holds of every propagator. One such relation is
that the potential does not rise: the number of values that all domains have together, plus the
number of changes noted. Since a cycle of propagation uses up the changes noted before it, the
potential bounds the number of cycles.
-/

namespace ConstraintSearch

/-- The number of values that all domains have together. -/
def valuesLeft (domains : Table Domain) : Nat :=
  total Domain.size domains.toList

/-- The number of values left and of changes noted. -/
def Narrowing.potential (state : Narrowing) : Nat :=
  valuesLeft state.domains + state.changes.order.size

/-- Replacing the domain of a variable that exists changes the number of values left by the
difference of the sizes. -/
theorem valuesLeft_set {domains : Table Domain} {variableId : VariableId} (domain : Domain)
    (inside : variableId < domains.size) :
    valuesLeft (domains.set variableId domain) + (domains.getD variableId ∅).size =
      valuesLeft domains + domain.size := by
  have inList : variableId < domains.entries.toList.length := inside
  have replaced := total_set Domain.size domain inList
  have looked : domains.getD variableId ∅ = domains.entries.toList[variableId] := by
    rw [Table.getD, Table.get?, Array.getElem?_eq_getElem inside]
    rfl
  rw [looked]
  simpa only [valuesLeft, Table.set, Table.toList, Array.toList_setIfInBounds] using replaced

/-- Replacing the domain of a variable by a part of it does not raise the number of values left. -/
theorem valuesLeft_set_le {domains : Table Domain} {variableId : VariableId} {domain : Domain}
    (smaller : domain.size ≤ (domains.getD variableId ∅).size) :
    valuesLeft (domains.set variableId domain) ≤ valuesLeft domains := by
  by_cases inside : variableId < domains.size
  · have := valuesLeft_set domain inside
    omega
  · have : domains.set variableId domain = domains := by
      rw [Table.set, Array.setIfInBounds_eq_of_size_le (Nat.le_of_not_lt inside)]
    exact Nat.le_of_eq (congrArg valuesLeft this)

/-- Replacing the domain of a variable by a smaller one lowers the number of values left. -/
theorem valuesLeft_set_lt {domains : Table Domain} {variableId : VariableId} {domain : Domain}
    (smaller : domain.size < (domains.getD variableId ∅).size) :
    valuesLeft (domains.set variableId domain) < valuesLeft domains := by
  have inside : variableId < domains.size := by
    refine Nat.lt_of_not_le fun outside => ?_
    have missing : domains.getD variableId ∅ = ∅ := by
      rw [Table.getD, (domains.get?_eq_none_iff variableId).mpr outside]
      rfl
    rw [missing] at smaller
    exact absurd smaller (Nat.not_lt_zero _)
  have := valuesLeft_set domain inside
  omega

namespace Narrow

/-- The state in which a step ends, whether it fails or not. -/
def after {α : Type} (step : Narrow α) (state : Narrowing) : Narrowing :=
  match step state with
  | .ok _ after => after
  | .error _ after => after

/-- A step that succeeds ends where it says. -/
theorem after_of_ok {α : Type} {step : Narrow α} {state final : Narrowing} {result : α}
    (ran : step state = .ok result final) : step.after state = final := by
  rw [after, ran]

/-- So does one that fails. -/
theorem after_of_error {α : Type} {step : Narrow α} {state final : Narrowing}
    {variableId : VariableId} (failed : step state = .error variableId final) :
    step.after state = final := by
  rw [after, failed]

/-- Returning a result leaves the state as it is. -/
@[simp] theorem after_pure {α : Type} (result : α) (state : Narrowing) :
    (pure result : Narrow α).after state = state :=
  rfl

/-- Steps in a row end where the last one does that is taken. -/
theorem after_bind {α β : Type} (step : Narrow α) (next : α → Narrow β) (state : Narrowing) :
    (step >>= next).after state =
      match step state with
      | .ok result middle => (next result).after middle
      | .error _ failed => failed := by
  simp only [after, Bind.bind, EStateM.bind]
  cases step state <;> rfl

/-- A relation between the states before and after a step which holds when nothing happens, when a
run is counted and when a domain is restricted, and which adds up. -/
structure Trend (Along : Narrowing → Narrowing → Prop) : Prop where
  refl : ∀ state, Along state state
  trans : ∀ {first second third}, Along first second → Along second third → Along first third
  count : ∀ state runs, Along state { state with runs }
  restrict : ∀ variableId supported state,
    Along state ((restrict variableId supported).after state)

/-- Every run of the step follows the relation. -/
def Follows {α : Type} (step : Narrow α) (Along : Narrowing → Narrowing → Prop) : Prop :=
  ∀ state, Along state (step.after state)

namespace Trend

variable {Along : Narrowing → Narrowing → Prop}

/-- Nothing happens where a result is returned. -/
theorem follows_pure {α : Type} (trend : Trend Along) (result : α) :
    Follows (pure result : Narrow α) Along :=
  trend.refl

/-- Nothing happens where a domain is read. -/
theorem follows_domain (trend : Trend Along) (variableId : VariableId) :
    Follows (domain variableId) Along :=
  trend.refl

/-- Steps in a row follow the relation, since it adds up, also if the second one fails. -/
theorem follows_bind {α β : Type} (trend : Trend Along) {step : Narrow α} {next : α → Narrow β}
    (first : Follows step Along) (second : ∀ result, Follows (next result) Along) :
    Follows (step >>= next) Along := by
  intro state
  have along := first state
  rw [after] at along
  rw [after_bind]
  cases result : step state with
  | ok value middle =>
    rw [result] at along
    exact trend.trans along (second value middle)
  | error variableId failed =>
    rw [result] at along
    exact along

/-- So do the steps for the entries of a list. -/
theorem follows_forM {α : Type} (trend : Trend Along) {step : α → Narrow Unit}
    (follows : ∀ entry, Follows (step entry) Along) (entries : List α) :
    Follows (entries.forM step) Along := by
  induction entries with
  | nil => exact trend.follows_pure ()
  | cons head rest inductionHypothesis =>
    exact trend.follows_bind (follows head) fun _ => inductionHypothesis

end Trend

/-- A relation between the domains before and after a step is a relation between the states. -/
def OnDomains (Along : Table Domain → Table Domain → Prop) (before after : Narrowing) : Prop :=
  Along before.domains after.domains

end Narrow

open Narrow

variable {Along : Narrowing → Narrowing → Prop}

/-- A fixed value is taken from the other operand by one restriction. -/
theorem Comparison.follows_propagateUnequal (trend : Trend Along) (fixed other : VariableId) :
    Follows (propagateUnequal fixed other) Along := by
  refine trend.follows_bind (trend.follows_domain fixed) fun domain => ?_
  split
  · exact trend.follows_pure ()
  · exact trend.restrict _ _

/-- Every comparison restricts one operand and then the other. -/
theorem Comparison.follows_propagate (trend : Trend Along) (comparison : Comparison)
    (left right : VariableId) : Follows (comparison.propagate left right) Along := by
  cases comparison with
  | neq =>
    exact trend.follows_bind (follows_propagateUnequal trend left right) fun _ =>
      follows_propagateUnequal trend right left
  | _ =>
    exact trend.follows_bind (trend.follows_domain _) fun _ =>
      trend.follows_bind (trend.restrict _ _) fun _ =>
        trend.follows_bind (trend.follows_domain _) fun _ => trend.restrict _ _

/-- A reified comparison restricts its operands or its result. -/
theorem Comparison.follows_propagateReified (trend : Trend Along) (comparison : Comparison)
    (left right result : VariableId) :
    Follows (comparison.propagateReified left right result) Along := by
  refine trend.follows_bind (trend.follows_domain _) fun resultDomain => ?_
  split
  · exact comparison.follows_propagate trend left right
  · split
    · exact comparison.negate.follows_propagate trend left right
    · refine trend.follows_bind (trend.follows_domain _) fun leftDomain =>
        trend.follows_bind (trend.follows_domain _) fun rightDomain => ?_
      split
      · exact trend.restrict _ _
      · split
        · exact trend.restrict _ _
        · exact trend.follows_pure _

/-- A weighted variable is restricted at most. -/
theorem Propagator.follows_propagateMarkov (trend : Trend Along) (weighted : VariableId)
    (matrix : MarkovMatrix VariableId) : Follows (propagateMarkov weighted matrix) Along := by
  intro state
  have restricted := trend.restrict weighted ∅ state
  have unchanged := trend.refl state
  simp only [after, propagateMarkov] at restricted unchanged ⊢
  cases (state.domainOf weighted).solvedValue? with
  | none => exact unchanged
  | some value =>
    by_cases positive : 0.0 < matrix.weightOf value (state.domainOf weighted)
        fun guard => (state.domainOf guard).isValue 1
    · simpa only [positive, if_true] using unchanged
    · simpa only [positive, if_false] using restricted

/-- Every propagator does nothing but restrict domains. -/
theorem Propagator.follows_propagate (trend : Trend Along) (propagator : Propagator) :
    Follows propagator.propagate Along := by
  cases propagator with
  | relation comparison left right => exact comparison.follows_propagate trend left right
  | reified comparison left right result =>
    exact comparison.follows_propagateReified trend left right result
  | ring operation left right result =>
    exact trend.follows_bind (trend.follows_domain _) fun _ =>
      trend.follows_bind (trend.follows_domain _) fun _ => trend.restrict _ _
  | markov weighted matrix => exact follows_propagateMarkov trend weighted matrix

/-- Every propagator follows every trend. -/
theorem Propagator.follows_run (trend : Trend Along) (propagator : Propagator) :
    Follows propagator.run Along :=
  trend.follows_bind (fun state => trend.count state _) fun _ => propagator.follows_propagate trend

/-! ### Two trends -/

/-- What a restriction does to the state: it sets the domain to an intersection, which is noted if
it differs and is not empty. -/
theorem Narrow.after_restrict (variableId : VariableId) (supported : Domain) (state : Narrowing) :
    (restrict variableId supported).after state =
      if (state.domainOf variableId ∩ supported).isEmpty then
        { state with
          domains := state.domains.set variableId (state.domainOf variableId ∩ supported) }
      else if state.domainOf variableId ∩ supported = state.domainOf variableId then
        state
      else
        { state with
          domains := state.domains.set variableId (state.domainOf variableId ∩ supported)
          changes := state.changes.record variableId } := by
  simp only [after, restrict]
  by_cases empty : (state.domainOf variableId ∩ supported).isEmpty
  · simp [empty]
  · by_cases same : state.domainOf variableId ∩ supported = state.domainOf variableId
    · simp only [same]
      split <;> rename_i ran <;> split at ran <;> simp_all
    · simp [empty, same]

/-- No step of a propagator raises the number of values left. -/
theorem trend_valuesLeft :
    Trend (OnDomains fun before after => valuesLeft after ≤ valuesLeft before) where
  refl _ := Nat.le_refl _
  trans first second := Nat.le_trans second first
  count _ _ := Nat.le_refl _
  restrict variableId supported state := by
    have smaller := valuesLeft_set_le
      (Domain.size_inter_le (state.domainOf variableId) supported)
    rw [after_restrict, OnDomains]
    split
    · exact smaller
    · split
      · exact Nat.le_refl _
      · exact smaller

/-- No step of a propagator raises the potential. -/
theorem trend_potential : Trend fun before after => after.potential ≤ before.potential where
  refl _ := Nat.le_refl _
  trans first second := Nat.le_trans second first
  count _ _ := Nat.le_refl _
  restrict variableId supported state := by
    rw [after_restrict]
    split
    · exact Nat.add_le_add_right
        (valuesLeft_set_le (Domain.size_inter_le (state.domainOf variableId) supported)) _
    · split
      · exact Nat.le_refl _
      · rename_i changed
        have : valuesLeft (state.domains.set variableId (state.domainOf variableId ∩ supported)) <
            valuesLeft state.domains := valuesLeft_set_lt (Domain.size_inter_lt changed)
        have := state.changes.size_order_record_le variableId
        simp only [Narrowing.potential]
        omega

end ConstraintSearch
