import ConstraintSearch.Proofs.Propagation.Consistency
import ConstraintSearch.Search.Potential

/-!
# What steps leave, also when they fail

A step that fails may have narrowed some domains before, so that what holds of successful steps does
not cover it. `Shrinks` collects what holds of the states before and after a step however it ends:
domains only shrink, and the variables that are noted besides the earlier ones have different
domains now. The variable with which a step fails has no value left.
-/

namespace ConstraintSearch

open Narrow

/-! ### Changes that are noted once -/

namespace Changes

/-- Besides, every key that is listed is stamped, so that it is not listed again. -/
structure Precise (changes : Changes) : Prop extends Faithful changes where
  contains_of_mem : ∀ {key : VariableId}, key ∈ changes.order.toList → changes.recorded.contains key
  nodup : changes.order.toList.Nodup

/-- New changes list nothing, so nothing twice. -/
theorem precise_forVariables (count : Nat) : (forVariables count).Precise where
  toFaithful := faithful_forVariables count
  contains_of_mem listed := by cases listed
  nodup := .nil

variable {changes : Changes}

/-- Neither do the changes of a new cycle. -/
theorem Precise.next (precise : changes.Precise) : changes.next.Precise where
  toFaithful := precise.toFaithful.next
  contains_of_mem listed := by cases listed
  nodup := .nil

/-- A key that the stamps have room for is listed just once. -/
theorem Precise.record (precise : changes.Precise) {variableId : VariableId}
    (room : variableId < changes.recorded.capacity) : (changes.record variableId).Precise where
  toFaithful := precise.toFaithful.record variableId
  contains_of_mem {key} listed := by
    rw [Changes.record] at listed ⊢
    split
    · rename_i contained
      rw [if_pos contained] at listed
      exact precise.contains_of_mem listed
    · rename_i new
      rw [if_neg new, Array.toList_push, List.mem_append, List.mem_singleton] at listed
      rw [StampedSet.contains_add, Bool.or_eq_true]
      rcases listed with before | rfl
      · exact .inl (precise.contains_of_mem before)
      · simp [room]
  nodup := by
    rw [Changes.record]
    split
    · exact precise.nodup
    · rename_i new
      rw [Array.toList_push]
      refine List.nodup_append.mpr ⟨precise.nodup, List.pairwise_singleton _ _, ?_⟩
      rintro key listed _ added rfl
      rw [List.mem_singleton.mp added] at listed
      exact new (precise.contains_of_mem listed)

end Changes

/-! ### States before and after -/

/-- What holds of the states before and after a step, whether it succeeds or fails. -/
structure Shrinks (before after : Narrowing) : Prop where
  size_eq : after.domains.size = before.domains.size
  capacity_eq : after.changes.recorded.capacity = before.changes.recorded.capacity
  within : Within after.domainOf before.domainOf
  different : ∀ {variableId}, variableId ∈ after.changes.order.toList →
    variableId ∈ before.changes.order.toList ∨
      after.domainOf variableId ≠ before.domainOf variableId
  precise : before.domains.size ≤ before.changes.recorded.capacity → before.changes.Precise →
    after.changes.Precise

namespace Shrinks

/-- Nothing shrinks where nothing happens. -/
theorem refl (state : Narrowing) : Shrinks state state where
  size_eq := rfl
  capacity_eq := rfl
  within := Within.refl _
  different := .inl
  precise _ := id

/-- A domain that is different after the first step is still different after the second one, as
domains only shrink. -/
theorem trans {first second third : Narrowing} (lower : Shrinks first second)
    (upper : Shrinks second third) : Shrinks first third where
  size_eq := upper.size_eq.trans lower.size_eq
  capacity_eq := upper.capacity_eq.trans lower.capacity_eq
  within := upper.within.trans lower.within
  different {variableId} listed := by
    -- A domain between two equal ones would be equal to both.
    by_cases same : third.domainOf variableId = first.domainOf variableId
    · have sameLower : second.domainOf variableId = first.domainOf variableId :=
        Domain.Subset.antisymm (lower.within variableId) (same ▸ upper.within variableId)
      have sameUpper : third.domainOf variableId = second.domainOf variableId :=
        same.trans sameLower.symm
      rcases upper.different listed with before | changed
      · exact (lower.different before).imp_right (absurd sameLower)
      · exact absurd sameUpper changed
    · exact .inr same
  precise room held := by
    refine upper.precise ?_ (lower.precise room held)
    rwa [lower.size_eq, lower.capacity_eq]

end Shrinks

namespace Table

/-- A variable that does not exist has no values to lose. -/
theorem getD_set_inter (domains : Table Domain) (target other : VariableId) (supported : Domain) :
    (domains.set target (domains.getD target ∅ ∩ supported)).getD other ∅ =
      if other = target then domains.getD target ∅ ∩ supported else domains.getD other ∅ := by
  by_cases inside : target < domains.size
  · exact getD_set other _ _ inside
  · have outside := Nat.le_of_not_lt inside
    rw [set_of_size_le _ outside]
    split
    · rename_i same
      rw [same, getD_of_size_le _ outside]
      exact (Domain.inter_eq_left_iff.mpr fun _ member => absurd member Domain.not_mem_empty).symm
    · rfl

end Table

/-! ### Restrictions and rules -/

namespace Narrow

/-- Setting a domain to a part of it, without noting anything or noting the variable as changed if
it is. -/
theorem shrinks_of_set {state after : Narrowing} {target : VariableId} {supported : Domain}
    (domains : after.domains = state.domains.set target (state.domainOf target ∩ supported))
    (changes : after.changes = state.changes ∨
      after.changes = state.changes.record target ∧ target < state.domains.size ∧
        state.domainOf target ∩ supported ≠ state.domainOf target) : Shrinks state after := by
  have lookup : ∀ other, after.domainOf other =
      if other = target then state.domainOf target ∩ supported else state.domainOf other := by
    intro other
    rw [Narrowing.domainOf, domains]
    exact Table.getD_set_inter ..
  refine ⟨domains ▸ Table.size_set .., ?_, fun other => ?_, fun {other} listed => ?_,
    fun room precise => ?_⟩
  · rcases changes with same | ⟨recorded, -, -⟩
    · rw [same]
    · rw [recorded, Changes.capacity_record]
  · rw [lookup other]
    split
    · rename_i isTarget
      rw [isTarget]
      exact Domain.inter_subset_left _ _
    · exact Domain.Subset.refl _
  · rcases changes with same | ⟨recorded, -, smaller⟩
    · exact .inl (same ▸ listed)
    · rw [recorded] at listed
      rcases Changes.mem_of_mem_order_record listed with before | rfl
      · exact .inl before
      · rw [lookup other, if_pos rfl]
        exact .inr smaller
  · rcases changes with same | ⟨recorded, inside, -⟩
    · rwa [same]
    · rw [recorded]
      exact precise.record (Nat.lt_of_lt_of_le inside room)

/-- A restriction fails exactly when it leaves no value, which is then what the variable has. -/
theorem isEmpty_of_restrict_error {target variableId : VariableId} {supported : Domain}
    {state failed : Narrowing} (ran : restrict target supported state = .error variableId failed) :
    variableId = target ∧ (failed.domainOf variableId).isEmpty := by
  simp only [restrict] at ran
  by_cases empty : (state.domainOf target ∩ supported).isEmpty
  · rw [if_pos empty] at ran
    cases ran
    have atTarget := (Table.getD_set_inter state.domains target target supported).trans (if_pos rfl)
    exact ⟨rfl, (congrArg Domain.isEmpty atTarget).trans empty⟩
  · rw [if_neg empty] at ran
    split at ran <;> cases ran

/-- A restriction notes the variable if its domain is different and still has values. -/
theorem shrinks_restrict (target : VariableId) (supported : Domain) (state : Narrowing) :
    Shrinks state ((restrict target supported).after state) := by
  rw [after_restrict]
  by_cases empty : (state.domainOf target ∩ supported).isEmpty
  · rw [if_pos empty]
    exact shrinks_of_set rfl (.inl rfl)
  rw [if_neg empty]
  by_cases same : state.domainOf target ∩ supported = state.domainOf target
  · rw [if_pos same]
    exact Shrinks.refl state
  · rw [if_neg same]
    have remaining : (state.domainOf target ∩ supported).Nonempty :=
      Domain.isEmpty_eq_false_iff.mp (Bool.eq_false_iff.mpr empty)
    have inside := Table.lt_size_of_nonempty (remaining.of_subset (Domain.inter_subset_left _ _))
    exact shrinks_of_set rfl (.inr ⟨rfl, inside, same⟩)

/-- Shrinking is a trend. -/
theorem trend_shrinks : Trend Shrinks where
  refl := .refl
  trans := .trans
  count state _ := { Shrinks.refl state with }
  restrict := shrinks_restrict

end Narrow

namespace Rule

variable {state failed : Narrowing} {variableId : VariableId}

/-- A rule that fails has left its target without values. -/
theorem isEmpty_of_follow_error {rule : Rule} (ran : rule.follow state = .error variableId failed) :
    variableId = rule.target ∧ (failed.domainOf variableId).isEmpty := by
  rw [follow] at ran
  split at ran
  · cases ran
  · exact isEmpty_of_restrict_error ran

/-- So has the one of a list at which the list fails. -/
theorem isEmpty_of_followAll_error {rules : List Rule}
    (ran : followAll rules state = .error variableId failed) :
    (∃ rule ∈ rules, variableId = rule.target) ∧ (failed.domainOf variableId).isEmpty := by
  induction rules generalizing state with
  | nil => cases ran
  | cons first rest inductionHypothesis =>
    cases firstRan : first.follow state with
    | ok result middle =>
      rw [followAll_cons_of_ok firstRan] at ran
      obtain ⟨⟨rule, inside, isTarget⟩, empty⟩ := inductionHypothesis ran
      exact ⟨⟨rule, List.mem_cons_of_mem _ inside, isTarget⟩, empty⟩
    | error variableId failed =>
      rw [followAll_cons_of_error firstRan] at ran
      cases ran
      obtain ⟨isTarget, empty⟩ := isEmpty_of_follow_error firstRan
      exact ⟨⟨first, List.mem_cons_self, isTarget⟩, empty⟩

end Rule

/-! ### Propagators -/

namespace Propagator

open Rule

/-- However a propagator ends, it shrinks domains at most. -/
theorem shrinks_propagate (propagator : Propagator) (state : Narrowing) :
    Shrinks state (propagator.propagate.after state) :=
  propagator.follows_propagate trend_shrinks state

/-- A propagator fails with one of the variables in its scope, which has no value left. -/
theorem isEmpty_of_propagate_error {propagator : Propagator} {state failed : Narrowing}
    {variableId : VariableId} (ran : propagator.propagate state = .error variableId failed) :
    variableId ∈ propagator.scope ∧ (failed.domainOf variableId).isEmpty := by
  rw [propagate_eq_followAll] at ran
  obtain ⟨⟨rule, inside, rfl⟩, empty⟩ := isEmpty_of_followAll_error ran
  exact ⟨target_mem_scope inside, empty⟩

/-- What a step notes besides the earlier changes: no variable twice, only variables that have other
domains afterwards, and all of them if it succeeds. -/
structure NotesChanges (step : Narrow Unit) (state : Narrowing) : Prop where
  nodup : (step.after state).changes.order.toList.Nodup
  different : ∀ {variableId}, variableId ∈ (step.after state).changes.order.toList →
    variableId ∈ state.changes.order.toList ∨
      (step.after state).domainOf variableId ≠ state.domainOf variableId
  mem_of_ok : ∀ {final}, step state = .ok () final → ∀ {variableId},
    variableId ∈ state.changes.order.toList ∨
      final.domainOf variableId ≠ state.domainOf variableId →
        variableId ∈ final.changes.order.toList

/-- A propagator notes just what it has changed, and everything of it if it succeeds. -/
theorem notesChanges {propagator : Propagator} {state : Narrowing}
    (nonempty : ∀ variableId ∈ propagator.scope, (state.domainOf variableId).Nonempty)
    (precise : state.changes.Precise)
    (room : state.domains.size ≤ state.changes.recorded.capacity) :
    NotesChanges propagator.propagate state where
  nodup := ((shrinks_propagate propagator state).precise room precise).nodup
  different := (shrinks_propagate propagator state).different
  mem_of_ok ran variableId mem := by
    have narrows := narrows_of_propagate nonempty ran
    exact mem.elim narrows.kept (narrows.noted precise.toFaithful)

end Propagator

end ConstraintSearch
