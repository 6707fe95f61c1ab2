import ConstraintSearch.Proofs.Domain.Order
import ConstraintSearch.Search.Narrowing

/-!
# States that narrow

While propagators run, domains only shrink, no domain becomes empty without a failure, and every
domain that shrinks is noted as changed. `Narrows` collects what can be said of the states before
and after any number of successful steps.
-/

namespace ConstraintSearch

/-! ### Noted changes -/

namespace Changes

/-- No stamp is ahead of the current epoch, and every key that is stamped with it is listed, so that
a key which is not listed can still be noted. -/
structure Faithful (changes : Changes) : Prop where
  timely : changes.recorded.Timely
  listed : ∀ {key : VariableId}, changes.recorded.contains key → key ∈ changes.order.toList

/-- New changes are faithful, as nothing is stamped with the first epoch. -/
theorem faithful_forVariables (count : Nat) : (forVariables count).Faithful where
  timely := StampedSet.timely_withCapacity count
  listed := by
    intro key contained
    simp only [forVariables, StampedSet.withCapacity, StampedSet.contains, Array.getElem?_replicate]
      at contained
    split at contained <;> simp at contained

/-- So are changes of a new cycle, since no stamp is as late as the next epoch or the stamps are
gone. -/
theorem Faithful.next {changes : Changes} (faithful : changes.Faithful) :
    changes.next.Faithful where
  timely := faithful.timely.next
  listed {key} contained := by
    rw [Changes.next, faithful.timely.contains_next] at contained
    cases contained

/-- A noted variable is listed, also if it was noted before. -/
theorem mem_order_record {changes : Changes} (faithful : changes.Faithful)
    (variableId : VariableId) : variableId ∈ (changes.record variableId).order.toList := by
  rw [record]
  split
  · rename_i contained
    exact faithful.listed contained
  · simp

/-- Those listed before stay listed. -/
theorem mem_order_record_of_mem {changes : Changes} {variableId : VariableId} (other : VariableId)
    (listed : variableId ∈ changes.order.toList) :
    variableId ∈ (changes.record other).order.toList := by
  rw [record]
  split
  · exact listed
  · rw [Array.toList_push]
    exact List.mem_append_left _ listed

/-- No other variable is listed. -/
theorem mem_of_mem_order_record {changes : Changes} {variableId other : VariableId}
    (listed : other ∈ (changes.record variableId).order.toList) :
    other ∈ changes.order.toList ∨ other = variableId := by
  rw [record] at listed
  split at listed
  · exact .inl listed
  · rwa [Array.toList_push, List.mem_append, List.mem_singleton] at listed

/-- Noting a variable makes no room. -/
theorem capacity_record (changes : Changes) (variableId : VariableId) :
    (changes.record variableId).recorded.capacity = changes.recorded.capacity := by
  rw [record]
  split
  · rfl
  · simp [StampedSet.capacity, StampedSet.add]

/-- Noting a variable keeps changes faithful. -/
theorem Faithful.record {changes : Changes} (faithful : changes.Faithful)
    (variableId : VariableId) : (changes.record variableId).Faithful := by
  by_cases contained : changes.recorded.contains variableId
  · simpa only [Changes.record, contained, if_true] using faithful
  · have recorded : changes.record variableId =
        ⟨changes.recorded.add variableId, changes.order.push variableId⟩ := by
      simp only [Changes.record, contained, Bool.false_eq_true, if_false]
    rw [recorded]
    refine ⟨faithful.timely.add variableId, fun {key} stamped => ?_⟩
    · rw [StampedSet.contains_add, Bool.or_eq_true] at stamped
      rw [Array.toList_push]
      rcases stamped with before | added
      · exact List.mem_append_left _ (faithful.listed before)
      · simp only [Bool.and_eq_true, beq_iff_eq] at added
        simp [added.1]

end Changes

/-! ### Tables of domains -/

namespace Table

/-- An entry that is there is replaced, and all others stay. -/
theorem getD_set {α : Type} {table : Table α} {key : Nat} (other : Nat) (entry substitute : α)
    (inside : key < table.size) :
    (table.set key entry).getD other substitute = if other = key then entry
      else table.getD other substitute := by
  rw [getD, get?_set]
  by_cases same : key = other
  · subst same
    obtain ⟨former, found⟩ := Option.isSome_iff_exists.mp ((table.get?_isSome_iff key).mpr inside)
    simp [found]
  · rw [if_neg same, if_neg (Ne.symm same), getD]

/-- Beyond the end of a table there is only the substitute. -/
theorem getD_of_size_le {α : Type} {table : Table α} {key : Nat} (substitute : α)
    (outside : table.size ≤ key) : table.getD key substitute = substitute := by
  rw [getD, (table.get?_eq_none_iff key).mpr outside, Option.getD_none]

/-- Only variables that exist have values. -/
theorem lt_size_of_nonempty {domains : Table Domain} {variableId : VariableId}
    (nonempty : (domains.getD variableId ∅).Nonempty) : variableId < domains.size := by
  apply Nat.lt_of_not_le
  intro outside
  rw [Table.getD_of_size_le _ outside] at nonempty
  exact Domain.not_nonempty_empty nonempty

/-- Nothing is set beyond the end. -/
theorem set_of_size_le {α : Type} {table : Table α} {key : Nat} (entry : α)
    (outside : table.size ≤ key) : table.set key entry = table := by
  rw [set, Array.setIfInBounds_eq_of_size_le outside]

end Table

namespace Narrowing

/-- One more propagator has run. -/
def counted (state : Narrowing) : Narrowing :=
  { state with runs := state.runs + 1 }

end Narrowing

/-! ### Successful steps -/

/-- What holds of the states before and after successful steps of propagators. -/
structure Narrows (before after : Narrowing) : Prop where
  size_eq : after.domains.size = before.domains.size
  subset : ∀ variableId, after.domainOf variableId ⊆ before.domainOf variableId
  nonempty : ∀ {variableId}, (before.domainOf variableId).Nonempty →
    (after.domainOf variableId).Nonempty
  faithful : before.changes.Faithful → after.changes.Faithful
  kept : ∀ {variableId}, variableId ∈ before.changes.order.toList →
    variableId ∈ after.changes.order.toList
  noted : before.changes.Faithful → ∀ {variableId},
    after.domainOf variableId ≠ before.domainOf variableId → variableId ∈ after.changes.order.toList

namespace Narrows

/-- A state narrows to itself. -/
theorem refl (state : Narrowing) : Narrows state state where
  size_eq := rfl
  subset _ := Domain.Subset.refl _
  nonempty := id
  faithful := id
  kept := id
  noted _ _ different := absurd rfl different

/-- Counting a run changes nothing that matters to the domains. -/
theorem of_counted (state : Narrowing) : Narrows state state.counted where
  size_eq := rfl
  subset _ := Domain.Subset.refl _
  nonempty := id
  faithful := id
  kept := id
  noted _ _ different := absurd rfl different

/-- States narrow step by step. -/
theorem trans {first second third : Narrowing} (lower : Narrows first second)
    (upper : Narrows second third) : Narrows first third where
  size_eq := upper.size_eq.trans lower.size_eq
  subset variableId := Domain.Subset.trans (upper.subset variableId) (lower.subset variableId)
  nonempty held := upper.nonempty (lower.nonempty held)
  faithful held := upper.faithful (lower.faithful held)
  kept listed := upper.kept (lower.kept listed)
  noted held variableId different := by
    by_cases same : second.domainOf variableId = first.domainOf variableId
    · exact upper.noted (lower.faithful held) (same ▸ different)
    · exact upper.kept (lower.noted held same)

/-- A fixed variable stays as it is. -/
theorem eq_of_solvedValue? {before after : Narrowing} (narrows : Narrows before after)
    {variableId : VariableId} {only : Int}
    (solved : (before.domainOf variableId).solvedValue? = some only) :
    after.domainOf variableId = before.domainOf variableId :=
  Domain.eq_of_subset_of_solvedValue? (narrows.nonempty ⟨only, Domain.mem_of_solvedValue? solved⟩)
    (narrows.subset variableId) solved

/-- A domain in between two equal ones is equal to them. -/
theorem eq_of_eq {first second third : Narrowing} (lower : Narrows first second)
    (upper : Narrows second third) {variableId : VariableId}
    (same : third.domainOf variableId = first.domainOf variableId) :
    second.domainOf variableId = first.domainOf variableId :=
  Domain.Subset.antisymm (lower.subset variableId) (same ▸ upper.subset variableId)

end Narrows

namespace Narrow

/-- A restriction fails when no value is supported, does nothing when all are, and otherwise sets
the domain to the supported values and notes the change. -/
theorem restrict_cases {state : Narrowing} {target : VariableId} (supported : Domain)
    (nonempty : (state.domainOf target).Nonempty) :
    ((∃ failed, restrict target supported state = .error target failed) ∧
        ∀ value ∈ state.domainOf target, ¬ value ∈ supported) ∨
      (restrict target supported state = .ok () state ∧ state.domainOf target ⊆ supported) ∨
      ∃ after, restrict target supported state = .ok () after ∧ Narrows state after ∧
        after.domainOf target = state.domainOf target ∩ supported ∧
        ∀ other, other ≠ target → after.domainOf other = state.domainOf other := by
  simp only [restrict]
  by_cases empty : (state.domainOf target ∩ supported).isEmpty
  · refine .inl ⟨⟨_, if_pos empty⟩, fun value member inside => ?_⟩
    exact Domain.isEmpty_iff.mp empty value (Domain.mem_inter.mpr ⟨member, inside⟩)
  rw [if_neg empty]
  by_cases same : state.domainOf target ∩ supported = state.domainOf target
  · rw [if_pos same]
    exact .inr (.inl ⟨rfl, Domain.inter_eq_left_iff.mp same⟩)
  rw [if_neg same]
  have remaining : (state.domainOf target ∩ supported).Nonempty :=
    Domain.isEmpty_eq_false_iff.mp (Bool.eq_false_iff.mpr empty)
  -- Some values go and some stay: only this case writes a domain and notes the change.
  refine .inr (.inr ⟨_, rfl, ?_⟩)
  generalize isAfter : { state with
    domains := state.domains.set target (state.domainOf target ∩ supported)
    changes := state.changes.record target } = after
  have sizes : after.domains.size = state.domains.size := isAfter ▸ Table.size_set ..
  have changes : after.changes = state.changes.record target := isAfter ▸ rfl
  have lookup : ∀ other, after.domainOf other =
      if other = target then state.domainOf target ∩ supported else state.domainOf other :=
        fun other =>
    isAfter ▸ Table.getD_set other _ _ (Table.lt_size_of_nonempty nonempty)
  have atTarget : after.domainOf target = state.domainOf target ∩ supported :=
    (lookup target).trans (if_pos rfl)
  have elsewhere : ∀ other, other ≠ target → after.domainOf other = state.domainOf other :=
    fun other different => (lookup other).trans (if_neg different)
  refine ⟨⟨sizes, fun variableId => ?_, fun {variableId} held => ?_, fun held =>
    changes ▸ held.record target, fun listed => changes ▸
      Changes.mem_order_record_of_mem target listed, fun held variableId different => ?_⟩,
    atTarget, elsewhere⟩
  · by_cases isTarget : variableId = target
    · rw [isTarget, atTarget]
      exact Domain.inter_subset_left _ _
    · rw [elsewhere variableId isTarget]
      exact Domain.Subset.refl _
  · by_cases isTarget : variableId = target
    · rwa [isTarget, atTarget]
    · rwa [elsewhere variableId isTarget]
  · by_cases isTarget : variableId = target
    · rw [isTarget, changes]
      exact Changes.mem_order_record held target
    · exact absurd (elsewhere variableId isTarget) different

end Narrow

end ConstraintSearch
