import ConstraintSearch.Network.Basic
import ConstraintSearch.Proofs.Domain.Order

/-!
# Propagators attached to variables

A propagator is attached to the variables in its scope which are not fixed from the start, to each
once and behind those propagators that come before it. A variable that two propagators read is
attached to at least two, so that the threshold of a cycle never passes over it.
-/

namespace ConstraintSearch

namespace Table

/-- A change reaches just the entry under its key. -/
theorem get?_modify {α : Type} (table : Table α) (key other : Nat) (change : α → α) :
    (table.modify key change).get? other = if key = other
      then (table.get? other).map change else table.get? other :=
  Array.getElem?_modify

@[simp] theorem size_modify {α : Type} (table : Table α) (key : Nat) (change : α → α) :
    (table.modify key change).size = table.size :=
  Array.size_modify

@[simp] theorem size_map {α β : Type} (table : Table α) (image : α → β) :
    (table.map image).size = table.size :=
  Array.size_map

/-- Every entry is replaced by its image. -/
theorem get?_map {α β : Type} (table : Table α) (image : α → β) (key : Nat) :
    (table.map image).get? key = (table.get? key).map image :=
  Array.getElem?_map

/-- The entries of a table are those under its keys. -/
theorem mem_toList_iff {α : Type} {table : Table α} {entry : α} :
    entry ∈ table.toList ↔ ∃ key, table.get? key = some entry := by
  rw [toList, Array.mem_toList_iff, Array.mem_iff_getElem?]
  rfl

/-- The key of an entry is below the size. -/
theorem lt_size_of_get? {α : Type} {table : Table α} {key : Nat} {entry : α}
    (found : table.get? key = some entry) : key < table.size :=
  (table.get?_isSome_iff key).mp (found ▸ rfl)

end Table

namespace Directory

/-- A variable that does not exist has the empty domain. -/
theorem domainOf_eq_getD (vars : Variables) (variableId : VariableId) :
    vars.domainOf variableId = (vars.table.map Variable.domain).getD variableId ∅ := by
  rw [domainOf, Table.getD, Table.get?_map]
  rfl

end Directory

/-- Erasing duplicates leaves none. -/
theorem nodup_eraseDups {α : Type} [DecidableEq α] : (entries : List α) → entries.eraseDups.Nodup
  | [] => .nil
  | head :: rest => by
    rw [List.eraseDups_cons, List.nodup_cons, List.mem_eraseDups]
    exact ⟨by simp, nodup_eraseDups (rest.filter fun other => !other == head)⟩
termination_by entries => entries.length
decreasing_by exact Nat.lt_succ_of_le (List.length_filter_le _ rest)

/-- No variable is in a scope twice. -/
theorem Propagator.nodup_scope (propagator : Propagator) : propagator.scope.Nodup := by
  cases propagator <;> exact nodup_eraseDups _

section Attaching

variable {vars : Variables}

/-- Attaches the propagator at a place to one variable, unless that is fixed. -/
def attachTo (vars : Variables) (index : Nat) (attached : Table (List Nat)) (reader : VariableId) :
    Table (List Nat) :=
  if (vars.domainOf reader).isSolved then attached else attached.modify reader (index :: ·)

theorem size_attachTo (index : Nat) (attached : Table (List Nat)) (reader : VariableId) :
    (attachTo vars index attached reader).size = attached.size := by
  rw [attachTo]
  split
  · rfl
  · exact Table.size_modify ..

theorem size_foldl_attachTo (index : Nat) (readers : List VariableId)
    (attached : Table (List Nat)) :
    (readers.foldl (attachTo vars index) attached).size = attached.size := by
  induction readers generalizing attached with
  | nil => rfl
  | cons reader rest inductionHypothesis =>
    rw [List.foldl_cons, inductionHypothesis, size_attachTo]

/-- A variable that is fixed from the start stays without the propagator, every other one of its
readers gets it once. -/
theorem getD_foldl_attachTo {index : Nat} {readers : List VariableId} (nodup : readers.Nodup)
    {attached : Table (List Nat)} {variableId : VariableId} (inside : variableId < attached.size) :
    (readers.foldl (attachTo vars index) attached).getD variableId [] =
      if variableId ∈ readers ∧ ¬ (vars.domainOf variableId).isSolved
        then index :: attached.getD variableId []
      else attached.getD variableId [] := by
  induction readers generalizing attached with
  | nil => simp
  | cons reader rest inductionHypothesis =>
    obtain ⟨onlyOnce, restNodup⟩ := List.nodup_cons.mp nodup
    have stillInside : variableId < (attachTo vars index attached reader).size := by
      rwa [size_attachTo]
    obtain ⟨former, found⟩ :=
      Option.isSome_iff_exists.mp ((attached.get?_isSome_iff variableId).mpr inside)
    rw [List.foldl_cons, inductionHypothesis restNodup stillInside, attachTo]
    by_cases same : variableId = reader
    · subst same
      by_cases solved : (vars.domainOf variableId).isSolved
      · simp [solved]
      · simp [solved, onlyOnce, Table.getD, Table.get?_modify, found]
    · have untouched : (if (vars.domainOf reader).isSolved then attached
          else attached.modify reader (index :: ·)).getD variableId [] =
            attached.getD variableId [] := by
        split
        · rfl
        · rw [Table.getD, Table.getD, Table.get?_modify, if_neg (Ne.symm same)]
      rw [untouched]
      simp only [List.mem_cons, same, false_or]

/-- The propagators paired with their places, attached one after the other, each behind those that
come after it. -/
theorem attachedPropagators_eq_foldr (vars : Variables) (propagators : Table Propagator) :
    attachedPropagators vars propagators =
      propagators.toList.zipIdx.foldr
        (fun placed attached => placed.1.scope.foldl (attachTo vars placed.2) attached)
        (vars.table.map fun _ => []) :=
  rfl

theorem size_foldr_attachTo (placed : List (Propagator × Nat)) (attached : Table (List Nat)) :
    (placed.foldr (fun placed attached => placed.1.scope.foldl (attachTo vars placed.2) attached)
      attached).size = attached.size := by
  induction placed with
  | nil => rfl
  | cons first rest inductionHypothesis => exact (size_foldl_attachTo ..).trans inductionHypothesis

/-- The list of a variable has the places of the propagators that read it in order, and then those
attached before, if it is not fixed. -/
theorem getD_foldr_attachTo {placed : List (Propagator × Nat)} {attached : Table (List Nat)}
    {variableId : VariableId} (inside : variableId < attached.size) :
    (placed.foldr (fun placed attached => placed.1.scope.foldl (attachTo vars placed.2) attached)
      attached).getD variableId [] = (placed.filter fun placed =>
        variableId ∈ placed.1.scope ∧
          ¬ (vars.domainOf variableId).isSolved).map Prod.snd ++ attached.getD variableId [] := by
  induction placed with
  | nil => simp
  | cons first rest inductionHypothesis =>
    have stillInside := (@size_foldr_attachTo vars rest attached).symm ▸ inside
    rw [List.foldr_cons, getD_foldl_attachTo first.1.nodup_scope stillInside, inductionHypothesis]
    by_cases reads : variableId ∈ first.1.scope ∧ ¬ (vars.domainOf variableId).isSolved
    · rw [if_pos reads, List.filter_cons_of_pos (by simpa using reads), List.map_cons,
        List.cons_append]
    · rw [if_neg reads, List.filter_cons_of_neg (by simpa using reads)]

/-- The places of the propagators that read a variable, unless it is fixed from the start. -/
theorem getD_attachedPropagators {propagators : Table Propagator} {variableId : VariableId}
    (inside : variableId < vars.size) : (attachedPropagators vars propagators).getD variableId [] =
      (propagators.toList.zipIdx.filter fun placed =>
        variableId ∈ placed.1.scope ∧ ¬ (vars.domainOf variableId).isSolved).map Prod.snd := by
  have room : variableId < (vars.table.map fun _ => ([] : List Nat)).size := by rwa [Table.size_map]
  have none : (vars.table.map fun _ => ([] : List Nat)).getD variableId [] = [] := by
    rw [Table.getD, Table.get?_map]
    cases vars.table.get? variableId <;> rfl
  rw [attachedPropagators_eq_foldr, getD_foldr_attachTo room, none, List.append_nil]

/-- The propagators attached to a variable are those that read it, unless the variable is fixed from
the start. -/
theorem mem_attachedPropagators {propagators : Table Propagator} {index : Nat}
    {variableId : VariableId} (inside : variableId < vars.size) :
    index ∈ (attachedPropagators vars propagators).getD variableId [] ↔
      ∃ propagator, propagators.get? index = some propagator ∧ variableId ∈ propagator.scope ∧
        ¬ (vars.domainOf variableId).isSolved := by
  rw [getD_attachedPropagators inside, List.mem_map]
  simp only [List.mem_filter, decide_eq_true_eq, Prod.exists, exists_eq_right,
    List.mem_zipIdx_iff_getElem?, Table.get?, Table.toList, Array.getElem?_toList]

/-- The places of the propagators that are attached to a variable increase. -/
theorem pairwise_attachedPropagators {propagators : Table Propagator} {variableId : VariableId}
    (inside : variableId < vars.size) :
    ((attachedPropagators vars propagators).getD variableId []).Pairwise (· < ·) := by
  have places : (propagators.toList.zipIdx.map Prod.snd).Pairwise (· < ·) := by
    rw [List.zipIdx_map_snd]
    exact List.pairwise_lt_range'
  rw [getD_attachedPropagators inside]
  exact places.sublist (List.filter_sublist.map _)

end Attaching

/-- A list with two different members is not a singleton. -/
theorem two_le_length_of_mem {α : Type} {list : List α} {first second : α}
    (firstInside : first ∈ list) (secondInside : second ∈ list) (different : first ≠ second) :
    2 ≤ list.length := by
  match list, firstInside, secondInside with
  | [only], firstInside, secondInside =>
    rw [List.mem_singleton] at firstInside secondInside
    exact absurd (firstInside.trans secondInside.symm) different
  | _ :: _ :: _, _, _ => simp

end ConstraintSearch
