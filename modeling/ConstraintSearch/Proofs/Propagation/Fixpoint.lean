import ConstraintSearch.Proofs.Propagation.Cycle

/-!
# Fixpoints of propagation

The root runs every propagator once before the first cycle, and a child of a space where all
propagators are at rest runs those that read the variable it was made by. From there the cycles
settle, if no variable runs empty; and none does as long as there is a family of domains that every
propagator keeps.
-/

namespace ConstraintSearch

open Narrow

/-! ### Changes that stay faithful -/

/-- Propagation leaves changes faithful. -/
theorem cycleTrend_faithful :
    Network.CycleTrend fun before after => before.changes.Faithful → after.changes.Faithful where
  refl _ := id
  trans first second := second ∘ first
  count _ _ := id
  restrict variableId supported state := by
    intro faithful
    rw [after_restrict]
    split
    · exact faithful
    · split
      · exact faithful
      · exact faithful.record variableId
  next _ _ faithful := faithful.next
  record _ variableId faithful := faithful.record variableId

namespace Network

variable {network : Network}

/-- Propagation leaves the changes faithful, also if it fails. -/
theorem faithful_fixpoint {changed : Option VariableId} {state : Narrowing}
    (faithful : state.changes.Faithful) :
    (Narrow.after (network.fixpoint changed) state).changes.Faithful :=
  cycleTrend_faithful.follows_fixpoint network changed state faithful

/-! ### Every propagator by its place -/

/-- The first cycle runs all propagators by their places. -/
theorem forM_run_eq (network : Network) :
    network.propagators.toList.forM Propagator.run =
      (List.range network.propagators.size).forM network.runPropagator := by
  have byPlace : ∀ (propagators : List Propagator) (first : Nat),
      (∀ place, propagators[place]? = network.propagators.get? (first + place) ∨
        propagators.length ≤ place) →
          propagators.forM Propagator.run = (List.range' first propagators.length).forM
          network.runPropagator := by
    intro propagators
    induction propagators with
    | nil =>
      intro first _
      rfl
    | cons head rest inductionHypothesis =>
      intro first places
      have found : network.propagators.get? first = some head :=
        ((places 0).resolve_right (by simp)).symm
      have runs : network.runPropagator first = head.run := by
        simp only [runPropagator, found]
      have restRuns := inductionHypothesis (first + 1) fun place => by
        have shifted := places (place + 1)
        simp only [List.getElem?_cons_succ, List.length_cons] at shifted
        rw [Nat.add_right_comm, Nat.add_assoc]
        exact shifted.imp_right Nat.le_of_succ_le_succ
      change (head.run >>= fun _ => rest.forM Propagator.run) =
        (network.runPropagator first >>= fun _ =>
          (List.range' (first + 1) rest.length).forM network.runPropagator)
      rw [restRuns, runs]
  rw [byPlace network.propagators.toList 0, List.range_eq_range']
  · rfl
  · intro place
    left
    simp [Table.get?, Table.toList]

/-! ### The root -/

/-- There is no empty domain just if all of them have values. -/
theorem firstEmpty?_eq_none_iff {domains : Table Domain} :
    firstEmpty? domains = none ↔
      ∀ variableId < domains.size, (domains.getD variableId ∅).Nonempty := by
  rw [firstEmpty?, Table.findKey?, Array.findIdx?_eq_none_iff, Array.forall_mem_iff_forall_getElem]
  refine forall₂_congr fun variableId inside => ?_
  rw [Table.getD, Table.get?, Array.getElem?_eq_getElem inside]
  exact Domain.isEmpty_eq_false_iff

/-- Propagation starts on the declared domains if all of them have values. -/
theorem live_of_firstEmpty? {state : Narrowing}
    (initial : state.domains = network.vars.table.map Variable.domain)
    (faithful : state.changes.Faithful) (none : firstEmpty? state.domains = none) :
    network.Live state := by
  have sizes : state.domains.size = network.vars.size := by rw [initial, Table.size_map]; rfl
  have lookup : ∀ variableId, state.domainOf variableId = network.vars.domainOf variableId := by
    intro variableId
    rw [Narrowing.domainOf, initial, Directory.domainOf_eq_getD]
  exact ⟨sizes, fun variableId inside =>
    firstEmpty?_eq_none_iff.mp none variableId (sizes ▸ inside), fun variableId =>
      lookup variableId ▸ Domain.Subset.refl _, faithful⟩

/-- Propagation of the initial domains leaves every propagator at rest. -/
theorem settles_of_root (coherent : network.Coherent) {state final : Narrowing}
    (initial : state.domains = network.vars.table.map Variable.domain)
    (faithful : state.changes.Faithful)
    (ran : network.fixpoint none state = .ok () final) : network.Settles final := by
  simp only [fixpoint] at ran
  cases noneEmpty : firstEmpty? state.domains with
  | some variableId =>
    rw [noneEmpty] at ran
    cases ran
  | none =>
    rw [noneEmpty] at ran
    generalize isStart : { state with changes := state.changes.next } = start at ran
    have live : network.Live start := by
      subst isStart
      exact live_of_firstEmpty? initial faithful.next noneEmpty
    cases first : network.propagators.toList.forM Propagator.run start with
    | error variableId failed =>
      simp only [first] at ran
      cases ran
    | ok _ middle =>
      simp only [first] at ran
      rw [forM_run_eq] at first
      have covered : network.Covered start (· ∈ List.range network.propagators.size) := by
        intro index
        by_cases inside : index < network.propagators.size
        · exact .inr (.inl (List.mem_range.mpr inside))
        · refine .inl fun propagator found => ?_
          exact absurd (Table.lt_size_of_get? found) inside
      obtain ⟨narrows, middleCovered⟩ := covered.of_forM_runPropagator coherent live first
      refine settles_of_settle coherent (live.of_narrows narrows) (fun index => ?_) ran
      refine (middleCovered index).imp_right fun scheduled => scheduled.resolve_left ?_
      rintro ⟨listed, unlisted⟩
      exact unlisted listed

/-! ### Children -/

/-- Propagation from a variable leaves every propagator at rest, if only that variable was narrowed
since all of them were. -/
theorem settles_of_child (coherent : network.Coherent) {parent state final : Narrowing}
    {variableId : VariableId} (settled : network.Settles parent)
    (size_eq : state.domains.size = parent.domains.size) (faithful : state.changes.Faithful)
    (nonempty : (state.domainOf variableId).Nonempty)
    (subset : state.domainOf variableId ⊆ parent.domainOf variableId)
    (unsolved : ¬ (parent.domainOf variableId).isSolved)
    (elsewhere : ∀ other, other ≠ variableId → state.domainOf other = parent.domainOf other)
    (ran : network.fixpoint (some variableId) state = .ok () final) : network.Settles final := by
  obtain ⟨parentLive, rest⟩ := settled
  simp only [fixpoint] at ran
  generalize isStart : { state with changes := state.changes.next.record variableId } = start at ran
  have sameDomains : start.domainOf = state.domainOf := isStart ▸ rfl
  have live : network.Live start := by
    refine ⟨?_, fun other inside => ?_, fun other => ?_, ?_⟩
    · rw [← isStart]
      exact size_eq.trans parentLive.size_eq
    · rw [sameDomains]
      by_cases same : other = variableId
      · rwa [same]
      · rw [elsewhere other same]
        exact parentLive.nonempty other inside
    · rw [sameDomains]
      by_cases same : other = variableId
      · rw [same]
        exact Domain.Subset.trans subset (parentLive.subset variableId)
      · rw [elsewhere other same]
        exact parentLive.subset other
    · rw [← isStart]
      exact faithful.next.record variableId
  -- A variable that was fixed at first has no attached propagators, so it has to be unsolved there
  -- for its readers to be scheduled.
  have unsolvedAtFirst : ¬ (network.vars.domainOf variableId).isSolved := by
    intro solved
    obtain ⟨only, solved⟩ := Domain.isSolved_iff.mp solved
    have same := Domain.eq_of_subset_of_solvedValue? (nonempty.of_subset subset)
      (parentLive.subset variableId) solved
    exact unsolved (Domain.isSolved_iff.mpr ⟨only, same ▸ solved⟩)
  refine settles_of_settle coherent live (fun index => ?_) ran
  rw [sameDomains]
  -- A propagator that reads the narrowed variable is attached to it and hence pending; every other
  -- one sees the domains at which it was at rest.
  by_cases reads : ∃ propagator, network.propagators.get? index = some propagator ∧
    variableId ∈ propagator.scope
  · obtain ⟨propagator, found, reads⟩ := reads
    have attached : index ∈ network.attached.getD variableId [] := by
      rw [coherent.attached_eq]
      apply (mem_attachedPropagators (coherent.scope_lt found variableId reads)).mpr
      exact ⟨propagator, found, reads, unsolvedAtFirst⟩
    refine .inr ⟨variableId, ?_, attached, List.length_pos_of_mem attached⟩
    rw [← isStart]
    exact Changes.mem_order_record faithful.next variableId
  · refine .inl ((rest index).congr fun propagator found other otherReads =>
      (elsewhere other ?_).symm)
    rintro rfl
    exact reads ⟨propagator, found, otherReads⟩

end Network

end ConstraintSearch
