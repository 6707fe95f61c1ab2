import ConstraintSearch.Proofs.Propagation.Fixpoint

/-!
# Families that survive propagation

If every propagator keeps a family of domains, propagation of any domains around the family succeeds
and leaves domains around it. This carries both results on what propagation finds: the values of a
solution are such a family, and so are the domains on which all propagators are at rest.
-/

namespace ConstraintSearch

open Narrow

namespace Network

/-- A family with a value for every variable which every propagator keeps. Those that weigh values
keep the domains around it as well: whether they do does not depend on the family alone. -/
structure Preserves (network : Network) (inner : Family) : Prop where
  nonempty : ∀ variableId < network.vars.size, (inner variableId).Nonempty
  weighed : ∀ propagator ∈ network.propagators.toList, propagator.isMarkov → ∀ outer,
    Within inner outer → propagator.Keeps outer
  keeps : ∀ propagator ∈ network.propagators.toList, propagator.Keeps inner

end Network

/-- The step succeeds on all domains around the family and leaves domains around it. -/
def Spares (inner : Family) (step : Narrow Unit) : Prop :=
  ∀ state : Narrowing, Within inner state.domainOf →
    ∃ final, step state = .ok () final ∧ Within inner final.domainOf

/-- A step that does nothing spares every family. -/
theorem spares_pure (inner : Family) : Spares inner (pure ()) :=
  fun state within => ⟨state, rfl, within⟩

/-- Steps that spare a family one by one spare it together. -/
theorem spares_forM {α : Type} {inner : Family} {step : α → Narrow Unit} {entries : List α}
    (spares : ∀ entry ∈ entries, Spares inner (step entry)) : Spares inner (entries.forM step) := by
  induction entries with
  | nil => exact spares_pure inner
  | cons head rest inductionHypothesis =>
    intro state within
    obtain ⟨middle, ran, middleWithin⟩ := spares head List.mem_cons_self state within
    obtain ⟨final, restRan, finalWithin⟩ :=
      inductionHypothesis (fun entry inside => spares entry (List.mem_cons_of_mem _ inside))
        middle middleWithin
    refine ⟨final, ?_, finalWithin⟩
    change (step head >>= fun _ => rest.forM step) state = .ok () final
    simp only [Bind.bind, EStateM.bind, ran, restRan]

namespace Network

variable {network : Network} {inner : Family}

/-- A run of a propagator spares a family that the network preserves. -/
theorem spares_run (coherent : network.Coherent) (preserves : network.Preserves inner)
    {propagator : Propagator} (inside : propagator ∈ network.propagators.toList) :
    Spares inner propagator.run := by
  obtain ⟨index, found⟩ := Table.mem_toList_iff.mp inside
  intro state within
  refine Propagator.run_shelters (fun weighs => preserves.weighed propagator inside weighs _ within)
    (fun variableId reads => ?_) (preserves.keeps propagator inside) within
  exact preserves.nonempty variableId (coherent.scope_lt found variableId reads)

/-- So does the run of a propagator by its index. -/
theorem spares_runPropagator (coherent : network.Coherent) (preserves : network.Preserves inner)
    (index : Nat) : Spares inner (network.runPropagator index) := by
  cases found : network.propagators.get? index with
  | none =>
    simp only [runPropagator, found]
    exact spares_pure inner
  | some propagator =>
    simp only [runPropagator, found]
    exact spares_run coherent preserves (Table.mem_toList_iff.mpr ⟨index, found⟩)

/-- So do the runs of those attached to a variable. -/
theorem spares_runAttached (coherent : network.Coherent) (preserves : network.Preserves inner)
    (threshold : Nat) (variableId : VariableId) :
    Spares inner (network.runAttached threshold variableId) := by
  simp only [runAttached]
  split
  · exact spares_pure inner
  · exact spares_forM fun index _ => spares_runPropagator coherent preserves index

/-- So does every number of cycles, by induction on what is left of them. -/
theorem spares_settle (coherent : network.Coherent) (preserves : network.Preserves inner)
    (threshold cycle : Nat) : Spares inner (network.settle threshold cycle) := by
  intro state within
  have cycles := network.cycles threshold cycle state
  generalize network.settle threshold cycle state = result at cycles ⊢
  induction cycles with
  | quiet unchanged => exact ⟨_, rfl, within⟩
  | @again threshold cycle state middle result changed ran later inductionHypothesis =>
    obtain ⟨after, cycleRan, middleWithin⟩ :=
      spares_forM (fun variableId _ => spares_runAttached coherent preserves threshold variableId)
        (state.startCycle cycle) within
    rw [ran] at cycleRan
    cases cycleRan
    exact inductionHypothesis middleWithin
  | @failed threshold cycle state final variableId changed ran =>
    obtain ⟨after, cycleRan, _⟩ :=
      spares_forM (fun variableId _ => spares_runAttached coherent preserves threshold variableId)
        (state.startCycle cycle) within
    rw [ran] at cycleRan
    cases cycleRan

/-- Propagation spares a family that every propagator keeps. -/
theorem exists_fixpoint_of_preserves (coherent : network.Coherent)
    (preserves : network.Preserves inner) {changed : Option VariableId} {state : Narrowing}
    (size_eq : state.domains.size = network.vars.size) (within : Within inner state.domainOf) :
    ∃ final, network.fixpoint changed state = .ok () final ∧ Within inner final.domainOf := by
  cases changed with
  | some variableId =>
    exact spares_settle coherent preserves 1 0
      { state with changes := state.changes.next.record variableId } within
  | none =>
    have noneEmpty : firstEmpty? state.domains = none :=
      firstEmpty?_eq_none_iff.mpr fun variableId inside =>
        (preserves.nonempty variableId (size_eq ▸ inside)).of_subset (within variableId)
    obtain ⟨middle, ran, middleWithin⟩ :=
      spares_forM (fun _ inside => spares_run coherent preserves inside)
        { state with changes := state.changes.next } within
    obtain ⟨final, settled, finalWithin⟩ := spares_settle coherent preserves 2 0 middle middleWithin
    refine ⟨final, ?_, finalWithin⟩
    simp only [fixpoint, noneEmpty, ran, settled]

end Network

end ConstraintSearch
