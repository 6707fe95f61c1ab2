import ConstraintSearch.Proofs.Propagation.Effect
import ConstraintSearch.Proofs.Search.Settled

/-!
# Readers of a variable

When a variable changes, only the propagators that are attached to it run again. These are all that
mention it, unless the variable is fixed from the start, and then it never changes. What a
propagator does depends on nothing but the domains of the variables that it mentions
(`Workspace.Reachable.attached_exactly`).
-/

namespace ConstraintSearch

namespace Network

variable {network : Network} {variableId : VariableId}

/-- In quiet domains a variable that was fixed from the start has its initial value. -/
theorem Quiet.eq_of_isSolved {domains : Table Domain} (quiet : network.Quiet domains)
    (inside : variableId < network.vars.size)
    (solved : (network.vars.domainOf variableId).isSolved) :
    familyOf domains variableId = network.vars.domainOf variableId := by
  obtain ⟨only, isOnly⟩ := Domain.isSolved_iff.mp solved
  exact Domain.eq_of_subset_of_solvedValue? (quiet.nonempty variableId inside)
    (quiet.subset variableId) isOnly

/-- The attached propagators of a variable are all that mention it, in order, if it can change; none
if it cannot. -/
structure AttachedExactly (network : Network) (variableId : VariableId) : Prop where
  increasing : (network.attached.getD variableId []).Pairwise (· < ·)
  mem_iff : ¬ (network.vars.domainOf variableId).isSolved → ∀ index,
    index ∈ network.attached.getD variableId [] ↔ ∃ propagator,
      network.propagators.get? index = some propagator ∧ propagator.Mentions variableId
  fixed : (network.vars.domainOf variableId).isSolved → network.attached.getD variableId [] = [] ∧
    ∀ space, network.Stable space → space.domainOf variableId = network.vars.domainOf variableId

/-- A coherent network attaches exactly the propagators that read a variable. -/
theorem Coherent.attachedExactly (coherent : network.Coherent)
    (inside : variableId < network.vars.size) : network.AttachedExactly variableId where
  increasing := by
    rw [coherent.attached_eq]
    exact pairwise_attachedPropagators inside
  mem_iff unsolved index := by
    rw [coherent.attached_eq, mem_attachedPropagators inside]
    exact exists_congr fun propagator =>
      and_congr_right fun _ => (and_iff_left unsolved).trans Propagator.mem_scope_iff_mentions
  fixed solved := by
    refine ⟨List.eq_nil_iff_forall_not_mem.mpr fun index member => ?_, fun space stable => ?_⟩
    · rw [coherent.attached_eq, mem_attachedPropagators inside] at member
      obtain ⟨_, _, _, unsolved⟩ := member
      exact unsolved solved
    · exact (stable.quiet coherent).eq_of_isSolved inside solved

end Network

/-- In every prepared model the attached propagators of each variable are exactly those that can
notice its change, and a propagator does the same on any two states that agree on the variables
which it mentions. -/
theorem Workspace.Reachable.attached_exactly {workspace : Workspace} {network : Network}
    (reachable : workspace.Reachable) (prepared : workspace.model.network = some network) :
    (∀ variableId < network.vars.size, network.AttachedExactly variableId) ∧
      ∀ propagator : Propagator, (∀ variableId, variableId ∈ propagator.scope ↔
        propagator.Mentions variableId) ∧ ∀ first second : Narrowing,
          first.AgreeOn propagator.scope second → ∃ effect : Effect,
            effect.Arises propagator.scope propagator.propagate first second := by
  have coherent := (reachable.builtFor prepared).coherent
  exact ⟨fun variableId inside => coherent.attachedExactly inside, fun propagator =>
    ⟨fun variableId => Propagator.mem_scope_iff_mentions, fun first second agree =>
      propagator.exists_effect agree⟩⟩

/-- A variable that is added to itself and weighed by two others, one of which is fixed from the
start. -/
def Workspace.doubled : Workspace :=
  .ofRequests
    [.declareRange "B" 0 1, .declareRange "F" 1 1, .declareRange "X" 1 2, .declareRange "Y" 0 9,
      .declareConstraint .plus [.named "X", .named "X"] (some (.named "Y")),
      .divideVariableBy "X" (.markov ⟨[1, 2], [⟨[1.0, 0.0], some "B"⟩, ⟨[1.0, 1.0], some "F"⟩],
        none⟩), .prepare]

/-- The sum and the weights can be prepared. -/
theorem Workspace.isPrepared_doubled : doubled.model.isPrepared := by
  decide +kernel

/-- The doubled variable has the three propagators of the addition and the one that weighs it, each
once, the guard only the last one, and the fixed guard none. -/
theorem Workspace.attached_exactly_doubled :
    ∃ network, doubled.model.network = some network ∧
      network.attached.getD 2 [] = [0, 1, 2, 3] ∧ network.attached.getD 0 [] = [3] ∧
        network.attached.getD 1 [] = [] ∧
      network.AttachedExactly 2 ∧ network.AttachedExactly 1 := by
  refine ⟨doubled.model.network.get isPrepared_doubled, ?_⟩
  have listed : [2, 0, 1].map (fun variableId =>
      (doubled.model.network.get isPrepared_doubled).attached.getD variableId []) =
        [[0, 1, 2, 3], [3], []] := by
    decide +kernel
  have four : (doubled.model.network.get isPrepared_doubled).vars.size = 4 := by
    decide +kernel
  have prepared : doubled.model.network = some (doubled.model.network.get isPrepared_doubled) :=
    Option.eq_some_of_isSome _
  generalize doubled.model.network.get isPrepared_doubled = network at listed four prepared
  simp only [List.map_cons, List.map_nil, List.cons.injEq, and_true] at listed
  obtain ⟨exact, _⟩ := (reachable_ofRequests _).attached_exactly prepared
  exact ⟨prepared, listed.1, listed.2.1, listed.2.2, exact 2 (four ▸ by decide),
    exact 1 (four ▸ by decide)⟩

end ConstraintSearch
