import ConstraintSearch.Proofs.Network.Favours
import ConstraintSearch.Proofs.Search.Soundness

/-!
# Weighted solutions

The row by which a Markov variable is weighed can change after the variable was fixed, when a guard
becomes fixed. In a reported space all propagators are at rest, those of the Markov strategies among
them, so every value that is fixed there has a positive weight in the row that is active there.
-/

namespace ConstraintSearch

namespace Network

variable {network : Network} {model : Model}

/-- In quiet domains a fixed Markov variable has a value of positive weight. -/
theorem Quiet.weightOf_pos {domains : Table Domain} (quiet : network.Quiet domains)
    {variableId : VariableId} {matrix : MarkovMatrix VariableId}
    (inside : .markov variableId matrix ∈ network.propagators.toList) {value : Int}
    (fixed : (familyOf domains variableId).solvedValue? = some value) :
    0.0 < matrix.weightOf value (.value value) fun guard => (familyOf domains guard).isValue 1 := by
  have keeps := (quiet.keeps_or_ordersItself inside).resolve_right (by rintro ⟨⟩)
  rw [← Domain.eq_value_of_solvedValue? fixed]
  exact Propagator.keeps_markov_iff.mp keeps value fixed

end Network

/-- **Weights of solutions.** Whenever a search of a prepared model reports a space, every variable
with a Markov strategy that is fixed in it has a value to which the row that is active in this very
space gives a positive weight. -/
theorem Workspace.Reachable.weightOf_pos_of_solved {workspace : Workspace} {network : Network}
    (reachable : workspace.Reachable) (prepared : workspace.model.network = some network)
    {γ σ : Type} [Generator γ] {search after : Search γ σ} (reached : search.Reached network)
    {observer : Observer σ} {space : Space}
    (reported : search.next network observer = (.solved space, after)) {variableId : VariableId}
    {entry : Variable} (declared : workspace.model.vars.get? variableId = some entry)
    {declaration : MarkovMatrix String} (weighted : entry.strategy = some (.markov declaration)) :
    ∃ matrix, network.strategyOf variableId = .markov matrix ∧
      ∀ value, (space.domainOf variableId).solvedValue? = some value →
        0.0 < matrix.weightOf value (.value value) (fun guard => (space.domainOf guard).isValue 1) ∧
          ∃ row, matrix.IsActive (fun guard => (space.domainOf guard).isValue 1) row ∧
            0.0 < matrix.weightIn row value (.value value) := by
  have built := reachable.builtFor prepared
  have solves := (@Search.answers_next γ σ _ _ _ observer built _ (reached.sound built)).solves
    space (by rw [reported])
  have isMarkov : network.isMarkov variableId := by
    rw [built.isMarkov_eq, declared]
    simp [weighted, ValueStrategy.isMarkov]
  obtain ⟨matrix, isStrategy, inside⟩ := built.exists_markov isMarkov
  refine ⟨matrix, isStrategy, fun value fixed => ?_⟩
  have positive := solves.quiet.weightOf_pos inside fixed
  exact ⟨positive, MarkovMatrix.exists_isActive_of_weightOf_pos positive⟩

/-- A variable from 1 to 2 which is weighed by a boolean that is declared before it: 1 where the
boolean is true, 2 elsewhere. -/
def Workspace.weighted : Workspace :=
  .ofRequests
    [.declareRange "B" 0 1, .declareRange "X" 1 2,
      .divideVariableBy "X" (.markov ⟨[1, 2], [⟨[1.0, 0.0], some "B"⟩, ⟨[0.0, 1.0], none⟩], none⟩),
      .prepare]

/-- The weighted variable and its guard can be prepared. -/
theorem Workspace.isPrepared_weighted : weighted.model.isPrepared := by
  decide +kernel

/-- In the first solution the boolean is false, and the variable has the value that weighs something
there. -/
theorem Workspace.weightOf_pos_of_solved_weighted :
    ∃ network space after, weighted.model.network = some network ∧
      (Search.initial network (⟨#[], 0⟩ : Script) () {}).next network .silent =
        (.solved space, after) ∧
      (space.domainOf 1).solvedValue? = some 2 ∧
      ∃ matrix, network.strategyOf 1 = .markov matrix ∧
        ∃ row, matrix.IsActive (fun guard => (space.domainOf guard).isValue 1) row ∧
          0.0 < matrix.weightIn row 2 (.value 2) := by
  refine ⟨weighted.model.network.get isPrepared_weighted, ?_⟩
  have reported :
      ((Search.initial (weighted.model.network.get isPrepared_weighted) (⟨#[], 0⟩ : Script) ()
        {}).next (weighted.model.network.get isPrepared_weighted) .silent).1.space?.map
        (fun space => [space.domainOf 0, space.domainOf 1].map Domain.solvedValue?) =
          some [some 0, some 2] := by
    decide +kernel
  have prepared : weighted.model.network = some (weighted.model.network.get isPrepared_weighted) :=
    Option.eq_some_of_isSome _
  generalize weighted.model.network.get isPrepared_weighted = network at reported prepared
  obtain ⟨space, found, values⟩ := Option.map_eq_some_iff.mp reported
  obtain ⟨after, solved⟩ := Search.exists_solved_of_space? found
  simp only [List.map_cons, List.map_nil, List.cons.injEq] at values
  have declared : weighted.model.vars.get? 1 = some ⟨"X", .range 1 2, some _⟩ := rfl
  obtain ⟨matrix, isStrategy, weighs⟩ :=
    (reachable_ofRequests _).weightOf_pos_of_solved prepared (.initial _ () {}) solved declared rfl
  exact ⟨space, after, prepared, solved, values.2.1, matrix, isStrategy, (weighs 2 values.2.1).2⟩

end ConstraintSearch
