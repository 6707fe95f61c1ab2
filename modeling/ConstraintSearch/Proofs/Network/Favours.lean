import ConstraintSearch.Proofs.Branching.Partition
import ConstraintSearch.Proofs.Branching.Weights
import ConstraintSearch.Proofs.Random.Sums

/-!
# Assignments that are favoured

A Markov variable is weighed by the row that is active at the time, both when a value is drawn for
it and when it has become fixed. Which row this is depends on the guards that are known to be true
by then, and so on the order in which variables become fixed. An assignment whose values have a
positive weight whichever of its true guards are known is never discarded for its weights.
-/

namespace ConstraintSearch

namespace MarkovMatrix

variable {matrix : MarkovMatrix VariableId} {row : MarkovRow VariableId} {domain : Domain}

/-- All candidates have positive weights. -/
theorem candidates_pos : ∀ weight ∈ (matrix.candidates row domain).map Prod.snd, 0.0 < weight := by
  intro weight inside
  obtain ⟨⟨value, _⟩, isCandidate, rfl⟩ := List.mem_map.mp inside
  simp only [candidates, List.mem_filter, Bool.and_eq_true, decide_eq_true_eq] at isCandidate
  exact isCandidate.2.1

/-- With an active row that has candidates, a value is drawn. -/
theorem exists_divide {γ : Type} [Generator γ] {space : Space}
    (active : matrix.activeRow? (fun guard => (space.domainOf guard).isValue 1) = some row)
    (candidates : matrix.candidates row domain ≠ []) (generator : γ) :
    ∃ part next, matrix.divide domain space 0 generator = some (part, next) := by
  have nonempty : (matrix.candidates row domain).map Prod.snd ≠ [] :=
    mt List.map_eq_nil_iff.mp candidates
  obtain ⟨index, next, drawn, bound⟩ :=
    Generator.exists_weightedChoice? nonempty candidates_pos generator
  rw [List.length_map] at bound
  refine ⟨⟨.value (matrix.candidates row domain)[index].1,
    some (matrix.candidates row domain)[index].1⟩, next, ?_⟩
  simp only [divide, active, drawn, List.getElem?_eq_getElem bound, Option.bind_eq_bind,
    Option.bind_some]
  rfl

end MarkovMatrix

namespace Network

variable {network : Network} {model : Model} {assignment : VariableId → Int} {weighted : VariableId}
  {matrix : MarkovMatrix VariableId}

/-- Whichever of the true guards are known to be true, the values of Markov variables have positive
weights. -/
def Favours (network : Network) (assignment : VariableId → Int) : Prop :=
  ∀ weighted matrix, network.strategyOf weighted = .markov matrix → ∀ known : VariableId → Bool,
    (∀ guard < network.vars.size, known guard → assignment guard = 1) →
      0.0 < matrix.weightOf (assignment weighted) (.value (assignment weighted)) known

namespace BuiltFor

variable (built : network.BuiltFor model)

include built

omit built in
/-- A variable that draws its values has a propagator that checks them. -/
theorem exists_mem_markovPropagators (isMarkov : network.isMarkov weighted) :
    ∃ matrix, network.strategyOf weighted = .markov matrix ∧
      .markov weighted matrix ∈ markovPropagators network.strategies := by
  rw [Network.isMarkov, Table.getD] at isMarkov
  rw [strategyOf, Table.getD]
  cases found : network.strategies.get? weighted with
  | none => simp [found] at isMarkov
  | some own =>
    cases own with
    | none => simp [found] at isMarkov
    | some strategy =>
      cases strategy with
      | markov matrix =>
        exact ⟨matrix, rfl, mem_markovPropagators.mpr ⟨weighted, matrix, found, rfl⟩⟩
      | _ => simp [found, ValueStrategy.isMarkov] at isMarkov

/-- A variable with a Markov strategy has a propagator that weighs it by the same matrix. -/
theorem exists_markov (isMarkov : network.isMarkov weighted) :
    ∃ matrix, network.strategyOf weighted = .markov matrix ∧
      .markov weighted matrix ∈ network.propagators.toList := by
  obtain ⟨_, _, _, _, samePropagators⟩ := built.exists_lowered
  obtain ⟨matrix, isStrategy, inside⟩ := exists_mem_markovPropagators isMarkov
  exact ⟨matrix, isStrategy, samePropagators ▸ List.mem_append_right _ inside⟩

/-- Only the variables with a Markov strategy are weighed, and by the matrix of the strategy. -/
theorem strategyOf_eq_of_mem (inside : .markov weighted matrix ∈ network.propagators.toList) :
    network.strategyOf weighted = .markov matrix := by
  obtain ⟨_, _, lowered, _, samePropagators⟩ := built.exists_lowered
  rw [samePropagators] at inside
  rcases List.mem_append.mp inside with inAdded | inMarkov
  · cases lowered.grows.unweighted _ inAdded
  · obtain ⟨_, _, found, ⟨rfl, rfl⟩⟩ := mem_markovPropagators.mp inMarkov
    rw [strategyOf, Table.getD, found]
    rfl

/-- A variable draws its values if its strategy does. -/
theorem isMarkov_of_strategyOf (isStrategy : network.strategyOf weighted = .markov matrix) :
    network.isMarkov weighted := by
  by_contra plain
  have deterministic := built.deterministic weighted (Bool.eq_false_iff.mpr plain)
  rw [isStrategy] at deterministic
  cases deterministic

/-- Without Markov strategies every assignment is favoured. -/
theorem favours_of_unweighted (unweighted : ∀ variableId, network.isMarkov variableId = false)
    (assignment : VariableId → Int) : network.Favours assignment := by
  intro weighted matrix isStrategy
  have isMarkov := built.isMarkov_of_strategyOf isStrategy
  rw [unweighted weighted] at isMarkov
  cases isMarkov

end BuiltFor

namespace Favours

variable (favours : network.Favours assignment) {family : Family}
  (contains : ∀ variableId < network.vars.size, assignment variableId ∈ family variableId)

include favours contains

/-- In domains that have the assignment, its values are weighed with some of its true guards
known. -/
theorem weightOf_pos (isStrategy : network.strategyOf weighted = .markov matrix) :
    0.0 < matrix.weightOf (assignment weighted) (.value (assignment weighted)) fun guard =>
      (family guard).isValue 1 := by
  refine favours weighted matrix isStrategy _ fun guard inside known => ?_
  exact (Domain.solvedValue?_eq_some_iff.mp (Domain.isValue_iff.mp known) _).mp
    (contains guard inside)

/-- Weights never exclude domains that have the assignment. -/
theorem keeps (built : network.BuiltFor model) {propagator : Propagator}
    (inside : propagator ∈ network.propagators.toList) (weighs : propagator.isMarkov) :
    propagator.Keeps family := by
  cases propagator with
  | markov weighted matrix =>
    refine Propagator.keeps_markov_iff.mpr fun value fixed => ?_
    obtain ⟨index, found⟩ := Table.mem_toList_iff.mp inside
    have weighted_lt := built.coherent.scope_lt found weighted (by simp)
    obtain rfl := (Domain.solvedValue?_eq_some_iff.mp fixed _).mp (contains weighted weighted_lt)
    rw [Domain.eq_value_of_solvedValue? fixed]
    exact favours.weightOf_pos contains (built.strategyOf_eq_of_mem inside)
  | _ => cases weighs

end Favours

/-- A variable of a space that has a favoured assignment is divided, unless it is fixed. -/
theorem Favours.exists_divide? {γ : Type} [Generator γ] (favours : network.Favours assignment)
    (built : network.BuiltFor model) {space : Space}
    (contains : ∀ variableId < network.vars.size, assignment variableId ∈ space.domainOf variableId)
    {variableId : VariableId} (inside : variableId < network.vars.size)
    (unsolved : ¬ (space.domainOf variableId).isSolved) (generator : γ) :
    ∃ part next, (network.strategyOf variableId).divide? variableId space 0 generator =
      some (part, next) := by
  have member := contains variableId inside
  by_cases weighted : network.isMarkov variableId
  · obtain ⟨matrix, isStrategy, _⟩ := built.exists_markov weighted
    have positive := favours.weightOf_pos contains isStrategy
    obtain ⟨row, active, rowPositive⟩ := MarkovMatrix.exists_isActive_of_weightOf_pos positive
    have candidates := MarkovMatrix.candidates_ne_nil member rowPositive
    obtain ⟨part, next, drawn⟩ :=
      MarkovMatrix.exists_divide (MarkovMatrix.activeRow?_eq_some_iff.mpr active)
        candidates generator
    have divided : (network.strategyOf variableId).divide variableId space 0 generator =
        some (part, next) := by
      have several := Domain.two_le_size_iff.mpr ⟨⟨_, member⟩, unsolved⟩
      rw [isStrategy, ValueStrategy.divide_eq_of_several several rfl]
      exact drawn
    obtain ⟨rest, split, _⟩ := ValueStrategy.givesRest_of_divide divided
    exact ⟨_, next, ValueStrategy.divide?_of_divide divided split.first_size_lt⟩
  · have deterministic := built.deterministic variableId (Bool.eq_false_iff.mpr weighted)
    exact deterministic.exists_divide? ⟨_, member⟩ unsolved generator

end Network

end ConstraintSearch
