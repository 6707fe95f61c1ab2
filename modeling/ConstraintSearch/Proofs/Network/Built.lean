import ConstraintSearch.Model.Basic
import ConstraintSearch.Proofs.Network.Enforced
import ConstraintSearch.Proofs.Propagation.Cycle

/-!
# Networks of models

`Network.BuiltFor` collects what a network owes to the model that it was built for: its variables
and propagators come from the lowering of the constraints, behind which those of the Markov
strategies stand, its targets exist, and only variables with a Markov strategy draw values.
-/

namespace ConstraintSearch

open Lowering

/-- Neither the strategy nor any of its fallbacks draws values by weight. -/
def ValueStrategy.Deterministic {Guard : Type} : ValueStrategy Guard → Prop
  | list _ fallback => fallback.Deterministic
  | markov _ => False
  | _ => True

/-- All rows, and what fills them up, are of finite weights that are not negative. -/
structure MarkovMatrix.IsWeighted {Guard : Type} (matrix : MarkovMatrix Guard) : Prop where
  rows : ∀ row ∈ matrix.rows, ∀ weight ∈ row.weights, isWeight weight
  expansion : ∀ weight, matrix.expansion = some weight → isWeight weight

/-- The model before the lowering of its constraints. -/
def Model.lowering (model : Model) : Lowering :=
  ⟨model.vars, ∅⟩

/-- A variable that does not exist has no Markov strategy. -/
theorem Model.isMarkov_eq_false_of_lt {model : Model}
    (plain : ∀ variableId < model.allVariables.size, model.isMarkov variableId = false)
    (variableId : VariableId) :
    model.isMarkov variableId = false := by
  by_cases inside : variableId < model.allVariables.size
  · exact plain variableId inside
  · rw [isMarkov, Directory.get?,
      (model.allVariables.table.get?_eq_none_iff variableId).mpr (Nat.le_of_not_lt inside)]
    rfl

namespace Network

/-- What a network owes to its model. -/
structure BuiltFor (network : Network) (model : Model) : Prop where
  exists_lowered : ∃ lowering added,
    Lowered model.constraints.toList model.lowering lowering added ∧ network.vars = lowering.vars ∧
      network.propagators.toList = added ++ markovPropagators network.strategies
  declared_eq : network.declared = model.vars.size
  attached_eq : network.attached = attachedPropagators network.vars network.propagators
  markov_lt : ∀ propagator ∈ markovPropagators network.strategies, ∀ variableId ∈ propagator.scope,
    variableId < model.vars.size
  isWeighted : ∀ weighted matrix, .markov weighted matrix ∈ markovPropagators network.strategies →
    matrix.IsWeighted
  targeted_lt : ∀ variableId ∈ network.targeted, variableId < network.vars.size
  targeted_all : model.targets = .all → ∀ variableId < network.vars.size,
    variableId ∈ network.targeted
  targeted_nodup : network.targeted.Nodup
  isMarkov_eq : ∀ variableId, network.isMarkov variableId =
    ((model.vars.get? variableId).bind Variable.strategy).any ValueStrategy.isMarkov
  deterministic : ∀ variableId, network.isMarkov variableId = false →
    (network.strategyOf variableId).Deterministic
  strategies_size : network.strategies.size = model.vars.size

/-- The propagators by weights are those of the variables that have a matrix. -/
theorem mem_markovPropagators {strategies : Table (Option (ValueStrategy VariableId))}
    {propagator : Propagator} : propagator ∈ markovPropagators strategies ↔
      ∃ weighted matrix, strategies.get? weighted = some (some (.markov matrix)) ∧
        propagator = .markov weighted matrix := by
  simp only [markovPropagators, List.mem_filterMap]
  constructor
  · rintro ⟨⟨strategy, weighted⟩, placed, found⟩
    rw [List.mem_zipIdx_iff_getElem?] at placed
    split at found
    · rename_i matrix other same
      cases same
      cases found
      exact ⟨weighted, matrix, by simpa [Table.get?, Table.toList] using placed, rfl⟩
    · cases found
  · rintro ⟨weighted, matrix, placed, rfl⟩
    refine ⟨(some (.markov matrix), weighted), ?_, rfl⟩
    rw [List.mem_zipIdx_iff_getElem?]
    simpa [Table.get?, Table.toList] using placed

namespace BuiltFor

variable {network : Network} {model : Model}

/-- The network that is put on top of a model does not matter to what is built for the model. -/
theorem onTop (built : network.BuiltFor model) (other : Option Network) :
    network.BuiltFor { model with network := other } where
  exists_lowered := built.exists_lowered
  declared_eq := built.declared_eq
  attached_eq := built.attached_eq
  markov_lt := built.markov_lt
  isWeighted := built.isWeighted
  targeted_lt := built.targeted_lt
  targeted_all := built.targeted_all
  targeted_nodup := built.targeted_nodup
  isMarkov_eq := built.isMarkov_eq
  deterministic := built.deterministic
  strategies_size := built.strategies_size

/-- The network has all variables of the model. -/
theorem size_le (built : network.BuiltFor model) : model.vars.size ≤ network.vars.size := by
  obtain ⟨lowering, added, lowered, sameVars, _⟩ := built.exists_lowered
  rw [sameVars]
  exact lowered.grows.size_le

/-- It has them at the same places. -/
theorem get?_eq (built : network.BuiltFor model) {variableId : VariableId}
    (declared : variableId < model.vars.size) :
    network.vars.get? variableId = model.vars.get? variableId := by
  obtain ⟨lowering, added, lowered, sameVars, _⟩ := built.exists_lowered
  rw [sameVars]
  exact lowered.grows.get?_eq declared

/-- It has them with the same domains. -/
theorem domainOf_eq (built : network.BuiltFor model) {variableId : VariableId}
    (declared : variableId < model.vars.size) :
    network.vars.domainOf variableId = model.vars.domainOf variableId := by
  rw [Directory.domainOf, Directory.domainOf, built.get?_eq declared]

/-- An added variable may have any value. -/
theorem domainOf_full (built : network.BuiltFor model) {variableId : VariableId}
    (added : model.vars.size ≤ variableId) (inside : variableId < network.vars.size) :
    network.vars.domainOf variableId = .full := by
  obtain ⟨lowering, _, lowered, sameVars, _⟩ := built.exists_lowered
  rw [sameVars] at inside ⊢
  exact lowered.grows.domainOf_full added inside

/-- An added variable has a generated name and nothing else of its own. -/
theorem generated (built : network.BuiltFor model) {variableId : VariableId}
    (added : model.vars.size ≤ variableId) (inside : variableId < network.vars.size) :
    ∃ attempt, network.vars.get? variableId = some
      ⟨generatedName variableId attempt, .full, none⟩ := by
  obtain ⟨lowering, _, lowered, sameVars, _⟩ := built.exists_lowered
  rw [sameVars] at inside ⊢
  exact lowered.grows.generated added inside

/-- The names of the added variables are new. -/
theorem distinct (built : network.BuiltFor model) (names : model.vars.Distinct) :
    network.vars.Distinct := by
  obtain ⟨lowering, _, lowered, sameVars, _⟩ := built.exists_lowered
  rw [sameVars]
  exact lowered.grows.distinct names

/-- A built network is coherent: its propagators read its variables, truth values are 0 or 1, and
weighted variables weigh what they should. -/
theorem coherent (built : network.BuiltFor model) : network.Coherent where
  attached_eq := built.attached_eq
  scope_lt {index propagator} found variableId reads := by
    obtain ⟨lowering, added, lowered, sameVars, samePropagators⟩ := built.exists_lowered
    have inside := Table.mem_toList_iff.mpr ⟨index, found⟩
    rw [samePropagators] at inside
    rcases List.mem_append.mp inside with inAdded | inMarkov
    · rw [sameVars]
      exact lowered.grows.scope_lt propagator inAdded variableId reads
    · exact Nat.lt_of_lt_of_le (built.markov_lt propagator inMarkov variableId reads) built.size_le
  accompanied {index operation left right result} found := by
    obtain ⟨lowering, added, lowered, _, samePropagators⟩ := built.exists_lowered
    have lookup : ∀ place, network.propagators.get? place =
        (added ++ markovPropagators network.strategies)[place]? := by
      intro place
      rw [← samePropagators, Table.toList, Array.getElem?_toList]
      rfl
    have accompanied : Accompanied (added ++ markovPropagators network.strategies) := by
      refine lowered.grows.accompanied.append (.of_forall_not_ring fun propagator inside => ?_)
      obtain ⟨_, _, _, rfl⟩ := mem_markovPropagators.mp inside
      rfl
    rw [lookup] at found
    obtain ⟨other, companion, different, foundOther, reads⟩ := accompanied _ _ _ _ _ found
    exact ⟨other, companion, different, (lookup other).trans foundOther, reads⟩

/-- Propagators at rest enforce every constraint that does not order a variable before itself. -/
theorem consistent (built : network.BuiltFor model) {family : Family}
    (nonempty : ∀ variableId < network.vars.size, (family variableId).Nonempty)
    (rest : ∀ propagator ∈ network.propagators.toList,
      propagator.Keeps family ∨ propagator.OrdersItself family)
    {constraint : Constraint} (inside : constraint ∈ model.constraints.toList)
    (possible : ¬ constraint.OrdersItself) :
    constraint.Consistent family := by
  obtain ⟨lowering, added, lowered, sameVars, samePropagators⟩ := built.exists_lowered
  refine lowered.consistent (fun variableId early => nonempty variableId (sameVars ▸ early))
    (fun propagator inAdded => ?_) constraint inside possible
  exact rest propagator (samePropagators ▸ List.mem_append_left _ inAdded)

/-- A propagator orders a variable before itself only if some constraint does. -/
theorem exists_ordersItself (built : network.BuiltFor model) {propagator : Propagator}
    (inside : propagator ∈ network.propagators.toList) {family : Family}
    (demands : propagator.OrdersItself family) :
    ∃ constraint ∈ model.constraints.toList, constraint.OrdersItself := by
  obtain ⟨lowering, added, lowered, _, samePropagators⟩ := built.exists_lowered
  rw [samePropagators] at inside
  rcases List.mem_append.mp inside with inAdded | inMarkov
  · exact lowered.exists_ordersItself propagator inAdded family demands
  · obtain ⟨_, _, _, rfl⟩ := mem_markovPropagators.mp inMarkov
    cases demands

/-- No variable has a Markov strategy. -/
theorem markovPropagators_eq_nil (unweighted : ∀ variableId, network.isMarkov variableId = false) :
    markovPropagators network.strategies = [] := by
  apply List.eq_nil_iff_forall_not_mem.mpr
  intro propagator inside
  obtain ⟨weighted, matrix, found, rfl⟩ := mem_markovPropagators.mp inside
  have plain := unweighted weighted
  simp [isMarkov, Table.getD, found, ValueStrategy.isMarkov] at plain

/-- There is no propagator by weights if no variable has a matrix. -/
theorem isMarkov_eq_false_of_mem (built : network.BuiltFor model)
    (unweighted : ∀ variableId, network.isMarkov variableId = false) {propagator : Propagator}
    (inside : propagator ∈ network.propagators.toList) : propagator.isMarkov = false := by
  obtain ⟨lowering, added, lowered, _, samePropagators⟩ := built.exists_lowered
  rw [samePropagators, markovPropagators_eq_nil unweighted, List.append_nil] at inside
  exact lowered.grows.unweighted propagator inside

/-- Without Markov strategies in the model there are none in the network. -/
theorem isMarkov_eq_false (built : network.BuiltFor model) (prepared : model.network = some network)
    (unweighted : ∀ variableId, model.isMarkov variableId = false) (variableId : VariableId) :
    network.isMarkov variableId = false := by
  rw [built.isMarkov_eq]
  by_cases declared : variableId < model.vars.size
  · have plain := unweighted variableId
    rw [Model.isMarkov, Model.allVariables, prepared] at plain
    exact built.get?_eq declared ▸ plain
  · rw [Directory.get?, (model.vars.table.get?_eq_none_iff variableId).mpr
      (Nat.le_of_not_lt declared)]
    rfl

/-- Domains of the declared variables that are consistent with all constraints can be extended to
the added variables. -/
theorem extend (built : network.BuiltFor model)
    (unweighted : ∀ variableId, network.isMarkov variableId = false) {family : Family}
    (consistent : ∀ constraint ∈ model.constraints.toList, constraint.Consistent family) :
    ∃ longer : Family, (∀ variableId < model.vars.size, longer variableId = family variableId) ∧
      (∀ variableId, model.vars.size ≤ variableId → variableId < network.vars.size →
        (longer variableId).Nonempty) ∧
      ∀ propagator ∈ network.propagators.toList, propagator.Keeps longer := by
  obtain ⟨lowering, added, lowered, sameVars, samePropagators⟩ := built.exists_lowered
  obtain ⟨longer, prolongs, keeps⟩ := lowered.extend consistent
  refine ⟨longer, prolongs.agree, fun variableId late inside => ?_, ?_⟩
  · exact prolongs.nonempty variableId late (sameVars ▸ inside)
  · rw [samePropagators, markovPropagators_eq_nil unweighted, List.append_nil]
    exact keeps

end BuiltFor

/-- A network is built for a model when its parts have been resolved faithfully. -/
theorem builtFor_build {model : Model} {targeted : Option (List VariableId)}
    {order : VariableOrder VariableId} {strategy : ValueStrategy VariableId}
    {strategies : Table (Option (ValueStrategy VariableId))}
    (wellFormed : ∀ constraint ∈ model.constraints.toList, constraint.WellFormed)
    (inside : ∀ constraint ∈ model.constraints.toList, ∀ variableId ∈ constraint.scope,
      variableId < model.vars.size)
    (markov_lt : ∀ propagator ∈ markovPropagators strategies, ∀ variableId ∈ propagator.scope,
      variableId < model.vars.size)
    (isWeighted : ∀ weighted matrix, .markov weighted matrix ∈ markovPropagators strategies →
      matrix.IsWeighted) (targeted_lt : ∀ variableIds, targeted = some variableIds →
        ∀ variableId ∈ variableIds, variableId < model.vars.size)
    (targeted_all : model.targets = .all → targeted = none)
    (isMarkov_eq : ∀ variableId, (strategies.getD variableId none).any ValueStrategy.isMarkov =
      ((model.vars.get? variableId).bind Variable.strategy).any ValueStrategy.isMarkov)
    (deterministic : ∀ variableId, (strategies.getD variableId none).any ValueStrategy.isMarkov =
      false → ((strategies.getD variableId none).getD strategy).Deterministic)
    (strategies_size : strategies.size = model.vars.size) :
    (build model.vars model.constraints.toList targeted order strategy strategies).BuiltFor
      model := by
  -- The constraints are lowered first and the propagators of the weights put behind them, so what
  -- the constraints have added stays in front.
  obtain ⟨added, lowered⟩ :=
    ConstraintSearch.exists_lowered model.constraints.toList model.lowering wellFormed inside
  generalize isLowered : model.constraints.toList.foldl
    (fun lowering constraint => constraint.lower lowering) model.lowering = lowering at lowered
  obtain ⟨sameVars, samePropagators⟩ := lowering.foldl_add (markovPropagators strategies)
  have addedEq : lowering.propagators.toList = added := lowered.grows.propagators_eq
  have startEq : ({ vars := model.vars, propagators := ∅ } : Lowering) = model.lowering := rfl
  have size_le : model.vars.size ≤ lowering.vars.size := lowered.grows.size_le
  simp only [build, startEq, isLowered]
  refine ⟨⟨lowering, added, lowered, sameVars, addedEq ▸ samePropagators⟩, rfl, rfl, markov_lt,
    isWeighted, ?_, ?_, ?_, isMarkov_eq, deterministic, strategies_size⟩
  · intro variableId isTarget
    simp only [sameVars] at isTarget ⊢
    cases targets : targeted with
    | none =>
      rw [targets] at isTarget
      exact List.mem_range.mp isTarget
    | some variableIds =>
      rw [targets] at isTarget
      exact Nat.lt_of_lt_of_le (targeted_lt variableIds targets variableId
        (List.mem_eraseDups.mp isTarget)) size_le
  · intro all variableId inVars
    rw [targeted_all all]
    exact List.mem_range.mpr inVars
  · cases targeted with
    | none => exact List.nodup_range
    | some variableIds => exact nodup_eraseDups variableIds

end Network

end ConstraintSearch
