import ConstraintSearch.Network.Lowering
import ConstraintSearch.Strategy.Order

/-!
# Networks

A network is what a search works on: the variables of a prepared model, its propagators, for each
variable the propagators that read it, the variables which a solution has to fix, and the strategies
with their names resolved.
-/

namespace ConstraintSearch

/-- A prepared model. -/
structure Network where
  /-- The declared variables, followed by those that the lowering added. -/
  vars : Variables
  /-- The number of declared variables. -/
  declared : Nat
  propagators : Table Propagator
  /-- For each variable, the propagators which have to run when it changes, in increasing order. -/
  attached : Table (List Nat)
  targeted : List VariableId
  order : VariableOrder VariableId
  /-- The strategy of every variable without one of its own. -/
  strategy : ValueStrategy VariableId
  /-- The strategies of the declared variables that have one of their own. -/
  strategies : Table (Option (ValueStrategy VariableId))

/-- For each variable, the propagators which read it. A variable that is fixed from the start has
none, since it never changes. -/
def attachedPropagators (vars : Variables) (propagators : Table Propagator) :
    Table (List Nat) :=
  propagators.toList.zipIdx.foldr
    (fun (propagator, index) attached =>
      propagator.scope.foldl
        (fun attached reader =>
          if (vars.domainOf reader).isSolved then attached
          else attached.modify reader (index :: ·))
        attached)
    (vars.table.map fun _ => [])

namespace Network

/-- Whether an assignment takes its values from the initial domains and satisfies the relation of
every propagator. -/
def Satisfied (network : Network) (assignment : VariableId → Int) : Prop :=
  network.vars.Admits assignment ∧ ∀ propagator ∈ network.propagators.toList,
    propagator.Holds assignment

/-- The strategy by which the domain of a variable is divided. -/
def strategyOf (network : Network) (variableId : VariableId) : ValueStrategy VariableId :=
  (network.strategies.getD variableId none).getD network.strategy

/-- Whether the variable has a Markov strategy of its own. -/
def isMarkov (network : Network) (variableId : VariableId) : Bool :=
  (network.strategies.getD variableId none).any ValueStrategy.isMarkov

/-- The Markov propagators, in the order of their variables. -/
def markovPropagators (strategies : Table (Option (ValueStrategy VariableId))) :
    List Propagator :=
  strategies.toList.zipIdx.filterMap fun
    | (some (.markov matrix), weighted) => some (.markov weighted matrix)
    | _ => none

/-- The network of declared variables and constraints. Without targeted variables of its own, all
variables are targeted. -/
def build (vars : Variables) (constraints : List Constraint)
    (targeted : Option (List VariableId)) (order : VariableOrder VariableId)
    (strategy : ValueStrategy VariableId)
    (strategies : Table (Option (ValueStrategy VariableId))) : Network :=
  let lowered := constraints.foldl (fun lowering constraint => constraint.lower lowering)
    { vars, propagators := ∅ }
  let lowered := (markovPropagators strategies).foldl Lowering.add lowered
  { vars := lowered.vars
    declared := vars.size
    propagators := lowered.propagators
    attached := attachedPropagators lowered.vars lowered.propagators
    targeted := targeted.elim lowered.vars.table.keys List.eraseDups
    order
    strategy
    strategies }

end Network

end ConstraintSearch
