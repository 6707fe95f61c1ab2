import ConstraintSearch.Journal
import ConstraintSearch.Network.Basic

/-!
# Models

A model is the definition of a problem: its variables, its constraints, the variables to be fixed
and the strategies of the search. A prepared model has a network on top, which any modification
drops again; the declarations below it are never touched by preparing.
-/

namespace ConstraintSearch

/-- The definition of a problem. -/
structure Model where
  vars : Variables := ∅
  /-- The values that were used as literals, each with the variable that stands for it. -/
  constants : List (Int × VariableId) := []
  constraints : Constraints := ∅
  targets : Targets := .all
  order : VariableOrder String := {}
  /-- The strategy of every variable without one of its own. -/
  strategy : ValueStrategy String := .min
  network : Option Network := none

namespace Model

instance : Inhabited Model :=
  ⟨{}⟩

/-- Whether an assignment takes its values from the declared domains and satisfies every declared
constraint. -/
def Satisfied (model : Model) (assignment : VariableId → Int) : Prop :=
  model.vars.Admits assignment ∧ ∀ constraint ∈ model.constraints.toList,
    constraint.Holds assignment

/-- Whether the model has a network. -/
def isPrepared (model : Model) : Bool :=
  model.network.isSome

/-- The declared variables, and behind them those of the network of a prepared model. -/
def allVariables (model : Model) : Variables :=
  model.network.elim model.vars Network.vars

/-- The propagators of a prepared model; none if it is not prepared. -/
def propagators (model : Model) : Table Propagator :=
  model.network.elim ∅ Network.propagators

/-- The variable with the name, among all variables. -/
def find? (model : Model) (name : String) : Option VariableId :=
  model.allVariables.keyOf? name

/-- The strategy of a variable. -/
def strategyOf (model : Model) (variableId : VariableId) : ValueStrategy String :=
  ((model.allVariables.get? variableId).bind Variable.strategy).getD model.strategy

/-- Whether a variable has a Markov strategy of its own. -/
def isMarkov (model : Model) (variableId : VariableId) : Bool :=
  ((model.allVariables.get? variableId).bind Variable.strategy).any ValueStrategy.isMarkov

/-- The variable that stands for a literal. -/
def constant? (model : Model) (value : Int) : Option VariableId :=
  model.constants.lookup value

/-- The constraint with the operator and operands, if it was declared before. -/
def declared? (model : Model) (operator : Operator) (operands : List VariableId) :
    Option Constraint :=
  model.constraints.find? (signature operator operands)

/-- What was declared before is the first constraint with the operator and operands. -/
theorem declared?_eq_find? (model : Model) (operator : Operator) (operands : List VariableId) :
    model.declared? operator operands =
      model.constraints.table.find? fun constraint =>
        constraint.operator = operator ∧ constraint.operands = operands := by
  rw [declared?, Directory.find?_eq_find?]
  simp only [Constraint.signature, signature_eq_iff]

end Model

end ConstraintSearch
