import ConstraintSearch.Directory
import ConstraintSearch.Model.Name
import ConstraintSearch.Model.Operator
import ConstraintSearch.Strategy.Value

/-!
# Variables and constraints

A model declares variables, each with a name and an initial domain, and constraints between them.
-/

namespace ConstraintSearch

/-- A declared variable. -/
structure Variable where
  name : String
  domain : Domain
  /-- How its domain is divided, if not as for all variables. -/
  strategy : Option (ValueStrategy String) := none

/-- Variables, which are found by their names. -/
abbrev Variables :=
  Directory Variable Variable.name

/-- What a constraint is declared to be about: a variable, by name or position, or a value. -/
inductive Operand
  | named (name : String)
  | position (variableId : VariableId)
  | literal (value : Int)
deriving DecidableEq, Repr

/-- An operator on variables, with the variable of its result if it produces a value. -/
structure Constraint where
  operator : Operator
  operands : List VariableId
  result : Option VariableId
deriving DecidableEq, Repr

/-- Numbers that tell the operator and the operands, in that order. -/
def signature (operator : Operator) (operands : List VariableId) : List Nat :=
  operator.rank :: operands

/-- Two signatures are equal only for the same operator on the same operands. -/
theorem signature_eq_iff {operator other : Operator} {operands others : List VariableId} :
    signature operator operands = signature other others ↔
      operator = other ∧ operands = others := by
  rw [signature, signature, List.cons.injEq, Operator.rank_inj]

/-- The signature of the operator and the operands of the constraint. -/
def Constraint.signature (constraint : Constraint) : List Nat :=
  ConstraintSearch.signature constraint.operator constraint.operands

/-- Constraints, which are found by their operators and operands. -/
abbrev Constraints :=
  Directory Constraint Constraint.signature

/-- The variables which a solution has to fix. -/
inductive Targets
  /-- Every variable, also those that the model adds by itself. -/
  | all
  | named (names : List String)
deriving DecidableEq, Repr

/-- The name under which a variable is shown. -/
def Directory.nameOf (vars : Variables) (variableId : VariableId) : String :=
  ((vars.get? variableId).map Variable.name).getD variableId.text

/-- The initial domain of a variable. -/
def Directory.domainOf (vars : Variables) (variableId : VariableId) : Domain :=
  ((vars.get? variableId).map Variable.domain).getD ∅

/-- The constraint as it was declared, `operator(operands) -> result`, with the names of its
variables. -/
def Constraint.text (constraint : Constraint) (vars : Variables) : String :=
  let operands := ", ".intercalate (constraint.operands.map vars.nameOf)
  let result :=
    match constraint.result with
    | none => ""
    | some result => " -> " ++ vars.nameOf result
  constraint.operator.name ++ "(" ++ operands ++ ")" ++ result

/-- Whether an assignment of values to variables satisfies the constraint. -/
def Constraint.Holds (constraint : Constraint) (assignment : VariableId → Int) : Prop :=
  constraint.operator.Holds (constraint.operands.map assignment) (constraint.result.map assignment)

/-- Whether an assignment gives every variable a value of its domain. -/
def Directory.Admits (vars : Variables) (assignment : VariableId → Int) : Prop :=
  ∀ variableId < vars.size, assignment variableId ∈ vars.domainOf variableId

/-! ### Variables without a declared name -/

/-- The names which a variable at a position may be given when it has none of its own, in the order
in which they are tried. -/
def generatedName (position : Nat) : (attempt : Nat) → String
  | 0 => s!"__{position}"
  | attempt@(_ + 1) => s!"__{position}_{attempt}"

/-- The first generated name from an attempt on that no variable has, or the one after the last
attempt. -/
def unusedNameFrom (vars : Variables) : (remaining attempt : Nat) → String
  | 0, attempt => generatedName vars.size attempt
  | remaining + 1, attempt =>
    let name := generatedName vars.size attempt
    if (vars.keyOf? name).isSome then
      unusedNameFrom vars remaining (attempt + 1)
    else
      name

/-- The first generated name that no variable has. There are more attempts than variables, so there
is one. -/
def unusedName (vars : Variables) : String :=
  unusedNameFrom vars vars.size 0

/-- The variables with one more, under a generated name. -/
def Directory.pushAnonymous (vars : Variables) (domain : Domain) : Variables :=
  vars.push { name := unusedName vars, domain }

end ConstraintSearch
