import ConstraintSearch.Comparison
import ConstraintSearch.Domain.Arithmetic
import ConstraintSearch.Model.Name
import ConstraintSearch.Strategy.Markov

/-!
# Propagators

A propagator narrows the domains of a few variables to what a simple relation between them allows.
This module holds the kinds of propagators, the variables that each reads, and the relation that
each stands for.
-/

namespace ConstraintSearch

/-- The arithmetic by which one domain follows from two others. -/
inductive RingOperation
  | plus
  | minus
  | mul
  | divBy
deriving DecidableEq, Repr

namespace RingOperation

/-- The name under which propagators with the operation are shown. -/
def name : RingOperation → String
  | plus => "ring-plus"
  | minus => "ring-minus"
  | mul => "ring-mul"
  | divBy => "ring-div"

/-- The operation which recovers one operand from the result and the other operand. -/
def inverse : RingOperation → RingOperation
  | plus => minus
  | minus => plus
  | mul => divBy
  | divBy => mul

/-- The operation on domains. -/
def apply : RingOperation → Domain → Domain → Domain
  | plus => Domain.plus
  | minus => Domain.minus
  | mul => Domain.mul
  | divBy => Domain.divBy

/-- Whether the operation gives the result from two integers. A quotient is a value whose product
with the divisor is the dividend, so that 0 divided by 0 may be anything. -/
def Holds : RingOperation → (left right result : Int) → Prop
  | plus, left, right, result => left + right = result
  | minus, left, right, result => left - right = result
  | mul, left, right, result => left * right = result
  | divBy, left, right, result => result * right = left

end RingOperation

/-- A narrowing of the domains of a few variables. -/
inductive Propagator
  /-- The comparison holds between the operands. -/
  | relation (comparison : Comparison) (left right : VariableId)
  /-- The result tells whether the comparison holds between the operands. -/
  | reified (comparison : Comparison) (left right result : VariableId)
  /-- The operation gives the result. -/
  | ring (operation : RingOperation) (left right result : VariableId)
  /-- The value of the variable has a positive weight. -/
  | markov (weighted : VariableId) (matrix : MarkovMatrix VariableId)

namespace Propagator

/-- The name of the kind of propagator. -/
def name : Propagator → String
  | relation comparison _ _ => comparison.name
  | reified _ _ _ _ => "reified"
  | ring operation _ _ _ => operation.name
  | markov _ _ => "markov"

/-- The text that shows the propagator. -/
def text : Propagator → String
  | relation comparison left right =>
    comparison.name ++ "(" ++ left.text ++ ", " ++ right.text ++ ")"
  | reified comparison left right result =>
    result.text ++ " <-> " ++ comparison.name ++ "(" ++ left.text ++ ", " ++ right.text ++ ")"
  | ring operation left right result =>
    result.text ++ " <- " ++ operation.name ++ "(" ++ left.text ++ ", " ++ right.text ++ ")"
  | markov weighted _ => "markov(" ++ weighted.text ++ ")"

/-- The variables whose domains the propagator reads, each once. -/
def scope : Propagator → List VariableId
  | relation _ left right => [left, right].eraseDups
  | reified _ left right result => [left, right, result].eraseDups
  | ring _ left right result => [left, right, result].eraseDups
  | markov weighted matrix => (weighted :: matrix.rows.filterMap MarkovRow.guard).eraseDups

@[simp] theorem mem_scope_relation {comparison : Comparison} {left right variableId : VariableId} :
    variableId ∈ (relation comparison left right).scope ↔
      variableId = left ∨ variableId = right := by
  simp [scope, List.mem_eraseDups]

@[simp] theorem mem_scope_reified {comparison : Comparison}
    {left right result variableId : VariableId} :
    variableId ∈ (reified comparison left right result).scope ↔
      variableId = left ∨ variableId = right ∨ variableId = result := by
  simp [scope, List.mem_eraseDups]

@[simp] theorem mem_scope_ring {operation : RingOperation}
    {left right result variableId : VariableId} :
    variableId ∈ (ring operation left right result).scope ↔
      variableId = left ∨ variableId = right ∨ variableId = result := by
  simp [scope, List.mem_eraseDups]

@[simp] theorem mem_scope_markov {weighted variableId : VariableId}
    {matrix : MarkovMatrix VariableId} : variableId ∈ (markov weighted matrix).scope ↔
      variableId = weighted ∨ variableId ∈ matrix.rows.filterMap MarkovRow.guard := by
  rw [scope, List.mem_eraseDups, List.mem_cons]

/-- Whether an assignment of values to variables satisfies the propagator's relation. -/
def Holds (propagator : Propagator) (assignment : VariableId → Int) : Prop :=
  match propagator with
  | relation comparison left right => comparison.Holds (assignment left) (assignment right)
  | reified comparison left right result =>
    (assignment result = 1 ∧ comparison.Holds (assignment left) (assignment right)) ∨
      (assignment result = 0 ∧ ¬ comparison.Holds (assignment left) (assignment right))
  | ring operation left right result =>
    operation.Holds (assignment left) (assignment right) (assignment result)
  | markov weighted matrix =>
    0.0 < matrix.weightOf (assignment weighted) (Domain.value (assignment weighted))
      fun guard => assignment guard == 1

end Propagator

end ConstraintSearch
