import ConstraintSearch.Model.Constraint
import ConstraintSearch.Network.Propagator

/-!
# Lowering constraints to propagators

Each constraint becomes a few propagators. A sum or a product of many operands becomes a balanced
tree of binary operations, whose inner results are kept in variables that the lowering adds.
-/

namespace ConstraintSearch

/-- The variables and propagators made so far. -/
structure Lowering where
  vars : Variables
  propagators : Table Propagator

namespace Lowering

/-- Adds one propagator. -/
def add (lowering : Lowering) (propagator : Propagator) : Lowering :=
  { lowering with propagators := lowering.propagators.push propagator }

/-- Adds a comparison of two variables; one that asks for the greater operand first is turned
round. -/
def addRelation (lowering : Lowering) (comparison : Comparison) (left right : VariableId) :
    Lowering :=
  match comparison with
  | .gt => lowering.add (.relation .lt right left)
  | .gte => lowering.add (.relation .lte right left)
  | other => lowering.add (.relation other left right)

/-- Adds a reified comparison of two variables, turned round like one that is not reified. -/
def addReified (lowering : Lowering) (comparison : Comparison)
    (left right result : VariableId) : Lowering :=
  match comparison with
  | .gt => lowering.add (.reified .lt right left result)
  | .gte => lowering.add (.reified .lte right left result)
  | other => lowering.add (.reified other left right result)

/-- Adds an operation as three propagators: one for the result and one for each operand. -/
def addRing (lowering : Lowering) (operation : RingOperation)
    (left right result : VariableId) : Lowering :=
  ((lowering.add (.ring operation left right result)).add
    (.ring operation.inverse result right left)).add
      (.ring operation.inverse result left right)

/-- Adds a variable for an inner result. -/
def addVariable (lowering : Lowering) : VariableId × Lowering :=
  (lowering.vars.size,
    { lowering with vars := lowering.vars.pushAnonymous .full })

end Lowering

/-- The order in which the operands of a sum or product are combined. -/
inductive OperandTree
  | leaf (operand : VariableId)
  | node (left right : OperandTree)
deriving DecidableEq, Repr

namespace OperandTree

/-- The operands from left to right. -/
def leaves : OperandTree → List VariableId
  | leaf operand => [operand]
  | node left right => left.leaves ++ right.leaves

/-- The greatest number of operations between an operand and the result. -/
def depth : OperandTree → Nat
  | leaf _ => 0
  | node left right => max left.depth right.depth + 1

/-- The tree that halves its operands at every node, the left half being the smaller one; none
without operands. -/
def balanced? : List VariableId → Option OperandTree
  | [] => none
  | [operand] => some (leaf operand)
  | first :: second :: others =>
    let operands := first :: second :: others
    match balanced? (operands.take (operands.length / 2)),
        balanced? (operands.drop (operands.length / 2)) with
    | some left, some right => some (node left right)
    | _, _ => none
termination_by operands => operands.length
decreasing_by all_goals simp; omega

/-- The variable that holds the value of a part of the tree: the operand itself, or an added
variable. -/
def lowerPart (operation : RingOperation) : OperandTree → Lowering → VariableId × Lowering
  | leaf operand, lowering => (operand, lowering)
  | node left right, lowering =>
    let (result, lowering) := lowering.addVariable
    let (left, lowering) := left.lowerPart operation lowering
    let (right, lowering) := right.lowerPart operation lowering
    (result, lowering.addRing operation left right result)

/-- Adds the operations of the whole tree, the last of which gives the result. -/
def lower (operation : RingOperation) (result : VariableId) :
    OperandTree → Lowering → Lowering
  | leaf operand, lowering => lowering.addRelation .eq operand result
  | node left right, lowering =>
    let (left, lowering) := left.lowerPart operation lowering
    let (right, lowering) := right.lowerPart operation lowering
    lowering.addRing operation left right result

end OperandTree

/-- Every entry of a list paired with every later one. -/
def orderedPairs {α : Type} : List α → List (α × α)
  | [] => []
  | first :: rest => rest.map (fun other => (first, other)) ++ orderedPairs rest

/-- Adds the propagators of a constraint. A constraint with operands or a result that its operator
does not take adds none; no model holds one. -/
def Constraint.lower (constraint : Constraint) (lowering : Lowering) : Lowering :=
  match constraint.operator, constraint.operands, constraint.result with
  | .compare comparison, [left, right], _ => lowering.addRelation comparison left right
  | .distinct, operands, _ =>
    (orderedPairs operands).foldl (fun lowering pair =>
      lowering.addRelation .neq pair.1 pair.2) lowering
  | .plus, [left, right], some result => lowering.addRing .plus left right result
  | .minus, [left, right], some result => lowering.addRing .plus result right left
  | .mul, [left, right], some result => lowering.addRing .mul left right result
  | .div, [left, right], some result => lowering.addRing .mul result right left
  | .sum, operands, some result =>
    (OperandTree.balanced? operands).elim lowering fun tree => tree.lower .plus result lowering
  | .product, operands, some result =>
    (OperandTree.balanced? operands).elim lowering fun tree => tree.lower .mul result lowering
  | .reify comparison, [left, right], some result =>
    lowering.addReified comparison left right result
  | _, _, _ => lowering

end ConstraintSearch
