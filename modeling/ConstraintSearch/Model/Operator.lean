import ConstraintSearch.Comparison
import ConstraintSearch.Domain.Basic
import ConstraintSearch.Model.Error

/-!
# Operators

An operator compares its operands, or produces a value from them. A reified comparison produces 1
where it holds and 0 where it does not. `Operator.Holds` says what an operator asks of the values of
its operands and of its result.
-/

namespace ConstraintSearch

/-- An operator with which constraints are declared. -/
inductive Operator
  | compare (comparison : Comparison)
  | distinct
  | plus
  | minus
  | mul
  | div
  | sum
  | product
  | reify (comparison : Comparison)
deriving DecidableEq, Repr

namespace Operator

/-- All operators. -/
def all : List Operator :=
  [distinct, plus, minus, mul, div, sum, product] ++ Comparison.all.map compare ++
    Comparison.all.map reify

theorem mem_all (operator : Operator) : operator ∈ all := by
  cases operator <;> simp [all, Comparison.mem_all]

/-- The place of the operator among all operators. -/
def rank (operator : Operator) : Nat :=
  all.idxOf operator

/-- Different operators have different ranks. -/
theorem rank_inj {left right : Operator} : left.rank = right.rank ↔ left = right := by
  refine ⟨fun same => ?_, congrArg rank⟩
  have leftPlace := List.getElem_idxOf (List.idxOf_lt_length_of_mem (mem_all left))
  have rightPlace := List.getElem_idxOf (List.idxOf_lt_length_of_mem (mem_all right))
  simp only [rank] at same
  simp only [same] at leftPlace
  exact leftPlace.symm.trans rightPlace

/-- The name by which the operator is declared and shown. -/
def name : Operator → String
  | compare comparison => comparison.name
  | distinct => "distinct"
  | plus => "plus"
  | minus => "minus"
  | mul => "mul"
  | div => "div"
  | sum => "sum"
  | product => "product"
  | reify comparison => "is" ++ comparison.name

/-- The operator of a name or a comparison sign. -/
def parse : String → Except ModelError Operator
  | "eq" | "==" => .ok (compare .eq)
  | "neq" | "!=" => .ok (compare .neq)
  | "lt" | "<" => .ok (compare .lt)
  | "lte" | "<=" => .ok (compare .lte)
  | "gt" | ">" => .ok (compare .gt)
  | "gte" | ">=" => .ok (compare .gte)
  | "distinct" => .ok distinct
  | "plus" => .ok plus
  | "minus" => .ok minus
  | "mul" => .ok mul
  | "div" => .ok div
  | "sum" => .ok sum
  | "product" => .ok product
  | "iseq" => .ok (reify .eq)
  | "isneq" => .ok (reify .neq)
  | "islt" => .ok (reify .lt)
  | "islte" => .ok (reify .lte)
  | "isgt" => .ok (reify .gt)
  | "isgte" => .ok (reify .gte)
  | unknown => .error (.unknownOperator unknown)

/-- Whether the operator has a result; one without only restricts its operands. -/
def producesValue : Operator → Bool
  | compare _ | distinct => false
  | _ => true

/-- Whether the result tells whether a comparison holds. -/
def isReified : Operator → Bool
  | reify _ => true
  | _ => false

/-- The number of operands the operator takes. -/
def arity : Operator → Arity
  | distinct => .atLeast 0
  | sum | product => .atLeast 1
  | _ => .exactly 2

/-- The domain of a result that is not bound to anything else. -/
def resultDomain (operator : Operator) : Domain :=
  if operator.isReified then .range 0 1 else .full

/-- Whether the operator relates the values of its operands to that of its result. A quotient is a
value whose product with the divisor is the dividend. -/
def Holds : Operator → (operands : List Int) → (result : Option Int) → Prop
  | compare comparison, [left, right], none => comparison.Holds left right
  | distinct, operands, none => operands.Nodup
  | plus, [left, right], some result => left + right = result
  | minus, [left, right], some result => left - right = result
  | mul, [left, right], some result => left * right = result
  | div, [left, right], some result => result * right = left
  | sum, operands, some result => operands.foldr (· + ·) 0 = result
  | product, operands, some result => operands.foldr (· * ·) 1 = result
  | reify comparison, [left, right], some result =>
    (result = 1 ∧ comparison.Holds left right) ∨ (result = 0 ∧ ¬ comparison.Holds left right)
  | _, _, _ => False

end Operator

end ConstraintSearch
