/-!
# Comparisons

The six comparisons of two values, their names, and what they say of integers.
-/

namespace ConstraintSearch

/-- A comparison of two values. -/
inductive Comparison
  | eq
  | neq
  | lt
  | lte
  | gt
  | gte
deriving DecidableEq, Repr

namespace Comparison

/-- All comparisons. -/
def all : List Comparison :=
  [eq, neq, lt, lte, gt, gte]

theorem mem_all (comparison : Comparison) : comparison ∈ all := by
  cases comparison <;> decide

/-- The name by which a comparison is declared and shown. -/
def name : Comparison → String
  | eq => "eq"
  | neq => "neq"
  | lt => "lt"
  | lte => "lte"
  | gt => "gt"
  | gte => "gte"

/-- What the comparison says of two integers. -/
def Holds : Comparison → Int → Int → Prop
  | eq, left, right => left = right
  | neq, left, right => left ≠ right
  | lt, left, right => left < right
  | lte, left, right => left ≤ right
  | gt, left, right => right < left
  | gte, left, right => right ≤ left

instance : (comparison : Comparison) → (left right : Int) → Decidable (comparison.Holds left right)
  | eq, left, right => inferInstanceAs (Decidable (left = right))
  | neq, left, right => inferInstanceAs (Decidable (left ≠ right))
  | lt, left, right => inferInstanceAs (Decidable (left < right))
  | lte, left, right => inferInstanceAs (Decidable (left ≤ right))
  | gt, left, right => inferInstanceAs (Decidable (right < left))
  | gte, left, right => inferInstanceAs (Decidable (right ≤ left))

/-- The comparison that holds exactly where this one does not. -/
def negate : Comparison → Comparison
  | eq => neq
  | neq => eq
  | lt => gte
  | gte => lt
  | lte => gt
  | gt => lte

/-- The negation holds just where the comparison does not. -/
theorem holds_negate (comparison : Comparison) (left right : Int) :
    comparison.negate.Holds left right ↔ ¬ comparison.Holds left right := by
  cases comparison <;> simp only [negate, Holds] <;> omega

end Comparison

end ConstraintSearch
