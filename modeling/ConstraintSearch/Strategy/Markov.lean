import ConstraintSearch.Domain.Basic

/-!
# Markov matrices

A Markov matrix gives each value of a legend a weight. It has several rows, which boolean variables
guard: the first row without a guard or with a true one is active. The guards are names in a
declaration and variables once a model is prepared, so they are a parameter.
-/

namespace ConstraintSearch

/-- Weights for the values of a legend, possibly guarded by a boolean. -/
structure MarkovRow (Guard : Type) where
  weights : List Float
  guard : Option Guard

/-- The values which are weighted and their weights. If there is an expansion weight, the values of
a domain which the legend lacks are added to it, and short rows are filled up with that weight. -/
structure MarkovMatrix (Guard : Type) where
  legend : List Int
  rows : List (MarkovRow Guard)
  expansion : Option Float

/-- A weight is a finite number that is not negative. -/
def isWeight (weight : Float) : Bool :=
  weight.isFinite && 0.0 ≤ weight

namespace MarkovMatrix

variable {Guard : Type}

/-- The first row without a guard or with a true one, or else the last row. -/
def activeRow? (matrix : MarkovMatrix Guard) (isTrue : Guard → Bool) : Option (MarkovRow Guard) :=
  (matrix.rows.find? fun row => row.guard.all isTrue).or matrix.rows.getLast?

/-- The values that are weighted for a variable with the given domain. -/
def legendFor (matrix : MarkovMatrix Guard) (domain : Domain) : List Int :=
  match matrix.expansion with
  | none => matrix.legend
  | some _ => matrix.legend ++ domain.values.filter fun value => !matrix.legend.contains value

/-- The weights of a row, filled up to the given count if rows are expanded. -/
def weightsOf (matrix : MarkovMatrix Guard) (row : MarkovRow Guard) (count : Nat) : List Float :=
  match matrix.expansion with
  | none => row.weights
  | some weight => row.weights ++ List.replicate (count - row.weights.length) weight

/-- The weight of a value for a variable with the given domain: that of its first place in the
legend, and 0 without a place or a row. -/
def weightOf (matrix : MarkovMatrix Guard) (value : Int) (domain : Domain)
    (isTrue : Guard → Bool) : Float :=
  match matrix.activeRow? isTrue with
  | none => 0.0
  | some row =>
    let legend := matrix.legendFor domain
    let weights := matrix.weightsOf row legend.length
    ((legend.findIdx? (· == value)).bind fun place => weights[place]?).getD 0.0

/-- The values of the domain with a positive weight, paired with it, in the order of the legend. -/
def candidates (matrix : MarkovMatrix Guard) (row : MarkovRow Guard) (domain : Domain) :
    List (Int × Float) :=
  let legend := matrix.legendFor domain
  (legend.zip (matrix.weightsOf row legend.length)).filter fun (value, weight) =>
    0.0 < weight && value ∈ domain

end MarkovMatrix

end ConstraintSearch
