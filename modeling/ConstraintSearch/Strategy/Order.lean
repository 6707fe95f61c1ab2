import ConstraintSearch.Model.Error

/-!
# Variable orders

A variable order decides which variable the search branches on. It is a chain of criteria, each of
which decides between the variables that the ones before it hold equal. Listed variables are names
in a declaration and variables once a model is prepared, so they are a parameter.
-/

namespace ConstraintSearch

/-- A ground for preferring one variable to another. -/
inductive Criterion (Listed : Type)
  /-- None: all variables are equal. -/
  | naive
  /-- Fewer values first. -/
  | size
  /-- The smaller lower bound first. -/
  | min
  /-- The larger upper bound first. -/
  | max
  /-- Variables with a Markov strategy first. -/
  | markov
  /-- Listed variables before all others, the earlier ones first, or the later ones if the list is
  inverted. -/
  | list (listed : List Listed) (inverted : Bool)
deriving DecidableEq, Repr

/-- A criterion and those that break its ties. -/
structure VariableOrder (Listed : Type) where
  first : Criterion Listed := .naive
  ties : List (Criterion Listed) := []
deriving DecidableEq, Repr

namespace Criterion

variable {Listed : Type}

/-- The criterion of a name; the list of a list criterion is empty. -/
def parse : String → Except ModelError (Criterion Listed)
  | "naive" => .ok naive
  | "size" => .ok size
  | "min" => .ok min
  | "max" => .ok max
  | "markov" => .ok markov
  | "list" => .ok (list [] false)
  | unknown => .error (.unknownStrategy unknown)

/-- The name by which the criterion is shown. -/
def title : Criterion Listed → String
  | naive => "Naive"
  | size => "Size"
  | min => "Min"
  | max => "Max"
  | markov => "Markov"
  | list _ _ => "List"

/-- The criterion with the later listed variables first. -/
def inverted : Criterion Listed → Criterion Listed
  | list listed _ => list listed true
  | other => other

end Criterion

/-- All criteria of the chain, from the first one on. -/
def VariableOrder.criteria {Listed : Type} (order : VariableOrder Listed) :
    List (Criterion Listed) :=
  order.first :: order.ties

end ConstraintSearch
