import ConstraintSearch.Model.Error
import ConstraintSearch.Strategy.Markov

/-!
# Value strategies

A value strategy decides how the domain of a variable is divided into a part that is tried first and
the rest.
-/

namespace ConstraintSearch

/-- How the domain of a variable is divided. -/
inductive ValueStrategy (Guard : Type)
  /-- The smallest value first. -/
  | min
  /-- The largest value first. -/
  | max
  /-- The middle value of the enumeration first. -/
  | mid
  /-- The values in the lower half of the range first. -/
  | splitMin
  /-- The values in the upper half of the range first. -/
  | splitMax
  /-- The smallest value first for variables at an even position, the largest first for the
  others. -/
  | minMaxCycle
  /-- The first listed value that the domain has; if it has none of them, as the fallback says. -/
  | list (values : List Int) (fallback : ValueStrategy Guard)
  /-- A value drawn according to the weights of a matrix. -/
  | markov (matrix : MarkovMatrix Guard)

namespace ValueStrategy

variable {Guard : Type}

instance : Inhabited (ValueStrategy Guard) :=
  ⟨min⟩

/-- The name by which the strategy is shown. -/
def name : ValueStrategy Guard → String
  | min => "min"
  | max => "max"
  | mid => "mid"
  | splitMin => "splitMin"
  | splitMax => "splitMax"
  | minMaxCycle => "minMaxCycle"
  | list _ _ => "list"
  | markov _ => "markov"

/-- Whether values are drawn by weight. -/
def isMarkov : ValueStrategy Guard → Bool
  | markov _ => true
  | _ => false

/-- The strategy of a name. The strategies which need options have none. -/
def parse : String → Except ModelError (ValueStrategy Guard)
  | "min" | "naive" => .ok min
  | "max" => .ok max
  | "mid" => .ok mid
  | "splitMin" => .ok splitMin
  | "splitMax" => .ok splitMax
  | "minMaxCycle" => .ok minMaxCycle
  | "list" => .error (.invalidStrategy "*" (.withoutOptions "list"))
  | "markov" => .error (.invalidStrategy "*" (.withoutOptions "markov"))
  | unknown => .error (.unknownStrategy unknown)

end ValueStrategy

end ConstraintSearch
