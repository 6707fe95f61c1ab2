import ConstraintSearch.Domain.Size
import ConstraintSearch.Random.Generator
import ConstraintSearch.Search.Space

/-!
# Dividing the domain of a variable

A value strategy divides a domain into two parts. The first choice gives one part and the value by
which it was divided; the second choice, with that value, gives the other part; there is no third
one. A part is always smaller than the whole, which keeps the search tree finite.
-/

namespace ConstraintSearch

/-- A part of a divided domain, and the value by which the domain was divided. -/
structure Part where
  domain : Domain
  lastChosen : Option Int

namespace Domain

/-- The middle between the smallest and the largest value, rounded down. -/
def midpoint? (domain : Domain) : Option Int :=
  match domain.min?, domain.max? with
  | some smallest, some greatest => some (smallest + (greatest - smallest) / 2)
  | _, _ => none

/-- The picked value first, and then the domain without it. -/
def pickThenRemove (domain : Domain) (pick lastChosen : Option Int) : (choice : Nat) → Option Part
  | 0 => pick.map fun value => ⟨.value value, some value⟩
  | 1 => lastChosen.map fun value => ⟨domain.removeValue value, lastChosen⟩
  | _ => none

/-- The values up to the midpoint first, and then those above it. -/
def lowerHalfFirst (domain : Domain) (lastChosen : Option Int) : (choice : Nat) → Option Part
  | 0 => domain.midpoint?.map fun middle => ⟨domain.removeAbove middle, some middle⟩
  | 1 => lastChosen.map fun middle => ⟨domain.removeBelow (middle + 1), lastChosen⟩
  | _ => none

/-- The values above the midpoint first, and then those up to it. -/
def upperHalfFirst (domain : Domain) (lastChosen : Option Int) : (choice : Nat) → Option Part
  | 0 => domain.midpoint?.map fun middle => ⟨domain.removeBelow (middle + 1), some middle⟩
  | 1 => lastChosen.map fun middle => ⟨domain.removeAbove middle, lastChosen⟩
  | _ => none

end Domain

variable {γ : Type} [Generator γ]

/-- A value drawn by weight among those of the domain first, and then the domain without it. -/
def MarkovMatrix.divide (matrix : MarkovMatrix VariableId) (domain : Domain) (space : Space)
    (choice : Nat) (generator : γ) : Option (Part × γ) :=
  match choice with
  | 0 => do
    let row ← matrix.activeRow? fun guard => (space.domainOf guard).isValue 1
    let candidates := matrix.candidates row domain
    let (index, generator) ← Generator.weightedChoice? (candidates.map Prod.snd) generator
    let (value, _) ← candidates[index]?
    return (⟨.value value, some value⟩, generator)
  | 1 => space.lastChosen.map fun value => (⟨domain.removeValue value, space.lastChosen⟩, generator)
  | _ => none

/-- The part of a variable's domain that a strategy gives for a choice. A domain of at most one
value is not divided. -/
def ValueStrategy.divide (variableId : VariableId) (space : Space) (choice : Nat)
    (generator : γ) : ValueStrategy VariableId → Option (Part × γ) := fun strategy =>
  let domain := space.domainOf variableId
  let pick (value : Option Int) :=
    (domain.pickThenRemove value space.lastChosen choice).map (·, generator)
  if domain.isEmpty || domain.isSolved then
    none
  else
    match strategy with
    | .min => pick domain.min?
    | .max => pick domain.max?
    | .mid => pick domain.middle?
    | .splitMin => (domain.lowerHalfFirst space.lastChosen choice).map (·, generator)
    | .splitMax => (domain.upperHalfFirst space.lastChosen choice).map (·, generator)
    | .minMaxCycle => pick (if variableId % 2 = 0 then domain.min? else domain.max?)
    | .list values fallback =>
      match domain.firstMember? values with
      | some value => pick (some value)
      | none => fallback.divide variableId space choice generator
    | .markov matrix => matrix.divide domain space choice generator

/-- A part of a variable's domain in a space that is smaller than the domain. -/
structure SmallerPart (space : Space) (variableId : VariableId) extends Part where
  smaller : domain.size < (space.domainOf variableId).size

/-- The part for a choice, if it is smaller than the domain, as it is for every space that a search
branches on. -/
def ValueStrategy.divide? (strategy : ValueStrategy VariableId) (variableId : VariableId)
    (space : Space) (choice : Nat) (generator : γ) :
    Option (SmallerPart space variableId × γ) :=
  match strategy.divide variableId space choice generator with
  | none => none
  | some (part, generator) =>
    if smaller : part.domain.size < (space.domainOf variableId).size then
      some ({ part with smaller }, generator)
    else
      none

/-- There are at most two choices. -/
theorem MarkovMatrix.divide_of_two_le (matrix : MarkovMatrix VariableId) (domain : Domain)
    (space : Space) {choice : Nat} (generator : γ) (two : 2 ≤ choice) :
    matrix.divide domain space choice generator = none := by
  match choice, two with
  | choice + 2, _ => rfl

/-- There are at most two choices. -/
theorem ValueStrategy.divide_of_two_le (strategy : ValueStrategy VariableId)
    (variableId : VariableId) (space : Space) {choice : Nat} (generator : γ) (two : 2 ≤ choice) :
    strategy.divide variableId space choice generator = none := by
  match choice, two with
  | choice + 2, _ =>
    induction strategy with
    | list values fallback inductionHypothesis =>
      rw [divide]
      simp only [Domain.pickThenRemove, Option.map_none, inductionHypothesis]
      split
      · rfl
      · split <;> rfl
    | markov matrix =>
      rw [divide]
      simp only [matrix.divide_of_two_le _ _ _ (Nat.le_add_left 2 choice), ite_self]
    | _ => simp [divide, Domain.pickThenRemove, Domain.lowerHalfFirst, Domain.upperHalfFirst]

/-- There is no third smaller part either. -/
theorem ValueStrategy.divide?_of_two_le (strategy : ValueStrategy VariableId)
    (variableId : VariableId) (space : Space) {choice : Nat} (generator : γ) (two : 2 ≤ choice) :
    strategy.divide? variableId space choice generator = none := by
  rw [divide?, strategy.divide_of_two_le variableId space generator two]

end ConstraintSearch
