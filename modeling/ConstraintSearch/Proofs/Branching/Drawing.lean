import ConstraintSearch.Proofs.Network.Favours
import ConstraintSearch.Proofs.Search.Lockstep

/-!
# Drawing values

A Markov strategy draws a place among its candidates, whose weights are all positive. Sums of
weights can be rounded, overflow or be no numbers at all, but the place that is drawn always holds a
weight that is not zero or less, because the last such place is kept for the case that the spin is
never passed. So a drawn value is one that the active row offers, and the second choice is what is
left.
-/

namespace ConstraintSearch

namespace Generator

/-- Where the spin lands there is a weight above zero, or it is the place that was last known to
have one. -/
theorem exists_weight_of_landing? {spin sum : Float} {weights : List Float} {index place : Nat}
    {last : Option Nat} (landed : landing? spin weights index sum last = some place) :
    last = some place ∨ ∃ weight, index ≤ place ∧ weights[place - index]? = some weight ∧
      ¬ weight ≤ 0.0 := by
  induction weights generalizing index sum last with
  | nil => exact .inl landed
  | cons first rest inductionHypothesis =>
    -- A place behind the first weight is one further from there than from the second.
    have behind : ∀ {weight}, index + 1 ≤ place → rest[place - (index + 1)]? = some weight →
        (first :: rest)[place - index]? = some weight := by
      intro weight after found
      rwa [show place - index = place - (index + 1) + 1 by omega, List.getElem?_cons_succ]
    rw [landing?] at landed
    split at landed
    · rcases inductionHypothesis landed with known | ⟨weight, after, found, above⟩
      · exact .inl known
      · exact .inr ⟨weight, by omega, behind after found, above⟩
    · rename_i above
      have here : index = place →
          ∃ weight, index ≤ place ∧ (first :: rest)[place - index]? = some weight ∧
            ¬ weight ≤ 0.0 := by
        rintro rfl
        exact ⟨first, Nat.le_refl _, by rw [Nat.sub_self, List.getElem?_cons_zero], above⟩
      split at landed
      · exact .inr (here (Option.some.inj landed))
      · rcases inductionHypothesis landed with known | ⟨weight, after, found, above⟩
        · exact .inr (here (Option.some.inj known))
        · exact .inr ⟨weight, by omega, behind after found, above⟩

variable {γ : Type} [Generator γ]

/-- A choice among weights of any kind draws once and finds a weight that is not zero or less. -/
theorem exists_weight_of_weightedChoice? {weights : List Float} {generator next : γ} {index : Nat}
    (chosen : weightedChoice? weights generator = some (index, next)) :
    next = (draw generator).2 ∧ ∃ weight, weights[index]? = some weight ∧ ¬ weight ≤ 0.0 := by
  simp only [weightedChoice?] at chosen
  split at chosen
  · cases chosen
  · obtain ⟨place, landed, same⟩ := Option.map_eq_some_iff.mp chosen
    cases same
    rcases exists_weight_of_landing? landed with known | ⟨weight, _, found, above⟩
    · cases known
    · exact ⟨rfl, weight, found, above⟩

end Generator

namespace MarkovMatrix

variable {γ : Type} [Generator γ] {matrix : MarkovMatrix VariableId} {space : Space}
  {domain : Domain}

/-- The chosen weight is that of a candidate. -/
theorem index_lt_of_weightedChoice? {row : MarkovRow VariableId} {generator next : γ} {index : Nat}
    (chosen : Generator.weightedChoice? ((matrix.candidates row domain).map Prod.snd) generator =
      some (index, next)) :
    index < (matrix.candidates row domain).length := by
  obtain ⟨_, weight, found, _⟩ := Generator.exists_weight_of_weightedChoice? chosen
  obtain ⟨inside, _⟩ := List.getElem?_eq_some_iff.mp found
  rwa [List.length_map] at inside

/-- The active row of a space offers the value. -/
def OffersIn (matrix : MarkovMatrix VariableId) (space : Space) (domain : Domain) (value : Int) :
    Prop :=
  ∃ row, matrix.activeRow? (fun guard => (space.domainOf guard).isValue 1) = some row ∧
    matrix.Offers row domain value

/-- A drawn value is offered, and costs one output of the generator. -/
theorem exists_offered_of_divide {generator next : γ} {part : Part}
    (divided : matrix.divide domain space 0 generator = some (part, next)) :
    ∃ value ∈ domain, part = ⟨.value value, some value⟩ ∧ matrix.OffersIn space domain value ∧
      next = (Generator.draw generator).2 := by
  simp only [divide, Option.bind_eq_bind, Option.bind_eq_some_iff] at divided
  obtain ⟨row, active, ⟨index, drawn⟩, chosen, ⟨value, weight⟩, isCandidate, same⟩ := divided
  cases same
  obtain ⟨inside, offered⟩ :=
    exists_mem_candidates_iff.mp ⟨weight, List.mem_of_getElem? isCandidate⟩
  exact ⟨value, inside, rfl, ⟨row, active, offered⟩,
    (Generator.exists_weight_of_weightedChoice? chosen).1⟩

/-- Nothing is drawn just if nothing is offered. -/
theorem divide_eq_none_iff (generator : γ) :
    matrix.divide domain space 0 generator = none ↔
      ∀ value ∈ domain, ¬ matrix.OffersIn space domain value := by
  cases active : matrix.activeRow? fun guard => (space.domainOf guard).isValue 1 with
  | none =>
    refine iff_of_true (by simp only [divide, active, Option.bind_eq_bind, Option.bind_none]) ?_
    rintro value inside ⟨row, isActive, _⟩
    cases active.symm.trans isActive
  | some row =>
    have offersIn : ∀ value, matrix.OffersIn space domain value ↔
        matrix.Offers row domain value := by
      refine fun value => ⟨?_, fun offered => ⟨row, active, offered⟩⟩
      rintro ⟨other, isActive, offered⟩
      obtain rfl := Option.some.inj (active.symm.trans isActive)
      exact offered
    simp only [offersIn, ← candidates_eq_nil_iff]
    constructor
    · intro undivided
      by_contra candidates
      obtain ⟨part, next, divided⟩ := exists_divide active candidates generator
      cases undivided.symm.trans divided
    · intro candidates
      simp [divide, active, candidates, Generator.weightedChoice?]

/-- What a Markov strategy does with the domain of a variable in a space when it is given a
generator. -/
structure DrawsWithin (matrix : MarkovMatrix VariableId) (variableId : VariableId) (space : Space)
    (generator : γ) : Prop where
  /-- Whatever the weights, a choice among them is a place with a weight that is not zero or
  less. -/
  choice_above : ∀ {weights : List Float} {index : Nat} {next : γ},
    Generator.weightedChoice? weights generator = some (index, next) →
      ∃ weight, weights[index]? = some weight ∧ ¬ weight ≤ 0.0
  in_range : ∀ {row : MarkovRow VariableId} {index : Nat} {next : γ},
    Generator.weightedChoice? ((matrix.candidates row (space.domainOf variableId)).map Prod.snd)
    generator =
      some (index, next) → index < (matrix.candidates row (space.domainOf variableId)).length
  first_choice : ∀ {part : Part} {next : γ},
    (ValueStrategy.markov matrix).divide variableId space 0 generator = some (part, next) →
      ∃ value ∈ space.domainOf variableId, matrix.OffersIn space (space.domainOf variableId) value ∧
        part = ⟨.value value, some value⟩ ∧ next = (Generator.draw generator).2
  second_choice : ∀ {part : Part} {next : γ},
    (ValueStrategy.markov matrix).divide variableId space 0 generator = some (part, next) →
      ∃ rest : Domain, rest.Nonempty ∧
        (∀ value, value ∈ rest ↔ value ∈ space.domainOf variableId ∧ part.lastChosen ≠ some value) ∧
          ∀ (later : Space) (again : γ), later.domainOf variableId = space.domainOf variableId →
            later.lastChosen = part.lastChosen →
              (ValueStrategy.markov matrix).divide variableId later 1 again =
                some (⟨rest, part.lastChosen⟩, again)
  undivided_iff : (ValueStrategy.markov matrix).divide variableId space 0 generator = none ↔
    ∀ value ∈ space.domainOf variableId, ¬ matrix.OffersIn space (space.domainOf variableId) value
  /-- With nothing to draw the search leaves the space, and the generator as it is. -/
  undivided_explore : (∀ value ∈ space.domainOf variableId,
    ¬ matrix.OffersIn space (space.domainOf variableId) value) →
      ∀ {σ : Type} {network : Network} {observer : Observer σ} {rest : List Space}
      {engine : Engine σ}, network.order.select? network space = some variableId →
        network.strategyOf variableId = .markov matrix → space.branchCount = 0 →
          Search.explore network observer (space :: rest) generator engine =
            Search.explore network observer rest generator engine

section Several

variable {variableId : VariableId} (several : 2 ≤ (space.domainOf variableId).size)

include several

/-- A Markov strategy divides a domain of several values as its matrix does. -/
theorem divide_markov (generator : γ) :
    (ValueStrategy.markov matrix).divide variableId space 0 generator =
      matrix.divide (space.domainOf variableId) space 0 generator :=
  ValueStrategy.divide_eq_of_several several rfl 0 generator

/-- The second choice is the domain without the value that was drawn, which is not all of it. -/
theorem exists_rest_of_divide {generator next : γ} {part : Part}
    (divided : (ValueStrategy.markov matrix).divide variableId space 0 generator =
      some (part, next)) :
    ∃ rest : Domain, rest.Nonempty ∧
      (∀ value, value ∈ rest ↔ value ∈ space.domainOf variableId ∧ part.lastChosen ≠ some value) ∧
        ∀ (later : Space) (again : γ), later.domainOf variableId = space.domainOf variableId →
          later.lastChosen = part.lastChosen →
            (ValueStrategy.markov matrix).divide variableId later 1 again =
              some (⟨rest, part.lastChosen⟩, again) := by
  obtain ⟨drawn, _, rfl, _⟩ := exists_offered_of_divide (divide_markov several generator ▸ divided)
  obtain ⟨rest, split, again⟩ := ValueStrategy.givesRest_of_divide divided
  have mem_rest : ∀ value, value ∈ rest ↔
      value ∈ space.domainOf variableId ∧ some drawn ≠ some value := by
    intro value
    rw [split.mem_second, Domain.mem_value, ne_eq, Option.some.injEq]
    apply and_congr_right
    intro inside
    exact not_congr ⟨fun same => same.1.symm, fun same => ⟨same.symm, Domain.bounds inside⟩⟩
  exact ⟨rest, split.second_nonempty, mem_rest, again⟩

/-- Whatever the matrix, the space and the generator, values are drawn from within the domain of the
variable. -/
theorem drawsWithin (matrix : MarkovMatrix VariableId) (generator : γ) :
    matrix.DrawsWithin variableId space generator := by
  have divide_eq : (ValueStrategy.markov matrix).divide variableId space 0 generator =
      matrix.divide (space.domainOf variableId) space 0 generator := divide_markov several generator
  have undivided_iff : (ValueStrategy.markov matrix).divide variableId space 0 generator = none ↔
      ∀ value ∈ space.domainOf variableId,
        ¬ matrix.OffersIn space (space.domainOf variableId) value := by
    rw [divide_eq]
    exact divide_eq_none_iff generator
  constructor
  case choice_above => exact fun chosen => (Generator.exists_weight_of_weightedChoice? chosen).2
  case in_range => exact index_lt_of_weightedChoice?
  case first_choice =>
    intro part next divided
    obtain ⟨value, inside, same, offered, drawn⟩ := exists_offered_of_divide (divide_eq ▸ divided)
    exact ⟨value, inside, offered, same, drawn⟩
  case second_choice => exact exists_rest_of_divide several
  case undivided_iff => exact undivided_iff
  case undivided_explore =>
    intro nothing σ network observer rest engine selected isMarkov fresh
    apply Search.explore_of_undivided selected
    rw [isMarkov, fresh, ValueStrategy.divide?, undivided_iff.mpr nothing]

end Several

/-- Weights for 1 to 4, where 2 has none and 1 is out of reach. -/
def uneven : MarkovMatrix VariableId :=
  ⟨[1, 2, 3, 4], [⟨[1.0, 0.0, 1.0, 3.0], none⟩], none⟩

/-- One variable, from 2 to 4. -/
def withinReach : Space :=
  { domains := ⟨#[.range 2 4]⟩, unsolved := [0] }

/-- With an output of about a half, 4 is drawn, whose weight is three times that of 3. -/
theorem drawsWithin_uneven :
    2 ≤ (withinReach.domainOf 0).size ∧
      uneven.DrawsWithin 0 withinReach (⟨#[9223372036854775808], 0⟩ : Script) ∧
        ((ValueStrategy.markov uneven).divide 0 withinReach 0
          (⟨#[9223372036854775808], 0⟩ : Script)).map
            (fun (part, next) => (part.domain, next.position)) = some (.value 4, 1) := by
  have several : 2 ≤ (withinReach.domainOf 0).size := by decide
  exact ⟨several, drawsWithin several uneven _, by decide +kernel⟩

end MarkovMatrix

end ConstraintSearch
