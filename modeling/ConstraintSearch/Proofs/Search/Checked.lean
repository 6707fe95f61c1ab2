import ConstraintSearch.Proofs.Propagation.Checked
import ConstraintSearch.Proofs.Search.Rounds

/-!
# A search that checks what it reads

The round of a search selects a variable, divides its domain, makes a child and propagates it. Here
this is written with all its checks: that entries and bounds which are read are there, that the
selected variable is not fixed, that no third child is requested, that values are drawn by weights,
that the child is a part of its parent, and that propagation ends.
-/

namespace ConstraintSearch

/-! ### Selecting the variable -/

namespace Criterion

/-- Which of two variables is preferred, once the domains of both are read. -/
def preferChecked (criterion : Criterion VariableId) (network : Network) (space : Space)
    (candidate best : VariableId) : Except Fault Ordering := do
  let candidateDomain ← space.domains.get candidate
  let bestDomain ← space.domains.get best
  match criterion with
  | size => return compare candidateDomain.size bestDomain.size
  | min => return compare (← candidateDomain.minimum) (← bestDomain.minimum)
  | max => return compare (← bestDomain.maximum) (← candidateDomain.maximum)
  | _ => return criterion.prefer network space candidate best

/-- Which of two variables the first criterion that tells them apart prefers. -/
def preferAmongChecked (network : Network) (space : Space) (candidate best : VariableId) :
    List (Criterion VariableId) → Except Fault Ordering
  | [] => return .eq
  | criterion :: ties => do
    match ← criterion.preferChecked network space candidate best with
    | .eq => preferAmongChecked network space candidate best ties
    | decided => return decided

end Criterion

namespace VariableOrder

/-- The better one of two variables. -/
def betterChecked (order : VariableOrder VariableId) (network : Network) (space : Space)
    (best candidate : VariableId) : Except Fault VariableId := do
  match ← Criterion.preferAmongChecked network space candidate best order.criteria with
  | .lt => return candidate
  | _ => return best

/-- The variable to branch on, if any is unsolved. -/
def selectChecked? (order : VariableOrder VariableId) (network : Network) (space : Space) :
    Except Fault (Option VariableId) :=
  match space.unsolved with
  | [] => return none
  | first :: others =>
    match order.first with
    | .naive => return some first
    | _ => return some (← others.foldlM (order.betterChecked network space) first)

end VariableOrder

/-! ### Dividing its domain -/

namespace Domain

/-- The picked value first, and then the domain without it. Only the first choice picks. -/
def pickChecked (domain : Domain) (pick : Except Fault Int) (lastChosen : Option Int) :
    (choice : Nat) → Except Fault (Option Part)
  | 0 => return domain.pickThenRemove (some (← pick)) lastChosen 0
  | choice => return domain.pickThenRemove none lastChosen choice

/-- The middle between the smallest and the largest value, rounded down. -/
def midpointChecked (domain : Domain) : Except Fault Int := do
  let smallest ← domain.minimum
  return smallest + ((← domain.maximum) - smallest) / 2

/-- One side of the midpoint first, and then the other one. -/
def halveChecked (domain : Domain) (side : (middle : Int) → Domain) (rest : Option Part) :
    (choice : Nat) → Except Fault (Option Part)
  | 0 => do
    let middle ← domain.midpointChecked
    return some ⟨side middle, some middle⟩
  | _ => return rest

end Domain

section Dividing

variable {γ : Type} [Generator γ]

/-- A value drawn by weight among those of the domain first, and then the domain without it. -/
def MarkovMatrix.divideChecked (matrix : MarkovMatrix VariableId) (domain : Domain) (space : Space)
    (choice : Nat) (generator : γ) : Except Failure (Option (Part × γ)) :=
  match choice with
  | 0 => do
    match ← matrix.activeRowChecked? space.domains with
    | none => return none
    | some row =>
      let candidates := matrix.candidates row domain
      if (candidates.map Prod.snd).all isWeight then
        match Generator.weightedChoice? (candidates.map Prod.snd) generator with
        | none => return none
        | some (index, generator) =>
          let (value, _) ← (Table.ofList candidates).get index
          return some (⟨.value value, some value⟩, generator)
      else
        throw .drawnByOthers
  | choice => return matrix.divide domain space choice generator

/-- The part of a variable's domain that a strategy gives for a choice, of which there are at most
two. -/
def ValueStrategy.divideChecked (variableId : VariableId) (space : Space) (choice : Nat)
    (generator : γ) : ValueStrategy VariableId → Except Failure (Option (Part × γ)) :=
  fun strategy =>
    if 2 < choice then
      throw (.choiceAboveTwo choice)
    else do
      let domain ← space.domains.get variableId
      if domain.isEmpty || domain.isSolved then
        return none
      else
        let pick (value : Except Fault Int) := do
          return (← domain.pickChecked value space.lastChosen choice).map (·, generator)
        match strategy with
        | .min => pick domain.minimum
        | .max => pick domain.maximum
        | .mid => pick domain.middle
        | .splitMin => do
          return (← domain.halveChecked domain.removeAbove
            (domain.lowerHalfFirst space.lastChosen choice) choice).map (·, generator)
        | .splitMax => do
          return (← domain.halveChecked (fun middle => domain.removeBelow (middle + 1))
            (domain.upperHalfFirst space.lastChosen choice) choice).map (·, generator)
        | .minMaxCycle => pick (if variableId % 2 = 0 then domain.minimum else domain.maximum)
        | .list values fallback =>
          match domain.firstMember? values with
          | some value => pick (.ok value)
          | none => fallback.divideChecked variableId space choice generator
        | .markov matrix => matrix.divideChecked domain space choice generator

end Dividing

/-! ### The child -/

namespace Space

/-- The child with the domain of one variable replaced by a part of it. -/
def childChecked (space : Space) (variableId : VariableId) (domain : Domain) :
    Except Failure Space := do
      let old ← space.domains.get variableId
      if domain.values.all (· ∈ old) then
        let domains ← space.domains.replace variableId domain
        return { space.child variableId domain with domains }
      else
        throw (.childWidens variableId)

/-- The variables of the list that are not fixed. -/
def unsolvedChecked (domains : Table Domain) : List VariableId → Except Fault (List VariableId)
  | [] => return []
  | variableId :: rest => do
    let domain ← domains.get variableId
    let others ← unsolvedChecked domains rest
    return if domain.isSolved then others else variableId :: others

/-- The space without the variables that have become fixed in its list of unsolved ones. -/
def updateUnsolvedChecked (space : Space) : Except Fault Space := do
  return { space with unsolved := ← unsolvedChecked space.domains space.unsolved }

end Space

/-! ### Its propagation -/

variable {γ σ : Type} [Generator γ]

/-- Propagates a space between the two looks of the observer, in as many cycles as it can take. -/
def Engine.propagateChecked (engine : Engine σ) (network : Network) (observer : Observer σ)
    (space : Space) : Except Failure (Verdict × Engine σ) :=
  match engine.observeBefore observer space with
  | (.stop, engine) => return (.aborted, engine.note .abortedBefore)
  | (.fault fault, engine) => return (.faulted fault, engine)
  | (.goOn, engine) =>
    match network.fixpointChecked (valuesLeft space.domains + 2) space.changed
      (engine.narrowing space) with
    | .error (.failure failure) _ => throw failure
    | .error (.empty variableId) state => do
      let entry ← network.vars.table.get variableId
      return (.rejected, (engine.resume state).note (.spaceRejected entry.name))
    | .ok _ state => do
      let settled ← { space with domains := state.domains }.updateUnsolvedChecked
      match (engine.resume state).observeAfter observer settled with
      | (.stop, engine) => return (.aborted, engine.note .abortedAfter)
      | (.fault fault, engine) => return (.faulted fault, engine)
      | (.goOn, engine) => return (.stable settled, engine)

/-! ### The round -/

namespace Search

/-- How the search goes on after the propagation of the root. -/
def afterRoot (generator : γ) : Verdict × Engine σ → Round (Search γ σ) (Outcome × Search γ σ)
  | (.rejected, engine) =>
    let engine := (engine.note .rootInconsistent).tally fun statistics =>
      { statistics with rejected := statistics.rejected + 1 }
    .done (.finished, { phase := .finished, generator, engine })
  | (.aborted, engine) => .done (.aborted, { phase := .aborted, generator, engine })
  | (.faulted fault, engine) => .done (.faulted fault, { phase := .exploring, generator, engine })
  | (.stable root, engine) =>
    if root.isSolved then
      let engine :=
        engine.tally fun statistics => { statistics with solutions := statistics.solutions + 1 }
      .done (.solved root, { phase := .exploring, generator, engine })
    else
      let engine := engine.tally fun statistics => { statistics with peakDepth := 1 }
      .again { stack := [root], phase := .exploring, generator, engine }

/-- How the search goes on from a stack after the propagation of the next child of the space on
top. -/
def afterChild (stack : List Space) (generator : γ) :
    Verdict × Engine σ → Round (Search γ σ) (Outcome × Search γ σ)
  | (.rejected, engine) =>
    let engine :=
      engine.tally fun statistics => { statistics with rejected := statistics.rejected + 1 }
    .again { stack, phase := .exploring, generator, engine }
  | (.aborted, engine) => .done (.aborted, { stack, phase := .aborted, generator, engine })
  | (.faulted fault, engine) =>
    .done (.faulted fault, { stack, phase := .exploring, generator, engine })
  | (.stable child, engine) =>
    if child.isSolved then
      let engine :=
        engine.tally fun statistics => { statistics with solutions := statistics.solutions + 1 }
      let engine := engine.note (.solutionFound engine.statistics.solutions)
      .done (.solved child, { stack, phase := .exploring, generator, engine })
    else
      let engine := engine.tally fun statistics =>
        { statistics with peakDepth := max statistics.peakDepth child.depth }
      .again { stack := child :: stack, phase := .exploring, generator, engine }

/-- One round of a request to a search, which makes the space on top count its next child before the
child is made. -/
def roundChecked (network : Network) (observer : Observer σ) (search : Search γ σ) :
    Except Failure (Round (Search γ σ) (Outcome × Search γ σ)) :=
  let counted :=
    search.engine.tally fun statistics => { statistics with spaces := statistics.spaces + 1 }
  match search.phase with
  | .finished => return .done (.finished, search)
  | .aborted => return .done (.aborted, search)
  | .notStarted => do
    let initial : Space :=
      { domains := network.vars.table.map Variable.domain, unsolved := network.targeted }
    let root ← initial.updateUnsolvedChecked
    return afterRoot search.generator (← counted.propagateChecked network observer root)
  | .exploring =>
    match search.stack with
    | [] =>
      return .done (.finished, { search with phase := .finished,
                                             engine := search.engine.note .treeExhausted })
    | top :: rest => do
      match ← network.order.selectChecked? network top with
      | none => return .again { search with stack := rest }
      | some variableId =>
        let domain ← top.domains.get variableId
        if domain.isSolved then
          throw (.selectedFixed variableId)
        else
          match ← (network.strategyOf variableId).divideChecked variableId top top.branchCount
            search.generator with
          | none => return .again { search with stack := rest }
          | some (part, generator) =>
            let child ← top.childChecked variableId part.domain
            let stack := top.branched part.lastChosen :: rest
            return afterChild stack generator (← counted.propagateChecked network observer child)

end Search

end ConstraintSearch
