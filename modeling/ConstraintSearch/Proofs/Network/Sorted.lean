import ConstraintSearch.Network.Basic
import Mathlib.Data.List.Basic

/-!
# Weights on top of a network

The Markov propagators of a network stand behind those of its constraints
(`Network.build_eq_weigh`), in the order of their variables. So it does not matter in which order
the variables with a strategy of their own were met, as long as they are sorted afterwards
(`Network.sortedPropagators_eq`).
-/

namespace ConstraintSearch

namespace Network

/-- The matrix of an entry for a variable, if its strategy is one. -/
def matrixOf? :
    VariableId × Option (ValueStrategy VariableId) → Option (VariableId × MarkovMatrix VariableId)
  | (weighted, some (.markov matrix)) => some (weighted, matrix)
  | _ => none

/-- The Markov propagators of entries in any order, sorted by their variables. -/
def sortedPropagators (entries : List (VariableId × Option (ValueStrategy VariableId))) :
    List Propagator :=
  ((entries.filterMap matrixOf?).mergeSort fun first second => first.1 ≤ second.1).map fun entry =>
    .markov entry.1 entry.2

/-- The network with the strategies and their Markov propagators added to it. -/
def weigh (network : Network) (strategies : Table (Option (ValueStrategy VariableId)))
    (weighted : List Propagator) : Network :=
  let propagators := weighted.foldl Table.push network.propagators
  { network with propagators, attached := attachedPropagators network.vars propagators, strategies }

variable {vars : Variables} {constraints : List Constraint} {targeted : Option (List VariableId)}
  {order : VariableOrder VariableId} {strategy : ValueStrategy VariableId}

/-- Markov propagators come last, and are added to a network that is built without them. -/
theorem build_eq_weigh (strategies : Table (Option (ValueStrategy VariableId))) :
    build vars constraints targeted order strategy strategies =
      (build vars constraints targeted order strategy ∅).weigh strategies
        (markovPropagators strategies) := by
  have addAll : ∀ (propagators : List Propagator) (lowering : Lowering),
      propagators.foldl Lowering.add lowering =
        { lowering with propagators := propagators.foldl Table.push lowering.propagators } := by
    intro propagators
    induction propagators with
    | nil => exact fun lowering => rfl
    | cons first rest inductionHypothesis =>
      exact fun lowering => inductionHypothesis (lowering.add first)
  rw [build, build, weigh, addAll]
  rfl

/-! ### Sorting -/

/-- A variable has a matrix if its own strategy is one. -/
theorem matrixOf?_eq_some_iff {variableId : VariableId} {own : Option (ValueStrategy VariableId)}
    {entry : VariableId × MarkovMatrix VariableId} :
    matrixOf? (variableId, own) = some entry ↔
      entry.1 = variableId ∧ own = some (.markov entry.2) := by
  obtain ⟨weighted, matrix⟩ := entry
  rcases own with _ | own
  · simp [matrixOf?]
  · cases own <;> simp [matrixOf?, eq_comm]

variable {resolved : VariableId → Option (ValueStrategy VariableId)}
  {visits : List VariableId} {count : Nat}

/-- The Markov propagators of a table are those of its entries, in their order. -/
theorem markovPropagators_ofList :
    markovPropagators (.ofList ((List.range count).map resolved)) =
      ((List.range count).filterMap fun variableId =>
        matrixOf? (variableId, resolved variableId)).map fun entry => .markov entry.1 entry.2 := by
  have placed : (Table.ofList ((List.range count).map resolved)).toList.zipIdx =
      (List.range count).map fun variableId => (resolved variableId, variableId) := by
    change ((List.range count).map resolved).zipIdx = _
    apply List.ext_getElem?
    intro place
    by_cases inside : place < count <;> simp [inside]
  rw [markovPropagators, placed, List.filterMap_map, List.map_filterMap]
  refine List.filterMap_congr fun variableId _ => ?_
  cases own : resolved variableId with
  | none => simp [matrixOf?, own]
  | some strategy => cases strategy <;> simp [matrixOf?, own]

/-- Sorting the Markov propagators brings them into the order of the table, whichever order the
variables were in. -/
theorem sortedPropagators_eq
    (every : visits.Perm ((List.range count).filter fun variableId =>
      (resolved variableId).isSome)) :
    sortedPropagators (visits.map fun variableId => (variableId, resolved variableId)) =
      markovPropagators (.ofList ((List.range count).map resolved)) := by
  let matrixAt? (variableId : VariableId) := matrixOf? (variableId, resolved variableId)
  have keyed : ∀ {variableId entry}, matrixAt? variableId = some entry →
      entry.1 = variableId ∧ resolved entry.1 = some (.markov entry.2) := by
    intro variableId entry found
    obtain ⟨rfl, own⟩ := matrixOf?_eq_some_iff.mp found
    exact ⟨rfl, own⟩
  -- Both lists hold the same entries, so it is enough that the sorted one and the table are both in
  -- the order of the variables.
  have same : (visits.filterMap matrixAt?).Perm ((List.range count).filterMap matrixAt?) := by
    refine (every.filterMap matrixAt?).trans (List.Perm.of_eq ?_)
    rw [List.filterMap_filter]
    refine List.filterMap_congr fun variableId _ => ?_
    cases own : resolved variableId <;> simp [matrixAt?, matrixOf?, own]
  have increasing : ((List.range count).filterMap matrixAt?).Pairwise fun first second =>
      decide (first.1 ≤ second.1) = true := by
    refine List.pairwise_lt_range.filterMap matrixAt?
      fun first second less entry found other foundOther => ?_
    rw [(keyed found).1, (keyed foundOther).1]
    exact decide_eq_true (Nat.le_of_lt less)
  have sorted : (visits.filterMap matrixAt?).mergeSort (fun first second => first.1 ≤ second.1) =
      (List.range count).filterMap matrixAt? := by
    refine List.Perm.eq_of_pairwise (fun first second isFirst isSecond before after => ?_)
      (List.pairwise_mergeSort ?_ ?_ _) increasing ((List.mergeSort_perm _ _).trans same)
    · -- Entries for the same variable are equal, since each variable has one strategy.
      obtain ⟨_, _, found⟩ := List.mem_filterMap.mp ((List.mergeSort_perm _ _).mem_iff.mp isFirst)
      obtain ⟨_, _, foundOther⟩ := List.mem_filterMap.mp isSecond
      have sameKey : first.1 = second.1 :=
        Nat.le_antisymm (of_decide_eq_true before) (of_decide_eq_true after)
      have own := (keyed found).2
      rw [sameKey, (keyed foundOther).2] at own
      exact Prod.ext sameKey (ValueStrategy.markov.inj (Option.some.inj own)).symm
    · intro first second third before after
      exact decide_eq_true (Nat.le_trans (of_decide_eq_true before) (of_decide_eq_true after))
    · intro first second
      simpa using Nat.le_total first.1 second.1
  rw [sortedPropagators, List.filterMap_map, markovPropagators_ofList]
  exact congrArg _ sorted

end Network

end ConstraintSearch
