import ConstraintSearch.Branching.Division
import ConstraintSearch.Branching.Selection
import ConstraintSearch.Search.Engine

/-!
# Exploring the search tree

The search goes depth first through the spaces of the tree. Its stack holds spaces that are
propagated and still have unsolved variables; the space on top is branched on next. A search is a
value: it can be suspended after any solution and resumed from where it was.
-/

namespace ConstraintSearch

/-- How far a search has come. -/
inductive Phase
  | notStarted
  | exploring
  | finished
  | aborted
deriving DecidableEq, Repr

/-- A search that is not running at the moment. -/
structure Search (γ σ : Type) where
  stack : List Space := []
  phase : Phase := .notStarted
  generator : γ
  engine : Engine σ

/-- What a search comes upon next. -/
inductive Outcome
  /-- A space in which every targeted variable is fixed. -/
  | solved (space : Space)
  /-- The end of the tree. -/
  | finished
  /-- The observer stopped the search, now or before. -/
  | aborted
  /-- The observer could not tell whether to stop. -/
  | faulted (fault : Fault)

/-- A bound on the weight of a child whose parent has the given number of values left: the child has
fewer, and at most two children of its own. -/
def childBound : (values : Nat) → Nat
  | 0 => 1
  | values + 1 => 2 * childBound values + 2

theorem childBound_pos (values : Nat) : 0 < childBound values := by
  cases values <;> simp [childBound]

/-- Two children of fewer values, and the space itself, are within the bound. -/
theorem childBound_lt {fewer values : Nat} (less : fewer < values) :
    2 * childBound fewer + 1 < childBound values := by
  induction values with
  | zero => exact absurd less (Nat.not_lt_zero _)
  | succ values inductionHypothesis =>
    rw [childBound]
    rcases Nat.lt_or_eq_of_le (Nat.le_of_lt_succ less) with before | rfl
    · have := inductionHypothesis before
      omega
    · omega

/-- A bound on the number of spaces that the search goes through before it leaves this one for good:
each of the at most two children to come has at least one value less. -/
def Space.weight (space : Space) : Nat :=
  (2 - space.branchCount) * childBound (valuesLeft space.domains) + 1

/-- The sum of the weights of the spaces on a stack. -/
def stackWeight (stack : List Space) : Nat :=
  total Space.weight stack

namespace Space

/-- The space after a child was requested, which was divided from the rest by the given value. -/
def branched (space : Space) (lastChosen : Option Int) : Space :=
  { space with
    branchCount := min (space.branchCount + 1) 2
    lastChosen }

theorem weight_pos (space : Space) : 0 < space.weight :=
  Nat.succ_pos _

/-- Requesting a child takes the bound of one child off the weight. -/
theorem weight_eq_weight_branched_add {space : Space} (lastChosen : Option Int)
    (unfinished : space.branchCount < 2) :
    space.weight = (space.branched lastChosen).weight + childBound (valuesLeft space.domains) := by
  have count : 2 - space.branchCount = 2 - (space.branched lastChosen).branchCount + 1 := by
    simp only [branched]
    omega
  rw [weight, weight, count, Nat.succ_mul]
  exact Nat.add_right_comm _ _ _

/-- Requesting a child makes a space lighter by more than any space with fewer values weighs. -/
theorem weight_branched_add_lt {space lighter : Space} (lastChosen : Option Int)
    (unfinished : space.branchCount < 2)
    (fewer : valuesLeft lighter.domains < valuesLeft space.domains) :
    (space.branched lastChosen).weight + lighter.weight < space.weight := by
  have lighterWeight : lighter.weight ≤ 2 * childBound (valuesLeft lighter.domains) + 1 :=
    Nat.succ_le_succ (Nat.mul_le_mul_right _ (Nat.sub_le _ _))
  have := childBound_lt fewer
  have := weight_eq_weight_branched_add lastChosen unfinished
  omega

/-- Each division takes some weight off a space that is not finished. -/
theorem weight_branched_lt {space : Space} (lastChosen : Option Int)
    (unfinished : space.branchCount < 2) : (space.branched lastChosen).weight < space.weight := by
  have := childBound_pos (valuesLeft space.domains)
  have := weight_eq_weight_branched_add lastChosen unfinished
  omega

end Space

namespace Search

variable {γ σ : Type} [Generator γ]

/-- The search before its first request. -/
def initial (network : Network) (generator : γ) (observed : σ) (journal : Journal) : Search γ σ :=
  { generator, engine := .initial network observed journal }

/-- Goes on from a stack of spaces to the next solution. The space on top gives its next child,
which becomes the new top unless it is rejected or solved; a space without a further child is left
for good. A child about which the observer cannot tell is given up, and the search can be resumed
behind it. -/
def explore (network : Network) (observer : Observer σ) (stack : List Space) (generator : γ)
    (engine : Engine σ) : Outcome × Search γ σ :=
  match stack with
  | [] =>
    (.finished, { stack, phase := .finished, generator, engine := engine.note .treeExhausted })
  | top :: rest =>
    match network.order.select? network top with
    | none => explore network observer rest generator engine
    | some variableId =>
      match _divided :
          (network.strategyOf variableId).divide? variableId top top.branchCount generator with
      | none => explore network observer rest generator engine
      | some (part, generator) =>
        let parent := top.branched part.lastChosen
        let counted := engine.tally fun statistics =>
          { statistics with spaces := statistics.spaces + 1 }
        match _propagated : counted.propagate network observer (top.child variableId part.domain)
          with
        | (.rejected, engine) =>
          let engine := engine.tally fun statistics =>
            { statistics with rejected := statistics.rejected + 1 }
          explore network observer (parent :: rest) generator engine
        | (.aborted, engine) =>
          (.aborted, { stack := parent :: rest, phase := .aborted, generator, engine })
        | (.faulted fault, engine) =>
          (.faulted fault, { stack := parent :: rest, phase := .exploring, generator, engine })
        | (.stable child, engine) =>
          if child.isSolved then
            let engine := engine.tally fun statistics =>
              { statistics with solutions := statistics.solutions + 1 }
            let engine := engine.note (.solutionFound engine.statistics.solutions)
            (.solved child, { stack := parent :: rest, phase := .exploring, generator, engine })
          else
            let engine := engine.tally fun statistics =>
              { statistics with peakDepth := max statistics.peakDepth child.depth }
            explore network observer (child :: parent :: rest) generator engine
termination_by stackWeight stack
decreasing_by
  · simp only [stackWeight, total_cons]
    have := top.weight_pos
    omega
  · simp only [stackWeight, total_cons]
    have := top.weight_pos
    omega
  · have unfinished : top.branchCount < 2 := Nat.lt_of_not_le fun two => by
      simp [ValueStrategy.divide?_of_two_le _ _ _ _ two] at _divided
    have := Space.weight_branched_lt part.lastChosen unfinished
    simp only [stackWeight, total_cons]
    omega
  · have unfinished : top.branchCount < 2 := Nat.lt_of_not_le fun two => by
      simp [ValueStrategy.divide?_of_two_le _ _ _ _ two] at _divided
    have fewer : valuesLeft child.domains < valuesLeft top.domains :=
      Nat.lt_of_le_of_lt (Engine.propagate_stable _propagated).2 (valuesLeft_set_lt part.smaller)
    have := Space.weight_branched_add_lt part.lastChosen unfinished fewer
    simp only [stackWeight, total_cons]
    omega

/-- Propagates the root, and goes on from there unless it is rejected or solved. -/
def start (network : Network) (observer : Observer σ) (generator : γ) (engine : Engine σ) :
    Outcome × Search γ σ :=
  let counted := engine.tally fun statistics => { statistics with spaces := statistics.spaces + 1 }
  match counted.propagate network observer (Space.root network) with
  | (.rejected, engine) =>
    let engine := (engine.note .rootInconsistent).tally fun statistics =>
      { statistics with rejected := statistics.rejected + 1 }
    (.finished, { phase := .finished, generator, engine })
  | (.aborted, engine) => (.aborted, { phase := .aborted, generator, engine })
  | (.faulted fault, engine) => (.faulted fault, { phase := .exploring, generator, engine })
  | (.stable root, engine) =>
    if root.isSolved then
      let engine := engine.tally fun statistics =>
        { statistics with solutions := statistics.solutions + 1 }
      (.solved root, { phase := .exploring, generator, engine })
    else
      let engine := engine.tally fun statistics => { statistics with peakDepth := 1 }
      explore network observer [root] generator engine

/-- Resumes the search until the next solution. A search that has finished or was stopped stays
so. -/
def next (search : Search γ σ) (network : Network) (observer : Observer σ) :
    Outcome × Search γ σ :=
  match search.phase with
  | .finished => (.finished, search)
  | .aborted => (.aborted, search)
  | .notStarted => start network observer search.generator search.engine
  | .exploring => explore network observer search.stack search.generator search.engine

end Search

end ConstraintSearch
