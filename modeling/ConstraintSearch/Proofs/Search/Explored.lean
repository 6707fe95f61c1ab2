import ConstraintSearch.Search.Explore

/-!
# The ways a request goes

What a request does with the space on top is one of a few things, and most of them lead to a request
on another stack. `Explores` has a constructor for each, with the counters and the generator as they
are then, so that what holds of every request is proved by induction on the way that it goes.
`Starts` does the same for the request that propagates the root.
-/

namespace ConstraintSearch

namespace Engine

variable {σ : Type}

/-- The engine with one more space counted. -/
abbrev countSpace (engine : Engine σ) : Engine σ :=
  engine.tally fun statistics => { statistics with spaces := statistics.spaces + 1 }

/-- The engine with one more rejected space counted. -/
abbrev countRejected (engine : Engine σ) : Engine σ :=
  engine.tally fun statistics => { statistics with rejected := statistics.rejected + 1 }

/-- The engine with one more solution counted. -/
abbrev countSolution (engine : Engine σ) : Engine σ :=
  engine.tally fun statistics => { statistics with solutions := statistics.solutions + 1 }

end Engine

namespace Search

variable {γ σ : Type} [Generator γ]

/-! ### Requests on a stack -/

/-- A request on a stack, with a generator and an engine, has the result: it comes to the end of the
tree, leaves the space on top, gives it up since it is not divided, or requests its next child,
which is rejected, makes the observer intervene, is solved or becomes the new top. -/
inductive Explores (network : Network) (observer : Observer σ) :
    List Space → γ → Engine σ → Outcome × Search γ σ → Prop
  | finished {generator : γ} {engine : Engine σ} :
    Explores network observer [] generator engine
      (.finished,
        { stack := [], phase := .finished, generator, engine := engine.note .treeExhausted })
  | leave {top : Space} {rest : List Space} {generator : γ} {engine : Engine σ}
    {result : Outcome × Search γ σ} (unselected : network.order.select? network top = none)
    (later : Explores network observer rest generator engine result) :
    Explores network observer (top :: rest) generator engine result
  | giveUp {top : Space} {rest : List Space} {variableId : VariableId} {generator : γ}
    {engine : Engine σ} {result : Outcome × Search γ σ}
    (selected : network.order.select? network top = some variableId)
    (undivided :
      (network.strategyOf variableId).divide? variableId top top.branchCount generator = none)
    (later : Explores network observer rest generator engine result) :
    Explores network observer (top :: rest) generator engine result
  | reject {top : Space} {rest : List Space} {variableId : VariableId}
    {part : SmallerPart top variableId} {generator next : γ} {engine final : Engine σ}
    {result : Outcome × Search γ σ}
    (selected : network.order.select? network top = some variableId)
    (divided : (network.strategyOf variableId).divide? variableId top top.branchCount generator =
      some (part, next))
    (propagated : engine.countSpace.propagate network observer (top.child variableId part.domain) =
      (.rejected, final))
    (later : Explores network observer (top.branched part.lastChosen :: rest) next
      final.countRejected result) :
    Explores network observer (top :: rest) generator engine result
  | abort {top : Space} {rest : List Space} {variableId : VariableId}
    {part : SmallerPart top variableId} {generator next : γ} {engine final : Engine σ}
    (selected : network.order.select? network top = some variableId)
    (divided : (network.strategyOf variableId).divide? variableId top top.branchCount generator =
      some (part, next))
    (propagated : engine.countSpace.propagate network observer (top.child variableId part.domain) =
      (.aborted, final)) :
    Explores network observer (top :: rest) generator engine
      (.aborted,
        { stack := top.branched part.lastChosen :: rest, phase := .aborted, generator := next
          engine := final })
  | fault {top : Space} {rest : List Space} {variableId : VariableId}
    {part : SmallerPart top variableId} {generator next : γ} {engine final : Engine σ}
    {reason : Fault} (selected : network.order.select? network top = some variableId)
    (divided : (network.strategyOf variableId).divide? variableId top top.branchCount generator =
      some (part, next))
    (propagated : engine.countSpace.propagate network observer (top.child variableId part.domain) =
      (.faulted reason, final)) :
    Explores network observer (top :: rest) generator engine
      (.faulted reason,
        { stack := top.branched part.lastChosen :: rest, phase := .exploring, generator := next
          engine := final })
  | solve {top child : Space} {rest : List Space} {variableId : VariableId}
    {part : SmallerPart top variableId} {generator next : γ} {engine final : Engine σ}
    (selected : network.order.select? network top = some variableId)
    (divided : (network.strategyOf variableId).divide? variableId top top.branchCount generator =
      some (part, next))
    (propagated : engine.countSpace.propagate network observer (top.child variableId part.domain) =
      (.stable child, final))
    (solved : child.isSolved) :
    Explores network observer (top :: rest) generator engine
      (.solved child,
        { stack := top.branched part.lastChosen :: rest, phase := .exploring, generator := next
          engine :=
            final.countSolution.note (.solutionFound final.countSolution.statistics.solutions) })
  | descend {top child : Space} {rest : List Space} {variableId : VariableId}
    {part : SmallerPart top variableId} {generator next : γ} {engine final : Engine σ}
    {result : Outcome × Search γ σ}
    (selected : network.order.select? network top = some variableId)
    (divided : (network.strategyOf variableId).divide? variableId top top.branchCount generator =
      some (part, next))
    (propagated : engine.countSpace.propagate network observer (top.child variableId part.domain) =
      (.stable child, final))
    (unsolved : child.isSolved = false)
    (later : Explores network observer (child :: top.branched part.lastChosen :: rest) next
      (final.tally fun statistics =>
        { statistics with peakDepth := max statistics.peakDepth child.depth }) result) :
    Explores network observer (top :: rest) generator engine result

/-- Every request goes one of these ways to its result. -/
theorem explores (network : Network) (observer : Observer σ) (stack : List Space) (generator : γ)
    (engine : Engine σ) :
    Explores network observer stack generator engine
      (explore network observer stack generator engine) := by
  refine explore.induct_unfolding network observer (Explores network observer) ?finished ?leave
    ?giveUp ?reject ?abort ?fault ?solve ?descend stack generator engine
  case finished =>
    intro generator engine
    exact .finished
  case leave =>
    intro generator engine top rest unselected later
    exact .leave unselected later
  case giveUp =>
    intro generator engine top rest variableId selected undivided later
    exact .giveUp selected undivided later
  case reject =>
    intro generator engine top rest variableId selected part next divided parent counted final
      propagated rejected later
    exact .reject selected divided propagated later
  case abort =>
    intro generator engine top rest variableId selected part next divided parent counted final
      propagated
    exact .abort selected divided propagated
  case fault =>
    intro generator engine top rest variableId selected part next divided parent counted reason
      final propagated
    exact .fault selected divided propagated
  case solve =>
    intro generator engine top rest variableId selected part next divided parent counted child final
      propagated solved
    exact .solve selected divided propagated solved
  case descend =>
    intro generator engine top rest variableId selected part next divided parent counted child final
      propagated unsolved deeper later
    exact .descend selected divided propagated (Bool.eq_false_iff.mpr unsolved) later

section Rounds

variable {network : Network} {observer : Observer σ} {top : Space} {rest : List Space}
  {generator : γ} {engine : Engine σ}

/-- A space on which nothing is left to select is left. -/
theorem explore_of_unselected (unselected : network.order.select? network top = none) :
    explore network observer (top :: rest) generator engine =
      explore network observer rest generator engine := by
  rw [explore]
  split
  · rfl
  · rename_i selected
    rw [unselected] at selected
    cases selected

/-- A space whose selected variable is not divided is given up. -/
theorem explore_of_undivided {variableId : VariableId}
    (selected : network.order.select? network top = some variableId)
    (undivided :
      (network.strategyOf variableId).divide? variableId top top.branchCount generator = none) :
    explore network observer (top :: rest) generator engine =
      explore network observer rest generator engine := by
  rw [explore]
  split
  · rfl
  · rename_i found
    cases selected.symm.trans found
    split
    · rfl
    · rename_i divided
      cases undivided.symm.trans divided

/-- A space whose selected variable is divided gives its next child. -/
theorem explore_of_divided {variableId : VariableId} {part : SmallerPart top variableId} {next : γ}
    (selected : network.order.select? network top = some variableId)
    (divided : (network.strategyOf variableId).divide? variableId top top.branchCount generator =
      some (part, next)) :
    explore network observer (top :: rest) generator engine =
      match engine.countSpace.propagate network observer (top.child variableId part.domain) with
      | (.rejected, engine) =>
        explore network observer (top.branched part.lastChosen :: rest) next engine.countRejected
      | (.aborted, engine) =>
        (.aborted,
          { stack := top.branched part.lastChosen :: rest, phase := .aborted, generator := next
            engine })
      | (.faulted fault, engine) =>
        (.faulted fault,
          { stack := top.branched part.lastChosen :: rest, phase := .exploring, generator := next
            engine })
      | (.stable child, engine) =>
        if child.isSolved then
          (.solved child,
            { stack := top.branched part.lastChosen :: rest, phase := .exploring, generator := next
              engine := engine.countSolution.note
                (.solutionFound engine.countSolution.statistics.solutions) })
        else
          explore network observer (child :: top.branched part.lastChosen :: rest) next
            (engine.tally fun statistics =>
              { statistics with peakDepth := max statistics.peakDepth child.depth }) := by
  rw [explore]
  split
  · rename_i unselected
    cases selected.symm.trans unselected
  · rename_i found
    cases selected.symm.trans found
    split
    · rename_i undivided
      cases divided.symm.trans undivided
    · rename_i other
      cases divided.symm.trans other
      dsimp only
      split <;> rename_i propagated <;> rw [propagated]

end Rounds

/-- The way a request goes determines its result. -/
theorem Explores.eq {network : Network} {observer : Observer σ} {stack : List Space} {generator : γ}
    {engine : Engine σ} {result : Outcome × Search γ σ}
    (explored : Explores network observer stack generator engine result) :
    explore network observer stack generator engine = result := by
  induction explored with
  | finished => rw [explore]
  | leave unselected later inductionHypothesis =>
    rw [explore_of_unselected unselected, inductionHypothesis]
  | giveUp selected undivided later inductionHypothesis =>
    rw [explore_of_undivided selected undivided, inductionHypothesis]
  | reject selected divided propagated later inductionHypothesis =>
    rw [explore_of_divided selected divided, propagated]
    exact inductionHypothesis
  | abort selected divided propagated => rw [explore_of_divided selected divided, propagated]
  | fault selected divided propagated => rw [explore_of_divided selected divided, propagated]
  | solve selected divided propagated solved =>
    rw [explore_of_divided selected divided, propagated]
    simp only [solved, if_true]
  | descend selected divided propagated unsolved later inductionHypothesis =>
    rw [explore_of_divided selected divided, propagated]
    simp only [unsolved, Bool.false_eq_true, if_false, inductionHypothesis]

/-! ### The first request -/

/-- The first request has the result: the root is rejected, makes the observer intervene, is solved
or is explored. -/
inductive Starts (network : Network) (observer : Observer σ) (generator : γ) (engine : Engine σ) :
    Outcome × Search γ σ → Prop
  | reject {final : Engine σ}
    (propagated : engine.countSpace.propagate network observer (Space.root network) =
      (.rejected, final)) :
    Starts network observer generator engine
      (.finished,
        { phase := .finished, generator, engine := (final.note .rootInconsistent).countRejected })
  | abort {final : Engine σ}
    (propagated : engine.countSpace.propagate network observer (Space.root network) =
      (.aborted, final)) :
    Starts network observer generator engine
      (.aborted, { phase := .aborted, generator, engine := final })
  | fault {reason : Fault} {final : Engine σ}
    (propagated : engine.countSpace.propagate network observer (Space.root network) =
      (.faulted reason, final)) :
    Starts network observer generator engine
      (.faulted reason, { phase := .exploring, generator, engine := final })
  | solve {root : Space} {final : Engine σ}
    (propagated : engine.countSpace.propagate network observer (Space.root network) =
      (.stable root, final))
    (solved : root.isSolved) :
    Starts network observer generator engine
      (.solved root, { phase := .exploring, generator, engine := final.countSolution })
  | explore {root : Space} {final : Engine σ} {result : Outcome × Search γ σ}
    (propagated : engine.countSpace.propagate network observer (Space.root network) =
      (.stable root, final))
    (unsolved : root.isSolved = false)
    (later : Explores network observer [root] generator
      (final.tally fun statistics => { statistics with peakDepth := 1 }) result) :
    Starts network observer generator engine result

/-- Every first request goes one of these ways to its result. -/
theorem starts (network : Network) (observer : Observer σ) (generator : γ) (engine : Engine σ) :
    Starts network observer generator engine (start network observer generator engine) := by
  rw [start]
  dsimp only
  split
  · rename_i final propagated
    exact .reject propagated
  · rename_i final propagated
    exact .abort propagated
  · rename_i reason final propagated
    exact .fault propagated
  · rename_i root final propagated
    split
    · rename_i solved
      exact .solve propagated solved
    · rename_i unsolved
      exact .explore propagated (Bool.eq_false_iff.mpr unsolved) (explores _ _ _ _ _)

/-- The way the first request goes determines its result. -/
theorem Starts.eq {network : Network} {observer : Observer σ} {generator : γ} {engine : Engine σ}
    {result : Outcome × Search γ σ} (started : Starts network observer generator engine result) :
    start network observer generator engine = result := by
  cases started with
  | reject propagated => simp only [start, propagated]
  | abort propagated => simp only [start, propagated]
  | fault propagated => simp only [start, propagated]
  | solve propagated solved => simp only [start, propagated, solved, if_true]
  | explore propagated unsolved later =>
    simp only [start, propagated, unsolved, Bool.false_eq_true, if_false, later.eq]

end Search

end ConstraintSearch
