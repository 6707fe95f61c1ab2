import ConstraintSearch.Proofs.Search.Explored
import ConstraintSearch.Proofs.Search.Frames
import Mathlib.Logic.Relation

/-!
# The search, turn by turn

A request runs the search through a number of turns and one that ends it. `Turn` and `Ending` are
the steps of this transition system; they forget the counters of the engine, which decide nothing.
What every turn preserves holds where the request ends.
-/

namespace ConstraintSearch

namespace Search

/-- Where a search is: its stack, and what lasts from space to space. -/
structure Position (σ : Type) where
  stack : List Space
  engine : Engine σ

variable {γ σ : Type} [Generator γ]

/-- A turn after which the search goes on: the space on top is left for good, or its next child is
rejected or becomes the new top. -/
inductive Turn (γ : Type) [Generator γ] (network : Network) (observer : Observer σ) :
    (before after : Position σ) → Prop
  | leave {top : Space} {rest : List Space} {engine : Engine σ}
      (unselected : network.order.select? network top = none) :
    Turn γ network observer ⟨top :: rest, engine⟩ ⟨rest, engine⟩
  | giveUp {top : Space} {rest : List Space} {engine : Engine σ} {variableId : VariableId}
      {generator : γ}
    (selected : network.order.select? network top = some variableId)
    (undivided : (network.strategyOf variableId).divide? variableId top top.branchCount
      generator = none) :
    Turn γ network observer ⟨top :: rest, engine⟩ ⟨rest, engine⟩
  | reject {top : Space} {rest : List Space} {engine final : Engine σ} {variableId : VariableId}
    {part : SmallerPart top variableId} {spent counted : Statistics → Statistics}
    (branches : network.Branches γ top variableId part)
    (propagated : (engine.tally spent).propagate network observer
      (top.child variableId part.domain) = (.rejected, final)) :
    Turn γ network observer ⟨top :: rest, engine⟩
      ⟨top.branched part.lastChosen :: rest, final.tally counted⟩
  | descend {top child : Space} {rest : List Space} {engine final : Engine σ}
      {variableId : VariableId}
    {part : SmallerPart top variableId} {spent counted : Statistics → Statistics}
    (branches : network.Branches γ top variableId part)
    (propagated : (engine.tally spent).propagate network observer
      (top.child variableId part.domain) = (.stable child, final))
    (unsolved : child.isSolved = false) :
    Turn γ network observer ⟨top :: rest, engine⟩
      ⟨child :: top.branched part.lastChosen :: rest, final.tally counted⟩

/-- The turn that ends a request: the stack is empty, the observer intervenes, or the next child is
solved. -/
inductive Ending (network : Network) (observer : Observer σ) :
    Position σ → Outcome × Search γ σ → Prop
  | finished {engine : Engine σ} {generator : γ} :
    Ending network observer ⟨[], engine⟩
      (.finished, { stack := [], phase := .finished, generator,
                    engine := engine.note .treeExhausted })
  | aborted {top : Space} {rest : List Space} {engine final : Engine σ} {variableId : VariableId}
      {next : γ}
    {part : SmallerPart top variableId} {spent : Statistics → Statistics}
    (branches : network.Branches γ top variableId part)
    (propagated : (engine.tally spent).propagate network observer
      (top.child variableId part.domain) = (.aborted, final)) :
    Ending network observer ⟨top :: rest, engine⟩
      (.aborted, { stack := top.branched part.lastChosen :: rest, phase := .aborted,
                   generator := next, engine := final })
  | faulted {top : Space} {rest : List Space} {engine final : Engine σ} {variableId : VariableId}
      {next : γ}
    {part : SmallerPart top variableId} {spent : Statistics → Statistics} {fault : Fault}
    (branches : network.Branches γ top variableId part)
    (propagated :
      (engine.tally spent).propagate network observer (top.child variableId part.domain) =
        (.faulted fault, final)) :
    Ending network observer ⟨top :: rest, engine⟩
      (.faulted fault,
        { stack := top.branched part.lastChosen :: rest, phase := .exploring, generator := next,
          engine := final })
  | solved {top child : Space} {rest : List Space} {engine final : Engine σ}
      {variableId : VariableId} {next : γ}
    {part : SmallerPart top variableId} {spent counted : Statistics → Statistics} {event : Event}
    (branches : network.Branches γ top variableId part)
    (propagated : (engine.tally spent).propagate network observer
      (top.child variableId part.domain) = (.stable child, final))
    (solved : child.isSolved) :
    Ending network observer ⟨top :: rest, engine⟩
      (.solved child,
        { stack := top.branched part.lastChosen :: rest, phase := .exploring, generator := next,
          engine := (final.tally counted).note event })

/-- Any number of turns. -/
abbrev Turns (γ : Type) [Generator γ] (network : Network) (observer : Observer σ) :
    Position σ → Position σ → Prop :=
  Relation.ReflTransGen (Turn γ network observer)

variable {network : Network}

/-- A request goes through turns to one that ends it. -/
theorem exists_turns_ending (network : Network) (observer : Observer σ) (stack : List Space)
    (generator : γ) (engine : Engine σ) : ∃ last, Turns γ network observer ⟨stack, engine⟩ last ∧
      Ending network observer last (explore network observer stack generator engine) := by
  have explored := explores network observer stack generator engine
  generalize explore network observer stack generator engine = result at explored ⊢
  induction explored with
  | finished => exact ⟨_, .refl, .finished⟩
  | leave unselected later inductionHypothesis =>
    obtain ⟨last, turns, ending⟩ := inductionHypothesis
    exact ⟨last, .head (.leave unselected) turns, ending⟩
  | giveUp selected undivided later inductionHypothesis =>
    obtain ⟨last, turns, ending⟩ := inductionHypothesis
    exact ⟨last, .head (.giveUp selected undivided) turns, ending⟩
  | reject selected divided propagated later inductionHypothesis =>
    obtain ⟨last, turns, ending⟩ := inductionHypothesis
    exact ⟨last, .head (.reject ⟨selected, _, _, divided⟩ propagated) turns, ending⟩
  | abort selected divided propagated =>
    exact ⟨_, .refl, .aborted ⟨selected, _, _, divided⟩ propagated⟩
  | fault selected divided propagated =>
    exact ⟨_, .refl, .faulted ⟨selected, _, _, divided⟩ propagated⟩
  | solve selected divided propagated solved =>
    exact ⟨_, .refl, .solved ⟨selected, _, _, divided⟩ propagated solved⟩
  | descend selected divided propagated unsolved later inductionHypothesis =>
    obtain ⟨last, turns, ending⟩ := inductionHypothesis
    exact ⟨last, .head (.descend ⟨selected, _, _, divided⟩ propagated unsolved) turns, ending⟩

/-! ### Lighter stacks -/

variable {observer : Observer σ}

/-- Every turn that goes on makes the stack lighter, which is why there are finitely many. -/
theorem Turn.weight_lt {before after : Position σ} (turn : Turn γ network observer before after) :
    stackWeight after.stack < stackWeight before.stack := by
  cases turn with
  | @leave top rest =>
    have := top.weight_pos
    simp only [stackWeight, total_cons]
    omega
  | @giveUp top rest =>
    have := top.weight_pos
    simp only [stackWeight, total_cons]
    omega
  | @reject top rest engine final variableId part spent counted branches propagated =>
    have := Space.weight_branched_lt part.lastChosen branches.branchCount_lt_two
    simp only [stackWeight, total_cons]
    omega
  | @descend top child rest engine final variableId part spent counted branches propagated
      unsolved =>
        have fewer : valuesLeft child.domains < valuesLeft top.domains :=
          Nat.lt_of_le_of_lt (Engine.propagate_stable propagated).2 (valuesLeft_set_lt part.smaller)
        have := Space.weight_branched_add_lt part.lastChosen branches.branchCount_lt_two fewer
        simp only [stackWeight, total_cons]
        omega

/-- No turn adds to the weight of the stack. -/
theorem Turns.weight_le {before after : Position σ}
    (turns : Turns γ network observer before after) :
    stackWeight after.stack ≤ stackWeight before.stack := by
  induction turns with
  | refl => exact Nat.le_refl _
  | tail _ turn inductionHypothesis =>
    exact Nat.le_trans (Nat.le_of_lt turn.weight_lt) inductionHypothesis

/-- A request that reports a space can be repeated and leaves a lighter stack. -/
theorem Ending.weight_lt {last : Position σ} {space : Space} {after : Search γ σ}
    (ending : Ending network observer last (.solved space, after)) :
    after.phase = .exploring ∧ stackWeight after.stack < stackWeight last.stack := by
  cases ending with
  | @solved top child rest engine final variableId next part spent counted event branches propagated
      solved =>
        have := Space.weight_branched_lt part.lastChosen branches.branchCount_lt_two
        refine ⟨rfl, ?_⟩
        simp only [stackWeight, total_cons]
        omega

end Search

end ConstraintSearch
