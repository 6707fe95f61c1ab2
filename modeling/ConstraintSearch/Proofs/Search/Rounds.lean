import ConstraintSearch.Proofs.Search.Soundness
import ConstraintSearch.Search.Solver

/-!
# The loops of a search, round by round

The functions that propagate a space and that explore the tree are defined along measures which make
them total. Here the rounds of their loops stand by themselves, with no measure and no part of a
domain known to be smaller in advance, and `Round.result?` runs them for a limited number of rounds.
What the rounds decrease bounds how many there are (`Round.exists_result?`), which
`Network.result?_cycle` says of the propagation of a space.
-/

namespace ConstraintSearch

/-- What one round of a loop comes to. -/
inductive Round (State Result : Type)
  /-- The loop ends with a result. -/
  | done (result : Result)
  /-- Another round follows. -/
  | again (state : State)
  /-- An assertion of the round fails. -/
  | stuck

namespace Round

variable {State Result : Type}

/-- The result of a loop that ends within the given number of rounds without a failing assertion. -/
def result? (round : State → Round State Result) : (rounds : Nat) → State → Option Result
  | 0, _ => none
  | rounds + 1, state =>
    match round state with
    | done result => some result
    | again next => result? round rounds next
    | stuck => none

/-- A round that is good for a state: it ends with a result that the state may have, or leaves a
state with a smaller measure all of whose results the former state may have. -/
def Descends (keeps : State → Prop) (measure : State → Nat) (may : State → Result → Prop)
    (state : State) : Round State Result → Prop
  | done result => may state result
  | again next =>
    keeps next ∧ measure next < measure state ∧ ∀ result, may next result → may state result
  | stuck => False

/-- A loop whose rounds lower a measure ends within as many rounds. -/
theorem exists_result? {round : State → Round State Result} {keeps : State → Prop}
    {measure : State → Nat} {may : State → Result → Prop}
    (descends : ∀ state, keeps state → (round state).Descends keeps measure may state)
    {rounds : Nat} (state : State) (kept : keeps state) (enough : measure state < rounds) :
    ∃ result, result? round rounds state = some result ∧ may state result := by
  induction rounds generalizing state with
  | zero => exact absurd enough (Nat.not_lt_zero _)
  | succ rounds inductionHypothesis =>
    have descent := descends state kept
    rw [result?]
    cases came : round state with
    | done result =>
      rw [came] at descent
      exact ⟨result, rfl, descent⟩
    | again next =>
      rw [came] at descent
      obtain ⟨keptNext, lower, back⟩ := descent
      obtain ⟨result, ended, allowed⟩ := inductionHypothesis next keptNext (by omega)
      exact ⟨result, ended, back result allowed⟩
    | stuck =>
      rw [came] at descent
      exact descent.elim

end Round

/-! ### Cycles of propagation -/

/-- Where the propagation of a space is between two cycles. -/
structure Settling where
  /-- The least number of propagators with which the propagators of a changed variable run. -/
  threshold : Nat
  cycle : Nat
  state : Narrowing

namespace Network

/-- One cycle of the propagation of a space. -/
def cycle (network : Network) (settling : Settling) :
    Round Settling (EStateM.Result VariableId Narrowing Unit) :=
  if settling.state.changes.order.isEmpty then
    .done (.ok () { settling.state with changes := settling.state.changes.next })
  else
    match settling.state.changes.order.toList.forM (network.runAttached settling.threshold)
        (settling.state.startCycle settling.cycle) with
    | .ok _ after => .again ⟨2, settling.cycle + 1, after⟩
    | .error variableId after => .done (.error variableId after)

/-- From every state, the propagation of a space ends, after no more cycles than there are values
and changes. -/
theorem result?_cycle (network : Network) (threshold cycle : Nat) (state : Narrowing) :
    Round.result? network.cycle (state.potential + 1) ⟨threshold, cycle, state⟩ =
      some (network.settle threshold cycle state) := by
  have descends : ∀ settling : Settling, True →
      (network.cycle settling).Descends (fun _ => True) (·.state.potential) (fun settling result =>
        result = network.settle settling.threshold settling.cycle settling.state) settling := by
    rintro ⟨threshold, cycle, state⟩ _
    rw [Network.cycle]
    by_cases quiet : state.changes.order.isEmpty
    · rw [if_pos quiet, Round.Descends, network.settle_eq, if_pos quiet]
    · rw [if_neg quiet]
      have steady :=
        trend_potential.follows_forM (network.follows_runAttached trend_potential threshold)
          state.changes.order.toList (state.startCycle cycle)
      have settled := network.settle_eq threshold cycle state
      rw [if_neg quiet] at settled
      dsimp only
      cases ran : state.changes.order.toList.forM (network.runAttached threshold)
        (state.startCycle cycle) with
      | ok _ after =>
        rw [ran] at settled
        rw [Narrow.after_of_ok ran] at steady
        refine ⟨trivial, Nat.lt_of_le_of_lt steady (Narrowing.potential_startCycle_lt cycle quiet),
          ?_⟩
        rintro result rfl
        exact settled.symm
      | error variableId after =>
        rw [ran] at settled
        exact settled.symm
  obtain ⟨result, ended, rfl⟩ :=
    Round.exists_result? descends ⟨threshold, cycle, state⟩ trivial (Nat.lt_succ_self _)
  exact ended

end Network

/-! ### Rounds of a request -/

/-- The observer may be unable to tell whether to stop. -/
def Observer.Faults {σ : Type} (observer : Observer σ) : Prop :=
  ∃ space state fault, (observer.before space state).1 = .fault fault ∨
    (observer.after space state).1 = .fault fault

/-- Propagation faults only where the observer cannot tell. -/
theorem Engine.faults_of_faulted {σ : Type} {engine final : Engine σ} {network : Network}
    {observer : Observer σ} {space : Space} {fault : Fault}
    (faulted : engine.propagate network observer space = (.faulted fault, final)) :
    observer.Faults := by
  rw [propagate] at faulted
  split at faulted
  · cases faulted
  · rename_i before
    exact ⟨space, _, _, .inl (congrArg Prod.fst before)⟩
  · split at faulted
    · cases faulted
    · simp only at faulted
      split at faulted
      · cases faulted
      · rename_i after
        exact ⟨_, _, _, .inr (congrArg Prod.fst after)⟩
      · cases faulted

namespace Search

variable {γ σ : Type} [Generator γ]

/-- The round in which the root is propagated. -/
def startRound (network : Network) (observer : Observer σ) (generator : γ) (engine : Engine σ) :
    Round (Search γ σ) (Outcome × Search γ σ) :=
  let counted := engine.tally fun statistics => { statistics with spaces := statistics.spaces + 1 }
  match counted.propagate network observer (Space.root network) with
  | (.rejected, engine) =>
    let engine := (engine.note .rootInconsistent).tally fun statistics =>
      { statistics with rejected := statistics.rejected + 1 }
    .done (.finished, { phase := .finished, generator, engine })
  | (.aborted, engine) => .done (.aborted, { phase := .aborted, generator, engine })
  | (.faulted fault, engine) => .done (.faulted fault, { phase := .exploring, generator, engine })
  | (.stable root, engine) =>
    if root.isSolved then
      let engine := engine.tally fun statistics =>
        { statistics with solutions := statistics.solutions + 1 }
      .done (.solved root, { phase := .exploring, generator, engine })
    else
      let engine := engine.tally fun statistics => { statistics with peakDepth := 1 }
      .again { stack := [root], phase := .exploring, generator, engine }

/-- The round in which the space on top has given a part of the domain of a variable to its next
child. -/
def childRound (network : Network) (observer : Observer σ) (top : Space) (rest : List Space)
    (variableId : VariableId) (part : Part) (generator : γ) (engine : Engine σ) :
    Round (Search γ σ) (Outcome × Search γ σ) :=
  let parent := top.branched part.lastChosen
  let counted := engine.tally fun statistics =>
    { statistics with spaces := statistics.spaces + 1 }
  match counted.propagate network observer (top.child variableId part.domain) with
  | (.rejected, engine) =>
    let engine := engine.tally fun statistics =>
      { statistics with rejected := statistics.rejected + 1 }
    .again { stack := parent :: rest, phase := .exploring, generator, engine }
  | (.aborted, engine) =>
    .done (.aborted, { stack := parent :: rest, phase := .aborted, generator, engine })
  | (.faulted fault, engine) =>
    .done (.faulted fault, { stack := parent :: rest, phase := .exploring, generator, engine })
  | (.stable child, engine) =>
    if child.isSolved then
      let engine := engine.tally fun statistics =>
        { statistics with solutions := statistics.solutions + 1 }
      let engine := engine.note (.solutionFound engine.statistics.solutions)
      .done (.solved child, { stack := parent :: rest, phase := .exploring, generator, engine })
    else
      let engine := engine.tally fun statistics =>
        { statistics with peakDepth := max statistics.peakDepth child.depth }
      .again { stack := child :: parent :: rest, phase := .exploring, generator, engine }

/-- A round in which a child of the space on top is requested. It asserts that the selected variable
is not fixed yet and that no third child was requested before. -/
def exploreRound (network : Network) (observer : Observer σ) (stack : List Space) (generator : γ)
    (engine : Engine σ) : Round (Search γ σ) (Outcome × Search γ σ) :=
  match stack with
  | [] =>
    .done (.finished, { stack, phase := .finished, generator,
                        engine := engine.note .treeExhausted })
  | top :: rest =>
    match network.order.select? network top with
    | none => .again { stack := rest, phase := .exploring, generator, engine }
    | some variableId =>
      if (top.domainOf variableId).isSolved || 2 < top.branchCount then
        .stuck
      else
        match (network.strategyOf variableId).divide variableId top top.branchCount generator with
        | none => .again { stack := rest, phase := .exploring, generator, engine }
        | some (part, generator) =>
          childRound network observer top rest variableId part generator engine

/-- One round of a request to a search. -/
def round (network : Network) (observer : Observer σ) (search : Search γ σ) :
    Round (Search γ σ) (Outcome × Search γ σ) :=
  match search.phase with
  | .finished => .done (.finished, search)
  | .aborted => .done (.aborted, search)
  | .notStarted => startRound network observer search.generator search.engine
  | .exploring => exploreRound network observer search.stack search.generator search.engine

/-- A bound on the number of rounds of all requests to come. -/
def limit (network : Network) (search : Search γ σ) : Nat :=
  match search.phase with
  | .finished | .aborted => 0
  | .notStarted => (Space.root network).weight + 1
  | .exploring => stackWeight search.stack

end Search

end ConstraintSearch
