import ConstraintSearch.Proofs.Branching.Drawing
import ConstraintSearch.Proofs.Propagation.Safety
import ConstraintSearch.Proofs.Search.Checked
import ConstraintSearch.Proofs.Search.Layers

/-!
# Searches that never fail a check

Between two rounds of any requests, the spaces on the stack are frames, and each comes from the one
below it. So the next round reads nothing that is not there and passes all other checks.
-/

namespace ConstraintSearch

/-! ### Reading -/

section Reading

variable {α β : Type} {value : α}

/-- A reading that succeeds is followed by what comes next. -/
theorem lift_bind_of_passed {read : Except Fault α} {next : α → Except Failure β}
    (passed : read = .ok value) : ((liftM read : Except Failure α) >>= next) = next value := by
  rw [passed]
  rfl

end Reading

/-! ### Selecting -/

/-- The variable has a domain with values. -/
def Space.Has (space : Space) (variableId : VariableId) : Prop :=
  variableId < space.domains.size ∧ (space.domainOf variableId).Nonempty

section Selecting

variable {network : Network} {space : Space} {order : VariableOrder VariableId}
  {candidate best : VariableId}

/-- Both variables have domains with values, so all bounds that a criterion compares are there. -/
theorem Criterion.preferChecked_eq (criterion : Criterion VariableId)
    (hasCandidate : space.Has candidate) (hasBest : space.Has best) :
    criterion.preferChecked network space candidate best =
      .ok (criterion.prefer network space candidate best) := by
  rw [preferChecked, bind_of_passed (Table.get_eq_ok hasCandidate.1 ∅),
    bind_of_passed (Table.get_eq_ok hasBest.1 ∅)]
  obtain ⟨candidateLeast, candidateMin, candidateMinimum⟩ := hasCandidate.2.exists_minimum
  obtain ⟨candidateMost, candidateMax, candidateMaximum⟩ := hasCandidate.2.exists_maximum
  obtain ⟨bestLeast, bestMin, bestMinimum⟩ := hasBest.2.exists_minimum
  obtain ⟨bestMost, bestMax, bestMaximum⟩ := hasBest.2.exists_maximum
  simp only [Space.domainOf] at *
  cases criterion <;>
    simp [prefer, Space.domainOf, candidateMin, candidateMinimum, candidateMax, candidateMaximum,
      bestMin, bestMinimum, bestMax, bestMaximum, Bind.bind, Except.bind, Pure.pure, Except.pure]

/-- The criteria of a list are asked one after the other, and all of them pass. -/
theorem Criterion.preferAmongChecked_eq (criteria : List (Criterion VariableId))
    (hasCandidate : space.Has candidate) (hasBest : space.Has best) :
    preferAmongChecked network space candidate best criteria =
      .ok (preferAmong network space candidate best criteria) := by
  induction criteria with
  | nil => rfl
  | cons criterion ties inductionHypothesis =>
    rw [preferAmongChecked, bind_of_passed (criterion.preferChecked_eq hasCandidate hasBest),
      preferAmong]
    cases criterion.prefer network space candidate best with
    | eq => exact inductionHypothesis
    | lt => rfl
    | gt => rfl

/-- The better one of two variables is found with or without the checks. -/
theorem VariableOrder.betterChecked_eq (hasCandidate : space.Has candidate)
    (hasBest : space.Has best) :
    order.betterChecked network space best candidate =
      .ok (order.better network space best candidate) := by
  rw [betterChecked, bind_of_passed
    (Criterion.preferAmongChecked_eq order.criteria hasCandidate hasBest), better, prefer]
  cases Criterion.preferAmong network space candidate best order.criteria <;> rfl

/-- So is the best one of a list. The induction keeps that the best variable so far has values. -/
theorem VariableOrder.foldlM_betterChecked_eq {others : List VariableId}
    (has : ∀ variableId ∈ others, space.Has variableId) (hasBest : space.Has best) :
    others.foldlM (order.betterChecked network space) best =
      .ok (others.foldl (order.better network space) best) := by
  refine @foldlM_eq_ok _ _ _ _ _ space.Has _ _ (fun best hasBest candidate inside => ?_) hasBest
  refine ⟨betterChecked_eq (has candidate inside) hasBest, ?_⟩
  rcases @order.better_eq_or network space best candidate with same | same
  · rw [same]
    exact hasBest
  · rw [same]
    exact has candidate inside

/-- A variable is selected in the same way with the checks as without them. -/
theorem VariableOrder.selectChecked?_eq
    (has : ∀ variableId ∈ space.unsolved, space.Has variableId) :
    order.selectChecked? network space = .ok (order.select? network space) := by
  rw [selectChecked?, select?]
  cases listed : space.unsolved with
  | nil => rfl
  | cons first others =>
    rw [listed] at has
    obtain ⟨hasFirst, hasOthers⟩ := List.forall_mem_cons.mp has
    have folded := @foldlM_betterChecked_eq network space order first others hasOthers hasFirst
    dsimp only
    rw [bind_of_passed folded]
    cases order.first <;> rfl

end Selecting

/-! ### Dividing -/

section Dividing

variable {γ : Type} [Generator γ] {domain : Domain} {space : Space} {variableId : VariableId}

/-- A domain with values has a middle one, and reading it passes. -/
theorem Domain.Nonempty.exists_middle (nonempty : domain.Nonempty) :
    ∃ middle, domain.middle? = some middle ∧ domain.middle = .ok middle := by
  obtain ⟨middle, isMiddle⟩ := nonempty.exists_middle?
  exact ⟨middle, isMiddle, by rw [Domain.middle, isMiddle]; rfl⟩

/-- A picked value is there to be taken and to be removed. -/
theorem Domain.pickChecked_eq {pick : Option Int} {read : Except Fault Int}
    (lastChosen : Option Int) (choice : Nat)
    (passed : ∃ value, pick = some value ∧ read = .ok value) :
    domain.pickChecked read lastChosen choice = .ok
      (domain.pickThenRemove pick lastChosen choice) := by
  obtain ⟨value, rfl, rfl⟩ := passed
  match choice with
  | 0 => rfl
  | 1 => rfl
  | choice + 2 => rfl

/-- The midpoint of a domain with values is between its bounds, which are there. -/
theorem Domain.Nonempty.exists_midpoint (nonempty : domain.Nonempty) :
    ∃ middle, domain.midpoint? = some middle ∧ domain.midpointChecked = .ok middle := by
  obtain ⟨smallest, isMin, isMinimum⟩ := nonempty.exists_minimum
  obtain ⟨greatest, isMax, isMaximum⟩ := nonempty.exists_maximum
  refine ⟨smallest + (greatest - smallest) / 2, ?_, ?_⟩
  · rw [Domain.midpoint?, isMin, isMax]
  · rw [Domain.midpointChecked, bind_of_passed isMinimum, bind_of_passed isMaximum]
    rfl

/-- A domain with values is cut at its midpoint, with the checks as without them. -/
theorem Domain.Nonempty.halveChecked_eq {side : (middle : Int) → Domain}
    {halves : (choice : Nat) → Option Part} (nonempty : domain.Nonempty)
    (first : ∀ middle, domain.midpoint? = some middle → halves 0 = some ⟨side middle, some middle⟩)
    (choice : Nat) :
    domain.halveChecked side (halves choice) choice = .ok (halves choice) := by
  cases choice with
  | zero =>
    obtain ⟨middle, isMiddle, checked⟩ := nonempty.exists_midpoint
    rw [Domain.halveChecked, bind_of_passed checked, first middle isMiddle]
    rfl
  | succ choice => rfl

/-- The weights of all candidates come from the matrix, so they are finite and not negative. -/
theorem MarkovMatrix.IsWeighted.isWeight_of_mem {matrix : MarkovMatrix VariableId}
    (isWeighted : matrix.IsWeighted) {row : MarkovRow VariableId} (inRows : row ∈ matrix.rows) :
    ∀ weight ∈ (matrix.candidates row domain).map Prod.snd, isWeight weight := by
  intro weight inside
  obtain ⟨⟨value, _⟩, isCandidate, rfl⟩ := List.mem_map.mp inside
  obtain ⟨_, inWeights⟩ := List.of_mem_zip (List.mem_filter.mp isCandidate).1
  rw [weightsOf] at inWeights
  cases expanded : matrix.expansion with
  | none =>
    rw [expanded] at inWeights
    exact isWeighted.rows row inRows _ inWeights
  | some filling =>
    rw [expanded] at inWeights
    rcases List.mem_append.mp inWeights with own | filled
    · exact isWeighted.rows row inRows _ own
    · exact isWeighted.expansion _ ((List.eq_of_mem_replicate filled).symm ▸ expanded)

/-- A draw by weights passes its checks if the guards are variables of the space and the weights are
sound. -/
theorem MarkovMatrix.divideChecked_eq {matrix : MarkovMatrix VariableId}
    (inside : ∀ guard ∈ matrix.rows.filterMap MarkovRow.guard, guard < space.domains.size)
    (isWeighted : matrix.IsWeighted)
    (choice : Nat) (generator : γ) :
    matrix.divideChecked domain space choice generator =
      .ok (matrix.divide domain space choice generator) := by
  cases choice with
  | succ choice => rfl
  | zero =>
    rw [divideChecked, lift_bind_of_passed (activeRowChecked?_eq inside), divide]
    have sameRow : (matrix.activeRow? fun guard => (space.domains.getD guard ∅).isValue 1) =
        matrix.activeRow? fun guard => (space.domainOf guard).isValue 1 := rfl
    rw [sameRow]
    cases active : matrix.activeRow? fun guard => (space.domainOf guard).isValue 1 with
    | none => rfl
    | some row =>
      have weights :=
        @IsWeighted.isWeight_of_mem domain matrix isWeighted row (mem_of_activeRow? active)
      dsimp only
      rw [if_pos (List.all_eq_true.mpr weights)]
      simp only [Option.bind_eq_bind, Option.bind_some]
      cases drawn : Generator.weightedChoice? ((matrix.candidates row domain).map Prod.snd)
        generator with
      | none => rfl
      | some choice =>
        obtain ⟨index, next⟩ := choice
        have early := index_lt_of_weightedChoice? drawn
        have read : (Table.ofList (matrix.candidates row domain)).get index =
            .ok (matrix.candidates row domain)[index] := by
          rw [Table.get, Table.get?, Table.ofList, List.getElem?_toArray,
            List.getElem?_eq_getElem early]
          rfl
        simp only [Option.bind_some, List.getElem?_eq_getElem early]
        rw [lift_bind_of_passed read]
        rfl

/-- The strategy draws values, if it does, by weights which variables below a bound guard. -/
def ValueStrategy.DrawsBelow (bound : Nat) : ValueStrategy VariableId → Prop
  | list _ fallback => fallback.DrawsBelow bound
  | markov matrix =>
    (∀ guard ∈ matrix.rows.filterMap MarkovRow.guard, guard < bound) ∧ matrix.IsWeighted
  | _ => True

/-- A division passes its checks: the choice is at most 2, and several values have bounds and a
middle. -/
theorem ValueStrategy.divideChecked_eq (strategy : ValueStrategy VariableId)
    (inside : variableId < space.domains.size) (draws : strategy.DrawsBelow space.domains.size)
    {choice : Nat} (counted : choice ≤ 2) (generator : γ) :
    strategy.divideChecked variableId space choice generator =
      .ok (strategy.divide variableId space choice generator) := by
  have read : space.domains.get variableId = .ok (space.domainOf variableId) :=
    Table.get_eq_ok inside ∅
  by_cases few : (space.domainOf variableId).isEmpty || (space.domainOf variableId).isSolved
  · cases strategy <;>
      rw [divideChecked, if_neg (Nat.not_lt.mpr counted), lift_bind_of_passed read, if_pos few,
        divide, if_pos few] <;> rfl
  have nonempty : (space.domainOf variableId).Nonempty := by
    rw [Bool.or_eq_true, not_or, Bool.not_eq_true] at few
    exact Domain.isEmpty_eq_false_iff.mp few.1
  have picks : ∀ {pick : Option Int} {read : Except Fault Int},
      (∃ value, pick = some value ∧ read = .ok value) →
        (do
          let part ← (space.domainOf variableId).pickChecked read space.lastChosen choice
          return part.map (·, generator) : Except Failure (Option (Part × γ))) =
        .ok (((space.domainOf variableId).pickThenRemove pick space.lastChosen choice).map
          (·, generator)) := by
    intro pick read passed
    rw [lift_bind_of_passed (Domain.pickChecked_eq space.lastChosen choice passed)]
    rfl
  induction strategy <;>
    rw [divideChecked, if_neg (Nat.not_lt.mpr counted), lift_bind_of_passed read, if_neg few,
      divide, if_neg few] <;> dsimp only
  case list values fallback inductionHypothesis =>
    cases (space.domainOf variableId).firstMember? values with
    | some value => exact picks ⟨value, rfl, rfl⟩
    | none => exact inductionHypothesis draws
  case markov matrix => exact matrix.divideChecked_eq draws.1 draws.2 choice generator
  case min => exact picks nonempty.exists_minimum
  case max => exact picks nonempty.exists_maximum
  case mid => exact picks nonempty.exists_middle
  case splitMin =>
    rw [lift_bind_of_passed (nonempty.halveChecked_eq
      (fun _ isMiddle => by rw [Domain.lowerHalfFirst, isMiddle]; rfl) choice)]
    rfl
  case splitMax =>
    rw [lift_bind_of_passed (nonempty.halveChecked_eq
      (fun _ isMiddle => by rw [Domain.upperHalfFirst, isMiddle]; rfl) choice)]
    rfl
  case minMaxCycle =>
    split
    · exact picks nonempty.exists_minimum
    · exact picks nonempty.exists_maximum

end Dividing

/-! ### Propagating -/

section Propagating

variable {γ σ : Type} [Generator γ] {network : Network} {model : Model} {engine final : Engine σ}
  {observer : Observer σ} {space top : Space} {variableId : VariableId}
  {part : SmallerPart top variableId}

/-- Variables that are listed are read before they are kept or dropped. -/
theorem Space.unsolvedChecked_eq {domains : Table Domain} {listed : List VariableId}
    (inside : ∀ variableId ∈ listed, variableId < domains.size) :
    unsolvedChecked domains listed =
      .ok (listed.filter fun variableId => !(domains.getD variableId ∅).isSolved) := by
  induction listed with
  | nil => rfl
  | cons first rest inductionHypothesis =>
    obtain ⟨firstInside, restInside⟩ := List.forall_mem_cons.mp inside
    rw [unsolvedChecked, bind_of_passed (Table.get_eq_ok firstInside ∅),
      bind_of_passed (inductionHypothesis restInside), List.filter_cons]
    cases (domains.getD first ∅).isSolved <;> rfl

/-- The list of unsolved variables is updated in the same way with the checks. -/
theorem Space.updateUnsolvedChecked_eq
    (inside : ∀ variableId ∈ space.unsolved, variableId < space.domains.size) :
    space.updateUnsolvedChecked = .ok space.updateUnsolved := by
  rw [updateUnsolvedChecked, bind_of_passed (unsolvedChecked_eq inside)]
  rfl

/-- The engine has room to note the changes of all variables. -/
def Engine.HasRoom (engine : Engine σ) (network : Network) : Prop :=
  engine.changes.recorded.capacity = network.vars.size

/-- All checks of the propagation of the space pass. -/
structure Network.Passes (network : Network) (engine : Engine σ) (space : Space) : Prop where
  agrees : Checked.Agrees network (engine.narrowing space)
    (network.fixpointChecked (valuesLeft space.domains + 2) space.changed)
    (network.fixpoint space.changed)
  listed : ∀ variableId ∈ space.unsolved, variableId < network.vars.size

/-- The propagation of the root passes, as all its domains are those of variables of the network. -/
theorem Network.passes_root (built : network.BuiltFor model) (room : engine.HasRoom network) :
    network.Passes engine (.root network) where
  agrees := by
    have size_eq : (Space.root network).domains.size = network.vars.size := Table.size_map _ _
    exact agrees_fixpointChecked_of_root built.coherent size_eq room (Nat.lt_succ_self _)
  listed variableId inside :=
    built.targeted_lt variableId ((lists_root network variableId).mp inside).1

/-- The propagation of a child passes: its domains are those of a frame, but for the divided one,
which keeps a value. -/
theorem Network.passes_child (built : network.BuiltFor model) (frame : network.Frame γ top)
    (branches : network.Branches γ top variableId part) (room : engine.HasRoom network) :
    network.Passes engine (top.child variableId part.domain) where
  agrees := by
    obtain ⟨nonempty, subset⟩ := frame.part_nonempty branches
    have inside : variableId < network.vars.size :=
      frame.quiet.size_eq ▸ Table.lt_size_of_nonempty (nonempty.of_subset subset)
    have size_eq : (top.child variableId part.domain).domains.size = network.vars.size :=
      (Table.size_set ..).trans frame.quiet.size_eq
    have childNonempty : ∀ other < network.vars.size,
        ((top.child variableId part.domain).domainOf other).Nonempty := by
      intro other early
      rw [frame.domainOf_child branches]
      split
      · exact nonempty
      · exact frame.quiet.nonempty other early
    exact @agrees_fixpointChecked_of_child network
      (engine.narrowing (top.child variableId part.domain)) built.coherent _ size_eq room
      (Nat.lt_succ_self _) variableId inside childNonempty
  listed other inside := built.targeted_lt other ((frame.lists other).mp inside).1

namespace Network.Passes

variable (passes : network.Passes engine space)

include passes

/-- Spaces that pass are propagated in the same way with the checks as without them. -/
theorem propagateChecked_eq :
    engine.propagateChecked network observer space =
      .ok (engine.propagate network observer space) := by
  have start := engine.narrowing_observeBefore observer space
  rw [Engine.propagateChecked, Engine.propagate]
  rcases before : engine.observeBefore observer space with ⟨reply, observed⟩
  rw [before] at start
  cases reply with
  | stop => rfl
  | fault fault => rfl
  | goOn =>
    dsimp only at start ⊢
    rw [start, passes.agrees.same]
    cases ran : network.fixpoint space.changed (engine.narrowing space) with
    | error variableId state =>
      obtain ⟨inside, _⟩ := passes.agrees.known variableId state ran
      obtain ⟨entry, found⟩ :=
        Option.isSome_iff_exists.mp ((network.vars.table.get?_isSome_iff variableId).mpr inside)
      have read : network.vars.table.get variableId = .ok entry := by rw [Table.get, found]; rfl
      have named : network.vars.nameOf variableId = entry.name := by
        rw [Directory.nameOf, Directory.get?, found]; rfl
      simp only [Checked.outcome]
      rw [lift_bind_of_passed read, named]
      rfl
    | ok _ state =>
      have readable := passes.agrees.readable _ state ran
      have inside : ∀ variableId ∈ ({ space with domains := state.domains } : Space).unsolved,
          variableId < ({ space with domains := state.domains } : Space).domains.size :=
        fun variableId listed => readable.size_eq ▸ passes.listed variableId listed
      simp only [Checked.outcome]
      rw [lift_bind_of_passed (Space.updateUnsolvedChecked_eq inside)]
      rcases (observed.resume state).observeAfter observer
        ({ space with domains := state.domains } : Space).updateUnsolved with
        ⟨reply, seen⟩
      cases reply <;> rfl

/-- Propagation leaves the room for changes as it is. -/
theorem hasRoom_propagate (room : engine.HasRoom network) (observer : Observer σ) :
    (engine.propagate network observer space).2.HasRoom network := by
  rw [Engine.HasRoom]
  rcases engine.changes_propagate network observer space with same | same
  · rw [same]
    exact room
  · rw [same, Narrow.after]
    cases ran : network.fixpoint space.changed (engine.narrowing space) with
    | ok _ state => exact (passes.agrees.readable _ state ran).room
    | error variableId state => exact (passes.agrees.known variableId state ran).2

end Network.Passes

/-- The child of a frame is made by replacing a domain that is there. -/
theorem Space.childChecked_eq (frame : network.Frame γ top)
    (branches : network.Branches γ top variableId part) :
    top.childChecked variableId part.domain = .ok (top.child variableId part.domain) := by
  obtain ⟨nonempty, subset⟩ := frame.part_nonempty branches
  have inside : variableId < top.domains.size :=
    Table.lt_size_of_nonempty (nonempty.of_subset subset)
  have replaced : top.domains.replace variableId part.domain =
      .ok (top.domains.set variableId part.domain) := if_pos inside
  have narrows : part.domain.values.all (· ∈ top.domainOf variableId) := by
    simp only [List.all_eq_true, decide_eq_true_eq]
    exact fun value member => subset value (Domain.mem_values.mp member)
  rw [childChecked, lift_bind_of_passed (Table.get_eq_ok inside ∅)]
  change (if part.domain.values.all (· ∈ top.domainOf variableId) then _ else _) = _
  rw [if_pos narrows, lift_bind_of_passed replaced]
  rfl

end Propagating

/-! ### Searching -/

/-- A deterministic strategy never draws, so nothing is asked of its weights. -/
theorem ValueStrategy.Deterministic.drawsBelow {strategy : ValueStrategy VariableId}
    (deterministic : strategy.Deterministic) (bound : Nat) : strategy.DrawsBelow bound := by
  induction strategy with
  | list values fallback inductionHypothesis => exact inductionHypothesis deterministic
  | markov matrix => cases deterministic
  | _ => trivial

/-- The strategies of a network draw values by weights whose guards exist. -/
theorem Network.BuiltFor.drawsBelow {network : Network} {model : Model}
    (built : network.BuiltFor model) (variableId : VariableId) :
    (network.strategyOf variableId).DrawsBelow network.vars.size := by
  by_cases weighted : network.isMarkov variableId
  · obtain ⟨matrix, isStrategy, inside⟩ := exists_mem_markovPropagators weighted
    rw [isStrategy]
    refine ⟨fun guard isGuard => Nat.lt_of_lt_of_le ?_ built.size_le, built.isWeighted _ _ inside⟩
    exact built.markov_lt _ inside guard (Propagator.mem_scope_markov.mpr (.inr isGuard))
  · exact (built.deterministic variableId (Bool.eq_false_iff.mpr weighted)).drawsBelow _

namespace Search

variable {γ σ : Type} [Generator γ] {network : Network} {model : Model} {observer : Observer σ}

/-! ### Room for changes -/

section Room

variable {top : Space} {variableId : VariableId} {part : SmallerPart top variableId}
  {verdict : Verdict} {engine final : Engine σ} {spent : Statistics → Statistics}

/-- Propagating a child leaves the room for changes as it is. -/
theorem hasRoom_of_child (built : network.BuiltFor model) (frame : network.Frame γ top)
    (branches : network.Branches γ top variableId part) (room : engine.HasRoom network)
    (propagated : (engine.tally spent).propagate network observer
      (top.child variableId part.domain) = (verdict, final)) :
    final.HasRoom network := by
  have tallied : (engine.tally spent).HasRoom network := room
  have after :=
    (Network.passes_child built frame branches tallied).hasRoom_propagate tallied observer
  rwa [propagated] at after

/-- A turn of the search leaves room for changes. -/
theorem Turn.hasRoom (built : network.BuiltFor model) {before after : Position σ}
    (turn : Turn γ network observer before after) (sound : before.Sound γ network)
    (room : before.engine.HasRoom network) : after.engine.HasRoom network := by
  cases turn with
  | leave unselected => exact room
  | giveUp selected undivided => exact room
  | reject branches propagated =>
    have after :=
      hasRoom_of_child built (List.forall_mem_cons.mp sound.frames).1 branches room propagated
    exact after
  | descend branches propagated unsolved =>
    have after :=
      hasRoom_of_child built (List.forall_mem_cons.mp sound.frames).1 branches room propagated
    exact after

/-- So does the end of a request. -/
theorem Ending.hasRoom (built : network.BuiltFor model) {last : Position σ}
    {result : Outcome × Search γ σ} (ending : Ending network observer last result)
    (sound : last.Sound γ network) (room : last.engine.HasRoom network) :
    result.2.engine.HasRoom network := by
  cases ending with
  | finished => exact room
  | aborted branches propagated =>
    exact hasRoom_of_child built (List.forall_mem_cons.mp sound.frames).1 branches room propagated
  | faulted branches propagated =>
    exact hasRoom_of_child built (List.forall_mem_cons.mp sound.frames).1 branches room propagated
  | solved branches propagated solved =>
    have after :=
      hasRoom_of_child built (List.forall_mem_cons.mp sound.frames).1 branches room propagated
    exact after

end Room

omit [Generator γ] in
/-- The first round propagates the root and goes on with what comes of it. -/
theorem startRound_eq (network : Network) (observer : Observer σ) (generator : γ)
    (engine : Engine σ) : startRound network observer generator engine = afterRoot generator
      ((engine.tally fun statistics =>
        { statistics with spaces := statistics.spaces + 1 }).propagate network observer
          (.root network)) := by
  rw [startRound]
  dsimp only
  rcases (engine.tally fun statistics =>
    { statistics with spaces := statistics.spaces + 1 }).propagate network observer (.root network)
      with ⟨verdict, final⟩
  cases verdict <;> rfl

omit [Generator γ] in
/-- A round on a child propagates it and goes on with what comes of it. -/
theorem childRound_eq (network : Network) (observer : Observer σ) (top : Space) (rest : List Space)
    (variableId : VariableId) (part : Part) (generator : γ) (engine : Engine σ) :
    childRound network observer top rest variableId part generator engine =
      afterChild (top.branched part.lastChosen :: rest) generator
        ((engine.tally fun statistics =>
          { statistics with spaces := statistics.spaces + 1 }).propagate network observer
            (top.child variableId part.domain)) := by
  rw [childRound]
  dsimp only
  rcases (engine.tally fun statistics =>
    { statistics with spaces := statistics.spaces + 1 }).propagate network observer
    (top.child variableId part.domain) with ⟨verdict, final⟩
  cases verdict <;> rfl

omit [Generator γ] in
/-- Whatever comes of the root, a search that goes on has room for changes. -/
theorem hasRoom_afterRoot {generator : γ} {verdict : Verdict} {final : Engine σ}
    (room : final.HasRoom network) :
    Leaves (·.engine.HasRoom network) (afterRoot generator (verdict, final)) := by
  cases verdict with
  | stable root =>
    rw [afterRoot]
    split <;> exact room
  | rejected => exact room
  | aborted => exact room
  | faulted fault => exact room

/-- Between any two rounds of any requests, there is room to note the changes of all variables. -/
theorem Visited.hasRoom (built : network.BuiltFor model) {search : Search γ σ}
    (visited : search.Visited network) : search.engine.HasRoom network := by
  refine @of_leaves _ _ _ _ (·.engine.HasRoom network)
    (fun _ _ _ => Array.size_replicate) ?_ _ visited
  intro search observer visited room
  have steady := visited.steady built
  obtain ⟨stack, phase, generator, engine⟩ := search
  cases phase with
  | notStarted =>
    rw [round]
    dsimp only
    rw [startRound_eq]
    have tallied : (engine.tally fun statistics =>
        { statistics with spaces := statistics.spaces + 1 }).HasRoom network := room
    exact hasRoom_afterRoot ((Network.passes_root built tallied).hasRoom_propagate tallied observer)
  | finished => exact room
  | aborted => exact room
  | exploring =>
    refine @leaves_exploreRound _ _ _ _ observer (·.engine.HasRoom network) _ _ _ steady ?_ ?_
    · exact fun after turn => turn.hasRoom built steady.sound room
    · exact fun result ending => ending.hasRoom built steady.sound room

/-! ### Rounds -/

/-- The first round passes all checks. -/
theorem roundChecked_eq_of_start (built : network.BuiltFor model) {stack : List Space}
    {generator : γ} {engine : Engine σ} (room : engine.HasRoom network) :
    roundChecked network observer { stack, phase := .notStarted, generator, engine } =
      .ok (startRound network observer generator engine) := by
  have tallied : (engine.tally fun statistics =>
      { statistics with spaces := statistics.spaces + 1 }).HasRoom network := room
  have size_eq : (network.vars.table.map Variable.domain).size = network.vars.size :=
    Table.size_map _ _
  have inside : ∀ variableId ∈ network.targeted,
      variableId < (network.vars.table.map Variable.domain).size :=
    fun variableId targeted => size_eq ▸ built.targeted_lt variableId targeted
  rw [roundChecked]
  dsimp only
  rw [lift_bind_of_passed (Space.updateUnsolvedChecked_eq inside), startRound_eq]
  change (Engine.propagateChecked _ network observer (.root network) >>= fun outcome =>
    return afterRoot generator outcome) = _
  rw [bind_of_passed (Network.passes_root built tallied).propagateChecked_eq]
  rfl

/-- A later round passes all checks on a frame that has been divided at most twice. -/
theorem roundChecked_eq_of_explore (built : network.BuiltFor model) {top : Space}
    {rest : List Space} {generator : γ} {engine : Engine σ} (frame : network.Frame γ top)
    (counted : top.branchCount ≤ 2) (room : engine.HasRoom network) :
    roundChecked network observer { stack := top :: rest, phase := .exploring, generator, engine } =
      .ok (exploreRound network observer (top :: rest) generator engine) := by
  have has : ∀ variableId ∈ top.unsolved, top.Has variableId := by
    intro variableId listed
    have inside := built.targeted_lt variableId ((frame.lists variableId).mp listed).1
    exact ⟨frame.quiet.size_eq ▸ inside, frame.quiet.nonempty variableId inside⟩
  obtain ⟨variableId, selected⟩ :=
    @VariableOrder.exists_select? network.order network top frame.unsolved
  have listed := VariableOrder.mem_unsolved_of_select? selected
  have unsolved := ((frame.lists variableId).mp listed).2
  have inside := (has variableId listed).1
  have draws : (network.strategyOf variableId).DrawsBelow top.domains.size :=
    frame.quiet.size_eq ▸ built.drawsBelow variableId
  rw [roundChecked, exploreRound_of_selected frame counted selected]
  dsimp only
  rw [lift_bind_of_passed (VariableOrder.selectChecked?_eq has), selected]
  dsimp only
  rw [lift_bind_of_passed (Table.get_eq_ok inside ∅)]
  change (if (top.domainOf variableId).isSolved then _ else _) = _
  rw [if_neg unsolved, bind_of_passed
    (ValueStrategy.divideChecked_eq _ inside draws counted generator)]
  cases divided : (network.strategyOf variableId).divide variableId top top.branchCount generator
    with
  | none => rfl
  | some branch =>
    obtain ⟨part, next⟩ := branch
    have smaller := frame.size_lt_of_divide selected divided
    have branches : network.Branches γ top variableId { part with smaller } :=
      ⟨selected, generator, next, ValueStrategy.divide?_of_divide divided smaller⟩
    have tallied : (engine.tally fun statistics =>
        { statistics with spaces := statistics.spaces + 1 }).HasRoom network := room
    dsimp only
    rw [bind_of_passed (Space.childChecked_eq frame branches), childRound_eq,
      bind_of_passed (Network.passes_child built frame branches tallied).propagateChecked_eq]
    rfl

/-- No check of a round fails. -/
theorem roundChecked_eq (built : network.BuiltFor model) {search : Search γ σ}
    (steady : search.Steady network) (room : search.engine.HasRoom network)
    (observer : Observer σ) :
    search.roundChecked network observer = .ok (search.round network observer) := by
  obtain ⟨stack, phase, generator, engine⟩ := search
  cases phase with
  | finished => rfl
  | aborted => rfl
  | notStarted => exact roundChecked_eq_of_start built room
  | exploring =>
    cases stack with
    | nil => rfl
    | cons top rest =>
      exact roundChecked_eq_of_explore built (List.forall_mem_cons.mp steady.sound.frames).1
        (List.forall_mem_cons.mp steady.counted).1 room

end Search

/-- **The layers of a search.** Between any two rounds of any requests to a search of a prepared
model, whatever observers look at it, the spaces on its stack have values for all variables and list
the targeted ones that are not fixed, in order; at most two children of each were requested, and
from the first on it remembers by which value it was divided. Each space was made from the one below
it. The next round reads nothing that is not there and passes all its other checks, and requests
consist of such rounds. -/
theorem Workspace.Reachable.layers_of_visited {workspace : Workspace} {network : Network}
    (reachable : workspace.Reachable) (prepared : workspace.model.network = some network)
    {γ σ : Type} [Generator γ] {search : Search γ σ} (visited : search.Visited network) :
    (∀ space ∈ search.stack,
      (space.domains.size = network.vars.size ∧ ∀ variableId < network.vars.size,
        (space.domainOf variableId).Nonempty) ∧
      (space.unsolved ≠ [] ∧
        space.unsolved = network.targeted.filter fun variableId =>
          !(space.domainOf variableId).isSolved) ∧
      space.branchCount ≤ 2 ∧ (1 ≤ space.branchCount → space.lastChosen.isSome)) ∧
    search.stack.IsChain Space.Refines ∧
    ∀ observer : Observer σ,
      (search.roundChecked network observer = .ok (search.round network observer) ∧
        search.round network observer ≠ .stuck) ∧
      Round.result? (Search.round network observer) (search.limit network + 1) search =
        some (search.next network observer) ∧
      (search.next network observer).2.Visited network := by
  have built := reachable.builtFor prepared
  have steady := visited.steady built
  have layered := visited.layered built
  refine ⟨fun space inside => ?_, layered.refines, fun observer => ?_⟩
  · have frame := steady.sound.frames space inside
    have unsolved : space.unsolved ≠ [] :=
      mt Space.isSolved_iff.mpr (Bool.eq_false_iff.mp frame.unsolved)
    exact ⟨⟨frame.quiet.size_eq, frame.quiet.nonempty⟩, ⟨unsolved, layered.listed space inside⟩,
      steady.counted space inside, fun branched =>
        layered.remembers space inside (Nat.one_le_iff_ne_zero.mp branched)⟩
  · have ends := (@Search.result?_round _ _ _ _ observer _ built _ steady).1
    refine ⟨⟨Search.roundChecked_eq built steady (visited.hasRoom built) observer, fun stuck => ?_⟩,
      ends, Search.visited_of_result? visited ends⟩
    rw [Round.result?, stuck] at ends
    cases ends

/-- After the first solution of the variables in order there are two layers, each of which was
divided once. -/
theorem Workspace.layers_of_visited_inOrder :
    ∃ (network : Network) (search : Search Script Unit) (upper lower : Space),
      inOrder.model.network = some network ∧ search.Visited network ∧
        search.stack = [upper, lower] ∧
      (upper.unsolved = [1] ∧ upper.lastChosen = some 1) ∧
        (lower.unsolved = [0, 1] ∧ lower.lastChosen = some 0) ∧
      upper.Refines lower ∧ search.roundChecked network .silent =
        .ok (search.round network .silent) := by
  have layers :
      (((Search.initial (inOrder.model.network.get isPrepared_inOrder) (⟨#[], 0⟩ : Script) ()
        {}).next (inOrder.model.network.get isPrepared_inOrder) .silent).2.stack.map fun space =>
          (space.unsolved, space.lastChosen)) = [([1], some 1), ([0, 1], some 0)] := by
    decide +kernel
  have prepared : inOrder.model.network = some (inOrder.model.network.get isPrepared_inOrder) :=
    Option.eq_some_of_isSome _
  generalize inOrder.model.network.get isPrepared_inOrder = network at layers prepared
  have reachable : inOrder.Reachable := reachable_ofRequests _
  have initial : (Search.initial network (⟨#[], 0⟩ : Script) () {}).Visited network :=
    .initial _ () {}
  have visited := ((reachable.layers_of_visited prepared initial).2.2 .silent).2.2
  obtain ⟨_, refines, checked⟩ := reachable.layers_of_visited prepared visited
  generalize (Search.initial network (⟨#[], 0⟩ : Script) () {}).next network .silent = first
    at layers visited refines checked
  obtain ⟨outcome, search⟩ := first
  obtain ⟨upper, rest, stacked, upperIs, restIs⟩ := List.map_eq_cons_iff.mp layers
  obtain ⟨lower, below, rfl, lowerIs, noneIs⟩ := List.map_eq_cons_iff.mp restIs
  obtain rfl := List.map_eq_nil_iff.mp noneIs
  rw [stacked] at refines
  simp only [Prod.mk.injEq] at upperIs lowerIs
  exact ⟨network, search, upper, lower, prepared, visited, stacked, upperIs, lowerIs,
    (List.isChain_cons_cons.mp refines).1, (checked .silent).1.1⟩

end ConstraintSearch
