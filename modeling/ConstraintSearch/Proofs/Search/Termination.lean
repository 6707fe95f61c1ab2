import ConstraintSearch.Proofs.Search.Rounds

/-!
# Every search ends

Propagators only shrink domains, and every child of a space has fewer values than its parent. So the
rounds of a request make the stack of the search lighter, whatever the strategies draw and the
observer answers, and what is left after a request bounds all requests to come.
`Workspace.Reachable.search_ends` puts this together for the loops of propagation, of a request, and
of a solver which collects solutions.
-/

namespace ConstraintSearch

/-- Fewer values leave no more children. -/
theorem childBound_le {fewer values : Nat} (le : fewer ≤ values) :
    childBound fewer ≤ childBound values := by
  rcases Nat.lt_or_eq_of_le le with less | rfl
  · have := childBound_lt less
    omega
  · exact Nat.le_refl _

/-- Propagation does not make a space heavier. -/
theorem Space.weight_le_of_stable {σ : Type} {engine final : Engine σ} {network : Network}
    {observer : Observer σ} {space settled : Space}
    (stable : engine.propagate network observer space = (.stable settled, final)) :
    settled.weight ≤ space.weight := by
  obtain ⟨sameCount, fewer⟩ := Engine.propagate_stable stable
  rw [weight, weight, sameCount]
  exact Nat.succ_le_succ (Nat.mul_le_mul_left _ (childBound_le fewer))

/-- The part which a frame takes for its next child is smaller than the domain of the selected
variable. -/
theorem Network.Frame.size_lt_of_divide {γ : Type} [Generator γ] {network : Network} {top : Space}
    (frame : network.Frame γ top) {variableId : VariableId}
    (selected : network.order.select? network top = some variableId) {part : Part}
    {generator next : γ}
    (divided : (network.strategyOf variableId).divide variableId top top.branchCount generator =
      some (part, next)) : part.domain.size < (top.domainOf variableId).size := by
  by_cases unbranched : top.branchCount = 0
  · rw [unbranched] at divided
    obtain ⟨rest, split, _⟩ := ValueStrategy.givesRest_of_divide divided
    exact split.first_size_lt
  by_cases once : top.branchCount = 1
  · obtain ⟨other, first, sameSelected, givesRest, chosen⟩ := frame.resumed once
    cases selected.symm.trans sameSelected
    obtain ⟨rest, split, gives⟩ := givesRest
    rw [once, gives top generator rfl chosen] at divided
    cases divided
    exact split.second_size_lt
  · rw [ValueStrategy.divide_of_two_le _ _ _ _ (by omega)] at divided
    cases divided

namespace Search

variable {γ σ : Type} [Generator γ] {network : Network} {observer : Observer σ} {model : Model}

/-- The stack holds frames from which at most two children were requested. -/
structure Steady (network : Network) (search : Search γ σ) : Prop where
  sound : search.position.Sound γ network
  counted : ∀ space ∈ search.stack, space.branchCount ≤ 2

/-- What a request may be answered by: what `next` gives, after which there is less to come, unless
the end was reached. -/
structure Served (network : Network) (observer : Observer σ) (search : Search γ σ)
    (result : Outcome × Search γ σ) : Prop where
  eq_next : result = search.next network observer
  steady : result.2.Steady network
  progress :
    match result.1 with
    | .solved _ => result.2.limit network < search.limit network
    | .faulted _ => result.2.limit network < search.limit network ∧ observer.Faults
    | .finished => result.2.phase = .finished
    | .aborted => result.2.phase = .aborted

/-- What serves a search after a round serves it before, with that round. -/
theorem Served.back {former search : Search γ σ} {result : Outcome × Search γ σ}
    (served : search.Served network observer result)
    (same : search.next network observer = former.next network observer)
    (lower : search.limit network < former.limit network) :
    former.Served network observer result where
  eq_next := served.eq_next.trans same
  steady := served.steady
  progress := by
    have progress := served.progress
    split at progress
    · exact Nat.lt_trans progress lower
    · exact ⟨Nat.lt_trans progress.1 lower, progress.2⟩
    · exact progress
    · exact progress

/-- However often the top is branched on, two children are counted at most. -/
theorem counted_branched {top : Space} {rest : List Space} (lastChosen : Option Int)
    (counted : ∀ space ∈ top :: rest, space.branchCount ≤ 2) :
    ∀ space ∈ top.branched lastChosen :: rest, space.branchCount ≤ 2 :=
  List.forall_mem_cons.mpr ⟨Nat.min_le_right _ _, (List.forall_mem_cons.mp counted).2⟩

section Frames

variable {top : Space} {rest : List Space} {variableId : VariableId} {generator : γ}
  {engine : Engine σ} (frame : network.Frame γ top) (counted : top.branchCount ≤ 2)
  (selected : network.order.select? network top = some variableId)

include frame counted selected

/-- Neither assertion of a round fails for a frame. -/
theorem exploreRound_of_selected :
    exploreRound network observer (top :: rest) generator engine =
      match (network.strategyOf variableId).divide variableId top top.branchCount generator with
      | none => .again { stack := rest, phase := .exploring, generator, engine }
      | some (part, generator) =>
        childRound network observer top rest variableId part generator engine := by
  have unsolved := ((frame.lists variableId).mp (VariableOrder.mem_unsolved_of_select? selected)).2
  have asserted : ((top.domainOf variableId).isSolved || decide (2 < top.branchCount)) = false := by
    simp only [Bool.or_eq_false_iff, decide_eq_false_iff_not, Bool.not_eq_true] at unsolved ⊢
    exact ⟨unsolved, Nat.not_lt.mpr counted⟩
  rw [exploreRound]
  simp only [selected, asserted]
  rfl

/-- No part that a frame gives would have to be given up because it is not smaller. -/
theorem exploreRound_of_undivided
    (undivided : (network.strategyOf variableId).divide? variableId top top.branchCount
      generator = none) :
    exploreRound network observer (top :: rest) generator engine =
      .again { stack := rest, phase := .exploring, generator, engine } := by
  have wholly : (network.strategyOf variableId).divide variableId top top.branchCount generator =
      none := by
    refine Option.eq_none_iff_forall_ne_some.mpr fun ⟨part, next⟩ divided => ?_
    rw [ValueStrategy.divide?_of_divide divided (frame.size_lt_of_divide selected divided)]
      at undivided
    cases undivided
  rw [exploreRound_of_selected frame counted selected, wholly]

/-- A round that divides the selected variable goes on with the child. -/
theorem exploreRound_of_divided {part : SmallerPart top variableId} {next : γ}
    (divided : (network.strategyOf variableId).divide? variableId top top.branchCount generator =
      some (part, next)) :
    exploreRound network observer (top :: rest) generator engine =
      childRound network observer top rest variableId part.toPart next engine := by
  rw [exploreRound_of_selected frame counted selected, ValueStrategy.divide_of_divide? divided]

end Frames

/-- The space on top of a steady stack is a frame from which at most two children were requested. -/
theorem Steady.top {top : Space} {rest : List Space} {phase : Phase} {generator : γ}
    {engine : Engine σ}
    (steady : Steady network
      ({ stack := top :: rest, phase, generator, engine } : Search γ σ)) :
    network.Frame γ top ∧ top.branchCount ≤ 2 :=
  ⟨(List.forall_mem_cons.mp steady.sound.frames).1, (List.forall_mem_cons.mp steady.counted).1⟩

/-- A round on a steady stack ends the request as `next` does, or leaves a lighter steady stack from
which the request is answered in the same way. -/
theorem descends_exploreRound (built : network.BuiltFor model) {stack : List Space} {generator : γ}
    {engine : Engine σ}
    (steady : Steady network ({ stack, phase := .exploring, generator, engine } : Search γ σ)) :
    (exploreRound network observer stack generator engine).Descends (Steady network)
      (limit network) (Served network observer)
      { stack, phase := .exploring, generator, engine } := by
  have answers : Answers network (explore network observer stack generator engine) :=
    answers_explore built steady.sound
  have explored := explores network observer stack generator engine
  -- What the request comes to is what `next` gives, by definition.
  have isNext : explore network observer stack generator engine =
    Search.next ({ stack, phase := .exploring, generator, engine } : Search γ σ) network observer :=
    rfl
  generalize explore network observer stack generator engine = result at explored isNext answers
  have sound := steady.sound
  have counted := steady.counted
  cases explored with
  | finished => exact ⟨isNext, ⟨answers.sound, counted⟩, rfl⟩
  | @leave top rest generator engine result unselected later =>
    have turn : Turn γ network observer ⟨top :: rest, engine⟩ ⟨rest, engine⟩ := .leave unselected
    rw [exploreRound]
    simp only [unselected]
    exact ⟨⟨turn.sound built sound, (List.forall_mem_cons.mp counted).2⟩, turn.weight_lt,
      fun _ served => served.back (later.eq.trans isNext) turn.weight_lt⟩
  | @giveUp top rest variableId generator engine result selected undivided later =>
    have turn : Turn γ network observer ⟨top :: rest, engine⟩ ⟨rest, engine⟩ :=
      .giveUp selected undivided
    rw [exploreRound_of_undivided steady.top.1 steady.top.2 selected undivided]
    exact ⟨⟨turn.sound built sound, (List.forall_mem_cons.mp counted).2⟩, turn.weight_lt,
      fun _ served => served.back (later.eq.trans isNext) turn.weight_lt⟩
  | @reject top rest variableId part generator next engine final result selected divided propagated
      later =>
    have turn : Turn γ network observer ⟨top :: rest, engine⟩
        ⟨top.branched part.lastChosen :: rest, final.countRejected⟩ :=
      .reject ⟨selected, _, _, divided⟩ propagated
    rw [exploreRound_of_divided steady.top.1 steady.top.2 selected divided, childRound]
    simp only [propagated]
    exact ⟨⟨turn.sound built sound, counted_branched _ counted⟩, turn.weight_lt,
      fun _ served => served.back (later.eq.trans isNext) turn.weight_lt⟩
  | abort selected divided propagated =>
    rw [exploreRound_of_divided steady.top.1 steady.top.2 selected divided, childRound]
    simp only [propagated]
    exact ⟨isNext, ⟨answers.sound, counted_branched _ counted⟩, rfl⟩
  | @fault top rest variableId part generator next engine final reason selected divided
      propagated =>
        have branches : network.Branches γ top variableId part := ⟨selected, _, _, divided⟩
        have lighter := Space.weight_branched_lt part.lastChosen branches.branchCount_lt_two
        rw [exploreRound_of_divided steady.top.1 steady.top.2 selected divided, childRound]
        simp only [propagated]
        refine ⟨isNext, ⟨answers.sound, counted_branched _ counted⟩, ?_,
          Engine.faults_of_faulted propagated⟩
        simp only [limit, stackWeight, total_cons]
        omega
  | @solve top child rest variableId part generator next engine final selected divided propagated
      solved =>
    have branches : network.Branches γ top variableId part := ⟨selected, _, _, divided⟩
    have lighter := Space.weight_branched_lt part.lastChosen branches.branchCount_lt_two
    rw [exploreRound_of_divided steady.top.1 steady.top.2 selected divided, childRound]
    simp only [propagated, solved, if_true]
    refine ⟨isNext, ⟨answers.sound, counted_branched _ counted⟩, ?_⟩
    simp only [limit, stackWeight, total_cons]
    omega
  | @descend top child rest variableId part generator next engine final result selected divided
      propagated unsolved later =>
    have turn : Turn γ network observer ⟨top :: rest, engine⟩
        ⟨child :: top.branched part.lastChosen :: rest, final.tally fun statistics =>
          { statistics with peakDepth := max statistics.peakDepth child.depth }⟩ :=
      .descend ⟨selected, _, _, divided⟩ propagated unsolved
    have unbranched : child.branchCount ≤ 2 := by
      rw [(Engine.propagate_stable propagated).1]
      exact Nat.zero_le _
    rw [exploreRound_of_divided steady.top.1 steady.top.2 selected divided, childRound]
    simp only [propagated, unsolved]
    exact ⟨⟨turn.sound built sound,
        List.forall_mem_cons.mpr ⟨unbranched, counted_branched _ counted⟩⟩,
      turn.weight_lt, fun _ served => served.back (later.eq.trans isNext) turn.weight_lt⟩

/-- The round in which the root is propagated ends the request as `next` does, or leaves the root to
be explored, from which the request is answered in the same way. -/
theorem descends_startRound (built : network.BuiltFor model) {generator : γ} {engine : Engine σ}
    {stack : List Space} (sound : Position.Sound γ network ⟨stack, engine⟩) :
    (startRound network observer generator engine).Descends (Steady network) (limit network)
      (Served network observer) { stack, phase := .notStarted, generator, engine } := by
  have answers : Answers network (start network observer generator engine) :=
    answers_start built sound.faithful
  have started := starts network observer generator engine
  have isNext : start network observer generator engine =
    Search.next ({ stack, phase := .notStarted, generator, engine } : Search γ σ) network
      observer := rfl
  generalize start network observer generator engine = result at started isNext answers
  cases started with
  | reject propagated =>
    simp only [startRound, propagated]
    exact ⟨isNext, ⟨answers.sound, by simp⟩, rfl⟩
  | abort propagated =>
    simp only [startRound, propagated]
    exact ⟨isNext, ⟨answers.sound, by simp⟩, rfl⟩
  | fault propagated =>
    simp only [startRound, propagated]
    exact ⟨isNext, ⟨answers.sound, by simp⟩, Nat.succ_pos _, Engine.faults_of_faulted propagated⟩
  | solve propagated solved =>
    simp only [startRound, propagated, solved, if_true]
    exact ⟨isNext, ⟨answers.sound, by simp⟩, Nat.succ_pos _⟩
  | @explore root final result propagated unsolved later =>
    have faithful : final.changes.Faithful :=
      Engine.faithful_of_propagate propagated sound.faithful
    have frame : network.Frame γ root := .root built propagated sound.faithful unsolved
    have unbranched : root.branchCount ≤ 2 := by
      rw [(Engine.propagate_stable propagated).1]
      exact Nat.zero_le _
    have lighter : stackWeight [root] < (Space.root network).weight + 1 :=
      Nat.lt_succ_of_le (Space.weight_le_of_stable propagated)
    simp only [startRound, propagated, unsolved]
    exact ⟨⟨⟨faithful, List.forall_mem_singleton.mpr frame⟩,
        List.forall_mem_singleton.mpr unbranched⟩,
      lighter, fun _ served => served.back (later.eq.trans isNext) lighter⟩

/-- Every round of a request is one of many that become fewer. -/
theorem descends_round (built : network.BuiltFor model) (search : Search γ σ)
    (steady : search.Steady network) :
    (search.round network observer).Descends (Steady network) (limit network)
      (Served network observer) search := by
  obtain ⟨stack, phase, generator, engine⟩ := search
  cases phase with
  | notStarted => exact descends_startRound built steady.sound
  | exploring => exact descends_exploreRound built steady
  | finished => exact ⟨rfl, steady, rfl⟩
  | aborted => exact ⟨rfl, steady, rfl⟩

/-- A request ends within a bounded number of rounds, no assertion of which fails, and is answered
as `next` says. -/
theorem result?_round (built : network.BuiltFor model) {search : Search γ σ}
    (steady : search.Steady network) :
    Round.result? (round network observer) (search.limit network + 1) search =
      some (search.next network observer) ∧
        search.Served network observer (search.next network observer) := by
  obtain ⟨result, ended, served⟩ :=
    Round.exists_result? (descends_round built) search steady (Nat.lt_succ_self _)
  rw [← served.eq_next]
  exact ⟨ended, served⟩

/-- Every reached search is steady. -/
theorem Reached.steady (built : network.BuiltFor model) {search : Search γ σ}
    (reached : search.Reached network) : search.Steady network := by
  induction reached with
  | initial generator observed journal =>
    exact ⟨(Reached.initial generator observed journal).sound built, by simp [Search.initial]⟩
  | next reached observer inductionHypothesis =>
    exact (result?_round built inductionHypothesis).2.steady

/-- The search after a number of requests. -/
def after (network : Network) (observer : Observer σ) : (requests : Nat) → Search γ σ → Search γ σ
  | 0, search => search
  | requests + 1, search => after network observer requests (search.next network observer).2

/-- Once as many requests were made as the limit says, all further ones come to the end of the
search. -/
theorem ended_of_limit_le (built : network.BuiltFor model) {search : Search γ σ}
    (steady : search.Steady network) {requests : Nat} (enough : search.limit network ≤ requests) :
    ((search.after network observer requests).next network observer).1 = .finished ∨
      ((search.after network observer requests).next network observer).1 = .aborted := by
  have served := (@result?_round _ _ _ _ observer _ built _ steady).2
  have progress := served.progress
  induction requests generalizing search with
  | zero =>
    change (search.next network observer).1 = _ ∨ (search.next network observer).1 = _
    split at progress
    · omega
    · omega
    · rename_i outcome
      exact .inl outcome
    · rename_i outcome
      exact .inr outcome
  | succ requests inductionHypothesis =>
    have fewer : (search.next network observer).2.limit network ≤ requests := by
      split at progress
      · omega
      · omega
      · simp [limit, progress]
      · simp [limit, progress]
    have later := (@result?_round _ _ _ _ observer _ built _ served.steady).2
    exact inductionHypothesis served.steady fewer later later.progress

end Search

/-- Collecting solutions ends before as many were found as the limit of the search says. -/
theorem Solver.collects {γ σ : Type} [Generator γ] {model : Model} {solver : Solver γ σ}
    (built : solver.network.BuiltFor model) (steady : solver.search.Steady solver.network)
    (collected : List Solution) (limit : Nat) :
    (∃ fault, (solver.collect collected limit).1 = .error fault ∧ solver.observer.Faults) ∨
      ∃ collection, (solver.collect collected limit).1 = .ok collection ∧
        collection.solutions.length ≤ collected.length + solver.search.limit solver.network ∧
          (solver.search.limit solver.network < limit → collection.status ≠ .limitReached) := by
  induction limit generalizing solver collected with
  | zero => exact .inr ⟨_, rfl, by simp, fun impossible => absurd impossible (Nat.not_lt_zero _)⟩
  | succ limit inductionHypothesis =>
    obtain ⟨_, served⟩ := @Search.result?_round _ _ _ _ solver.observer _ built _ steady
    have progress := served.progress
    rw [collect, next]
    cases answered : solver.search.next solver.network solver.observer with
    | mk outcome search =>
      rw [answered] at progress served
      cases outcome with
      | solved space =>
        have fewer : search.limit solver.network < solver.search.limit solver.network := progress
        have later := @inductionHypothesis { solver with search } built served.steady
          (Solution.ofSpace solver.network space :: collected)
        refine later.imp id ?_
        rintro ⟨collection, collects, few, ended⟩
        have few : collection.solutions.length ≤ collected.length + 1 +
            search.limit solver.network := few
        refine ⟨collection, collects, by omega, fun enough => ended ?_⟩
        exact Nat.lt_of_lt_of_le fewer (Nat.le_of_lt_succ enough)
      | finished => exact .inr ⟨_, rfl, by simp, fun _ => by simp⟩
      | aborted => exact .inr ⟨_, rfl, by simp, fun _ => by simp⟩
      | faulted fault => exact .inl ⟨fault, rfl, progress.2⟩

/-- Noting how many solutions there are does not change them. -/
theorem Solver.solve_fst {γ σ : Type} [Generator γ] (solver : Solver γ σ) (limit : Nat) :
    (solver.solve limit).1 = (solver.collect [] limit).1 := by
  rw [solve]
  cases solver.collect [] limit with
  | mk result later => cases result <;> rfl

/-- **Termination.** Propagators only shrink domains, and the part of a domain that a child takes is
smaller than the domain. From every state the cycles of propagation come to an end. Every request to
a search of a prepared model ends within a bounded number of rounds, and only boundedly many
requests find a solution: all later ones come to the end of the search. So a solver that collects
solutions without a tight limit collects all of them, unless its observer cannot tell whether to
stop. -/
theorem Workspace.Reachable.search_ends {workspace : Workspace} (reachable : workspace.Reachable)
    {γ σ : Type} [Generator γ] {solver : Solver γ σ}
    (prepared : workspace.model.network = some solver.network)
    (reached : solver.search.Reached solver.network) :
    (∀ (propagator : Propagator) (state : Narrowing),
      Within (familyOf (Narrow.after propagator.run state).domains) (familyOf state.domains)) ∧
    (∀ top ∈ solver.search.stack, ∀ (variableId : VariableId) (part : Part) (generator next : γ),
      solver.network.order.select? solver.network top = some variableId →
      (solver.network.strategyOf variableId).divide variableId top top.branchCount generator =
        some (part, next) → part.domain ⊆ top.domainOf variableId ∧
          part.domain.size < (top.domainOf variableId).size) ∧
    (∀ threshold cycle state, Round.result? solver.network.cycle (state.potential + 1)
      ⟨threshold, cycle, state⟩ = some (solver.network.settle threshold cycle state)) ∧
    Round.result? (Search.round solver.network solver.observer)
      (solver.search.limit solver.network + 1) solver.search =
        some (solver.search.next solver.network solver.observer) ∧
    (∀ requests ≥ solver.search.limit solver.network,
      ((solver.search.after solver.network solver.observer requests).next solver.network
        solver.observer).1 = .finished ∨
          ((solver.search.after solver.network solver.observer requests).next solver.network
            solver.observer).1 = .aborted) ∧
    ∀ limit, (∃ fault, (solver.solve limit).1 = .error fault ∧ solver.observer.Faults) ∨
      ∃ collection, (solver.solve limit).1 = .ok collection ∧
        collection.solutions.length ≤ solver.search.limit solver.network ∧
          (solver.search.limit solver.network < limit → collection.status ≠ .limitReached) := by
  have built := reachable.builtFor prepared
  have steady := reached.steady built
  refine ⟨fun propagator => Propagator.follows_run trend_within propagator, ?_,
    solver.network.result?_cycle, (Search.result?_round built steady).1, fun requests =>
      Search.ended_of_limit_le built steady, fun limit => ?_⟩
  · intro top inside variableId part generator next selected divided
    have frame := steady.sound.frames top inside
    have smaller := frame.size_lt_of_divide selected divided
    have branches : solver.network.Branches γ top variableId { part with smaller } :=
      ⟨selected, generator, next, ValueStrategy.divide?_of_divide divided smaller⟩
    exact ⟨(frame.part_nonempty branches).2, smaller⟩
  · have collects := solver.collects built steady [] limit
    rwa [List.length_nil, Nat.zero_add, ← solver.solve_fst] at collects

/-- A solver without an observer collects all solutions of a model in which one variable comes
before another. -/
theorem Workspace.search_ends_inOrder :
    ∃ solver : Solver Script Unit, inOrder.model.network = some solver.network ∧
      solver.search.Reached solver.network ∧ ∃ collection,
        (solver.solve (solver.search.limit solver.network + 1)).1 = .ok collection ∧
          collection.status ≠ .limitReached := by
  have prepared : inOrder.model.network = some (inOrder.model.network.get isPrepared_inOrder) :=
    Option.eq_some_of_isSome _
  generalize inOrder.model.network.get isPrepared_inOrder = network at prepared
  have reached : (Search.initial network (⟨#[], 0⟩ : Script) () {}).Reached network :=
    .initial _ () {}
  refine ⟨⟨inOrder.model, network, .silent, .initial network ⟨#[], 0⟩ () {}⟩, prepared, reached, ?_⟩
  obtain ⟨_, _, _, _, _, collects⟩ :=
    @Reachable.search_ends inOrder (reachable_ofRequests _) Script Unit _
      ⟨inOrder.model, network, .silent, .initial network ⟨#[], 0⟩ () {}⟩ prepared reached
  rcases collects (Search.limit network (.initial network (⟨#[], 0⟩ : Script) () {}) + 1) with
    ⟨_, _, _, _, _, faults | faults⟩ | ⟨collection, collected, _, ended⟩
  · cases faults
  · cases faults
  · exact ⟨collection, collected, ended (Nat.lt_succ_self _)⟩

end ConstraintSearch
