import ConstraintSearch.Proofs.Search.Observed
import Mathlib.Algebra.GroupWithZero.Nat

/-!
# The census of the search tree

The tree of a search without an observer is read off its rounds: a frame is on the stack from the
round that makes it to the round that leaves it for good, and each round in between gives the frame
on top one child. All spaces but the root are children, and all spaces are rejected, solutions or
frames. So the counters of the search are tied to each other, up to the frames which were left
without a child because nothing could be drawn for a selected variable.
-/

namespace ConstraintSearch

/-- The state in which a round leaves a loop, if no assertion failed. -/
def Round.later? {State Result : Type} : Round State (Result × State) → Option State
  | again later => some later
  | done (_, later) => some later
  | stuck => none

/-- How many children were made of the frames on the stack, the top first, and of those that were
left for good. -/
structure Census where
  present : List Nat := []
  departed : List Nat := []

/-- The census after a round with the given heights of the stack before and after. The round either
leaves the frame on top or gives it a child, which is the new top if the stack has become higher.
The root is no child of any frame. -/
def Census.update (census : Census) (before after : Nat) : Census :=
  match census.present with
  | [] => { census with present := List.replicate after 0 }
  | children :: rest =>
    if after < before then { present := rest, departed := children :: census.departed }
    else { census with present := List.replicate (after - before) 0 ++ (children + 1) :: rest }

/-- The counters and the census agree: every space is rejected, a solution or a frame, and all but
the root are children. A frame is left after two children, or without one. -/
structure Census.Balances {γ : Type} (census : Census) (network : Network)
    (search : Search γ Unit) : Prop where
  present : census.present = search.stack.map Space.branchCount
  spaces_eq : search.engine.statistics.spaces =
    search.engine.statistics.rejected + search.engine.statistics.solutions + census.present.length +
      census.departed.length
  children_eq : search.engine.statistics.spaces =
    (if search.phase = .notStarted then 0 else 1) + census.present.sum + census.departed.sum
  departed : ∀ children ∈ census.departed, children = 0 ∨ children = 2
  branching : (∀ variableId, network.isMarkov variableId = false) → 0 ∉ census.departed
  resting : search.phase = .notStarted ∨ search.phase = .finished → search.stack = []
  unstopped : search.phase ≠ .aborted

namespace Census

variable {γ : Type} {network : Network} {former later : Search γ Unit} {census : Census}
  {top : Space} {rest : List Space}

/-- If every number is 0 or 2, then the sum falls short of twice the length by 2 for each 0. -/
theorem sum_add_two_mul_count_zero {counts : List Nat}
    (even : ∀ count ∈ counts, count = 0 ∨ count = 2) :
    counts.sum + 2 * counts.count 0 = 2 * counts.length := by
  induction counts with
  | nil => rfl
  | cons count rest inductionHypothesis =>
    obtain ⟨first, others⟩ := List.forall_mem_cons.mp even
    have := inductionHypothesis others
    rcases first with rfl | rfl
    · rw [List.sum_cons, List.count_cons_self, List.length_cons]
      omega
    · rw [List.sum_cons, List.count_cons_of_ne (by decide), List.length_cons]
      omega

/-- Nothing has been counted initially. -/
theorem balances_initial (network : Network) (generator : γ) (journal : Journal) :
    ({} : Census).Balances network (.initial network generator () journal) where
  present := rfl
  spaces_eq := rfl
  children_eq := rfl
  departed := by simp
  branching := by simp
  resting _ := rfl
  unstopped := by simp [Search.initial]

/-- The frame on top is left. -/
theorem Balances.leave (balances : census.Balances network former)
    (stack : former.stack = top :: rest) (count : top.branchCount = 0 ∨ top.branchCount = 2)
    (branching : (∀ variableId, network.isMarkov variableId = false) → top.branchCount ≠ 0)
    (laterStack : later.stack = rest) (phase : former.phase = .exploring)
    (laterPhase : later.phase = .exploring)
    (statistics : later.engine.statistics = former.engine.statistics) :
    (census.update former.stack.length later.stack.length).Balances network later := by
  have present := balances.present
  have spaces_eq := balances.spaces_eq
  have children_eq := balances.children_eq
  rw [stack, List.map_cons] at present
  have updated : census.update former.stack.length later.stack.length =
      { present := rest.map Space.branchCount,
        departed := top.branchCount :: census.departed } := by
    simp [Census.update, present, stack, laterStack]
  rw [updated]
  simp only [present, phase, List.length_cons, List.sum_cons, reduceCtorEq, if_false]
    at spaces_eq children_eq
  exact
    { present := by rw [laterStack]
      spaces_eq := by
        simp only [statistics, List.length_cons]
        omega
      children_eq := by
        simp only [statistics, laterPhase, List.sum_cons, reduceCtorEq, if_false]
        omega
      departed := List.forall_mem_cons.mpr ⟨count, balances.departed⟩
      branching := fun unweighted inside => by
        rcases List.mem_cons.mp inside with same | inside
        · exact branching unweighted same.symm
        · exact balances.branching unweighted inside
      resting := by simp [laterPhase]
      unstopped := by simp [laterPhase] }

/-- The frame on top is given a child, which is counted as rejected or as a solution or else becomes
the new top. -/
theorem Balances.bear (balances : census.Balances network former)
    (stack : former.stack = top :: rest) (unfinished : top.branchCount < 2)
    {lastChosen : Option Int} {frames : List Space}
    (unbranched : frames.map Space.branchCount = List.replicate frames.length 0)
    (laterStack : later.stack = frames ++ top.branched lastChosen :: rest)
    (phase : former.phase = .exploring) (laterPhase : later.phase = .exploring)
    (spaces : later.engine.statistics.spaces = former.engine.statistics.spaces + 1)
    (leaves : later.engine.statistics.rejected + later.engine.statistics.solutions + frames.length =
      former.engine.statistics.rejected + former.engine.statistics.solutions + 1) :
    (census.update former.stack.length later.stack.length).Balances network later := by
  have present := balances.present
  have spaces_eq := balances.spaces_eq
  have children_eq := balances.children_eq
  rw [stack, List.map_cons] at present
  -- The stack has not become lower, so the census counts one more child of the old top and none of
  -- the new frames.
  have updated : census.update former.stack.length later.stack.length =
      { census with
        present := List.replicate frames.length 0 ++ (top.branchCount + 1) ::
          rest.map Space.branchCount } := by
    have higher : ¬ frames.length + (rest.length + 1) < rest.length + 1 := by omega
    have height : frames.length + (rest.length + 1) - (rest.length + 1) = frames.length := by omega
    simp [Census.update, present, stack, laterStack, higher, height]
  rw [updated]
  simp only [present, phase, List.length_cons, List.sum_cons, reduceCtorEq, if_false]
    at spaces_eq children_eq
  have count : (top.branched lastChosen).branchCount = top.branchCount + 1 := by
    simp only [Space.branched]
    omega
  exact
    { present := by rw [laterStack, List.map_append, List.map_cons, unbranched, count]
      spaces_eq := by
        simp only [List.length_append, List.length_replicate, List.length_cons]
        omega
      children_eq := by
        simp only [laterPhase, List.sum_append_nat, List.sum_replicate_nat, Nat.mul_zero,
          List.sum_cons, reduceCtorEq, if_false]
        omega
      departed := balances.departed
      branching := balances.branching
      resting := by simp [laterPhase]
      unstopped := by simp [laterPhase] }

/-- Nothing is left on the stack. -/
theorem Balances.conclude (balances : census.Balances network former) (stack : former.stack = [])
    (begun : former.phase ≠ .notStarted) (laterStack : later.stack = [])
    (laterPhase : later.phase = .finished)
    (statistics : later.engine.statistics = former.engine.statistics) :
    (census.update former.stack.length later.stack.length).Balances network later := by
  have present : census.present = [] := by rw [balances.present, stack, List.map_nil]
  have children_eq := balances.children_eq
  have same : census.update former.stack.length later.stack.length = census := by
    rw [stack, laterStack, Census.update, present]
    exact congrArg (Census.mk · census.departed) present.symm
  rw [same]
  simp only [begun, if_false] at children_eq
  exact
    { present := by rw [present, laterStack, List.map_nil]
      spaces_eq := by rw [statistics, balances.spaces_eq]
      children_eq := by simp only [statistics, laterPhase, children_eq, reduceCtorEq, if_false]
      departed := balances.departed
      branching := balances.branching
      resting := fun _ => laterStack
      unstopped := by simp [laterPhase] }

/-- The root is propagated, and counted as rejected or as a solution unless it becomes the first
frame. -/
theorem Balances.begin (balances : census.Balances network former)
    (unbegun : former.phase = .notStarted) {frames : List Space}
    (unbranched : frames.map Space.branchCount = List.replicate frames.length 0)
    (laterStack : later.stack = frames) (begun : later.phase ≠ .notStarted)
    (unstopped : later.phase ≠ .aborted) (resting : later.phase = .finished → later.stack = [])
    (spaces : later.engine.statistics.spaces = former.engine.statistics.spaces + 1)
    (leaves : later.engine.statistics.rejected + later.engine.statistics.solutions + frames.length =
      former.engine.statistics.rejected + former.engine.statistics.solutions + 1) :
    (census.update former.stack.length later.stack.length).Balances network later := by
  have present := balances.present
  have spaces_eq := balances.spaces_eq
  have children_eq := balances.children_eq
  rw [balances.resting (.inl unbegun), List.map_nil] at present
  have updated : census.update former.stack.length later.stack.length =
      { census with present := List.replicate frames.length 0 } := by
    simp only [Census.update, present, laterStack]
  rw [updated]
  simp only [present, unbegun, List.length_nil, List.sum_nil, if_true] at spaces_eq children_eq
  exact
    { present := by rw [laterStack, unbranched]
      spaces_eq := by
        simp only [List.length_replicate]
        omega
      children_eq := by
        simp only [List.sum_replicate_nat, Nat.mul_zero, begun, if_false]
        omega
      departed := balances.departed
      branching := balances.branching
      resting := fun rests => rests.elim (absurd · begun) resting
      unstopped := unstopped }

/-- At the end the stack is empty, and the numbers of children and of spaces are two ways to count
the same. -/
theorem Balances.spaces_add_one_eq (balances : census.Balances network later)
    (ended : later.phase = .finished) : later.engine.statistics.spaces + 1 =
      2 * (later.engine.statistics.rejected + later.engine.statistics.solutions +
        census.departed.count 0) := by
  have present : census.present = [] := by
    rw [balances.present, balances.resting (.inr ended), List.map_nil]
  have spaces_eq := balances.spaces_eq
  have children_eq := balances.children_eq
  have twice := sum_add_two_mul_count_zero balances.departed
  simp only [present, ended, List.length_nil, List.sum_nil, reduceCtorEq, if_false]
    at spaces_eq children_eq
  omega

end Census

namespace Search

variable {γ : Type} [Generator γ] {network : Network} {model : Model}

/-- The search has come to this point through rounds without an observer, of which the census is
taken. -/
inductive Surveyed (network : Network) : Search γ Unit → Census → Prop
  | initial (generator : γ) (journal : Journal) :
      Surveyed network (.initial network generator () journal) {}
  | round {former later : Search γ Unit} {census : Census}
      (surveyed : Surveyed network former census)
    (passed : (former.round network .silent).later? = some later) :
    Surveyed network later (census.update former.stack.length later.stack.length)

/-! ### What a frame can be left with -/

section Frames

variable {top : Space} {variableId : VariableId} {generator : γ}

/-- A frame is left after two children, or when nothing can be drawn for the first one. -/
theorem branchCount_of_undivided (frame : network.Frame γ top) (counted : top.branchCount ≤ 2)
    (selected : network.order.select? network top = some variableId)
    (undivided : (network.strategyOf variableId).divide variableId top top.branchCount
      generator = none) :
    top.branchCount = 0 ∨ top.branchCount = 2 := by
  have resumed : top.branchCount ≠ 1 := by
    intro once
    obtain ⟨other, first, sameSelected, givesRest, chosen⟩ := frame.resumed once
    cases selected.symm.trans sameSelected
    obtain ⟨rest, split, gives⟩ := givesRest
    rw [once, gives top generator rfl chosen] at undivided
    cases undivided
  omega

/-- Only for a variable with a Markov strategy can it happen that nothing is drawn. -/
theorem branchCount_ne_zero_of_undivided (frame : network.Frame γ top)
    (built : network.BuiltFor model)
    (unweighted : ∀ variableId, network.isMarkov variableId = false)
    (selected : network.order.select? network top = some variableId)
    (undivided : (network.strategyOf variableId).divide variableId top top.branchCount generator =
      none) : top.branchCount ≠ 0 := by
  intro unbranched
  obtain ⟨targeted, unsolved⟩ :=
    (frame.lists variableId).mp (VariableOrder.mem_unsolved_of_select? selected)
  have nonempty := frame.quiet.nonempty variableId (built.targeted_lt variableId targeted)
  obtain ⟨part, next, divided⟩ :=
    (built.deterministic variableId (unweighted variableId)).exists_divide nonempty
      unsolved generator
  rw [unbranched, divided] at undivided
  cases undivided

end Frames

/-! ### Rounds keep the balance -/

section Balance

variable {later : Search γ Unit} {census : Census} {stack : List Space} {generator : γ}
  {engine : Engine Unit}

omit [Generator γ] in
/-- A round on a child counts one more space, which leaves, concludes or stays on the stack. -/
theorem balances_childRound {top : Space} {rest : List Space} {variableId : VariableId}
    {part : Part} {next : γ}
    (balances : census.Balances network
      ({ stack := top :: rest, phase := .exploring, generator, engine } : Search γ Unit))
    (unfinished : top.branchCount < 2)
    (passed : (childRound network .silent top rest variableId part next engine).later? =
      some later) : (census.update (rest.length + 1) later.stack.length).Balances
        network later := by
  rw [childRound] at passed
  dsimp only at passed
  split at passed
  · rename_i final propagated
    obtain ⟨propagations, counted⟩ := Engine.exists_statistics_propagate propagated
    cases passed
    exact balances.bear rfl unfinished (by rfl) (List.nil_append _).symm rfl rfl
      (by simp only [Engine.tally, counted])
      (by simp only [Engine.tally, counted, List.length_nil]; omega)
  · rename_i final propagated
    exact absurd propagated Engine.propagate_silent_ne_aborted
  · rename_i fault final propagated
    obtain ⟨_, _, _, faulted | faulted⟩ := Engine.faults_of_faulted propagated <;> cases faulted
  · rename_i child final propagated
    obtain ⟨propagations, counted⟩ := Engine.exists_statistics_propagate propagated
    have unbranched : child.branchCount = 0 := (Engine.propagate_stable propagated).1
    split at passed
    · cases passed
      exact balances.bear rfl unfinished (by rfl) (List.nil_append _).symm rfl rfl
        (by simp only [Engine.tally, Engine.note, counted])
        (by simp only [Engine.tally, Engine.note, counted, List.length_nil]; omega)
    · cases passed
      exact balances.bear rfl unfinished (by simp [unbranched]) (List.singleton_append).symm rfl rfl
        (by simp only [Engine.tally, counted])
        (by simp only [Engine.tally, counted, List.length_singleton])

/-- So does every later round, unless it only takes a frame off the stack. -/
theorem balances_exploreRound (built : network.BuiltFor model)
    (steady : Steady network ({ stack, phase := .exploring, generator, engine } : Search γ Unit))
    (balances : census.Balances network
      ({ stack, phase := .exploring, generator, engine } : Search γ Unit))
    (passed : (exploreRound network .silent stack generator engine).later? = some later) :
    (census.update stack.length later.stack.length).Balances network later := by
  cases stack with
  | nil =>
    cases passed
    exact balances.conclude rfl (by simp) rfl rfl rfl
  | cons top rest =>
    have frame := (List.forall_mem_cons.mp steady.sound.frames).1
    have counted := (List.forall_mem_cons.mp steady.counted).1
    obtain ⟨variableId, selected⟩ := VariableOrder.exists_select? frame.unsolved
    rw [exploreRound_of_selected frame counted selected] at passed
    split at passed
    · rename_i undivided
      cases passed
      exact balances.leave rfl (branchCount_of_undivided frame counted selected undivided)
        (fun unweighted => branchCount_ne_zero_of_undivided frame built unweighted selected
          undivided) rfl rfl rfl rfl
    · rename_i part next divided
      have unfinished : top.branchCount < 2 := by
        apply Nat.lt_of_not_le
        intro two
        rw [ValueStrategy.divide_of_two_le _ _ _ _ two] at divided
        cases divided
      exact balances_childRound balances unfinished passed

omit [Generator γ] in
/-- The first round counts the root. -/
theorem balances_startRound
    (balances : census.Balances network
      ({ stack, phase := .notStarted, generator, engine } : Search γ Unit))
    (passed : (startRound network .silent generator engine).later? = some later) :
    (census.update stack.length later.stack.length).Balances network later := by
  rw [startRound] at passed
  dsimp only at passed
  split at passed
  · rename_i final propagated
    obtain ⟨propagations, counted⟩ := Engine.exists_statistics_propagate propagated
    cases passed
    exact balances.begin rfl (by rfl) rfl (by simp) (by simp) (fun _ => rfl)
      (by simp only [Engine.tally, Engine.note, counted])
      (by simp only [Engine.tally, Engine.note, counted, List.length_nil]; omega)
  · rename_i final propagated
    exact absurd propagated Engine.propagate_silent_ne_aborted
  · rename_i fault final propagated
    obtain ⟨_, _, _, faulted | faulted⟩ := Engine.faults_of_faulted propagated <;> cases faulted
  · rename_i root final propagated
    obtain ⟨propagations, counted⟩ := Engine.exists_statistics_propagate propagated
    have unbranched : root.branchCount = 0 := (Engine.propagate_stable propagated).1
    split at passed
    · cases passed
      exact balances.begin rfl (by rfl) rfl (by simp) (by simp) (by simp)
        (by simp only [Engine.tally, counted])
        (by simp only [Engine.tally, counted, List.length_nil]; omega)
    · cases passed
      exact balances.begin rfl (by simp [unbranched]) rfl (by simp) (by simp) (by simp)
        (by simp only [Engine.tally, counted])
        (by simp only [Engine.tally, counted, List.length_singleton])

end Balance

/-! ### Runs keep the balance -/

section Runs

variable {former later search : Search γ Unit} {census : Census}

/-- The census of the stack heights balances after every round. The cases are those of the round. -/
theorem balances_round (built : network.BuiltFor model) (steady : former.Steady network)
    (balances : census.Balances network former)
    (passed : (former.round network .silent).later? = some later) :
    (census.update former.stack.length later.stack.length).Balances network later := by
  obtain ⟨stack, phase, generator, engine⟩ := former
  cases phase with
  | notStarted => exact balances_startRound balances passed
  | exploring => exact balances_exploreRound built steady balances passed
  | finished =>
    cases passed
    exact balances.conclude (balances.resting (.inr rfl)) (by simp)
      (balances.resting (.inr rfl)) rfl rfl
  | aborted => exact absurd rfl balances.unstopped

/-- Rounds keep searches steady. -/
theorem Steady.round (built : network.BuiltFor model) (steady : former.Steady network)
    (passed : (former.round network .silent).later? = some later) : later.Steady network := by
  have descends : (former.round network .silent).Descends (Steady network) (limit network)
      (Served network .silent) former :=
    descends_round built former steady
  revert descends passed
  generalize former.round network .silent = round
  cases round with
  | again next =>
    rintro ⟨⟩ ⟨kept, -⟩
    exact kept
  | done result =>
    rintro ⟨⟩ served
    exact served.steady
  | stuck =>
    rintro ⟨⟩

/-- It balances at every round that has been surveyed. -/
theorem Surveyed.steady_balances (built : network.BuiltFor model)
    (surveyed : search.Surveyed network census) :
    search.Steady network ∧ census.Balances network search := by
  induction surveyed with
  | initial generator journal =>
    exact ⟨(Reached.initial generator () journal).steady built,
      Census.balances_initial network generator journal⟩
  | round surveyed passed inductionHypothesis =>
    obtain ⟨steady, balances⟩ := inductionHypothesis
    exact ⟨steady.round built passed, balances_round built steady balances passed⟩

/-- A census can be taken while the rounds of a request are run. -/
theorem Surveyed.exists_of_result? {rounds : Nat} {outcome : Outcome}
    (surveyed : search.Surveyed network census)
    (ended : Round.result? (Search.round network .silent) rounds search = some (outcome, later)) :
    ∃ census, later.Surveyed network census := by
  induction rounds generalizing search census with
  | zero => cases ended
  | succ rounds inductionHypothesis =>
    rw [Round.result?] at ended
    split at ended
    · rename_i came
      cases ended
      exact ⟨_, surveyed.round (by rw [came]; rfl)⟩
    · rename_i next came
      exact inductionHypothesis (surveyed.round (by rw [came]; rfl)) ended
    · cases ended

/-- A request is surveyed round by round until it ends. -/
theorem Surveyed.exists_next (built : network.BuiltFor model)
    (surveyed : search.Surveyed network census) :
    ∃ census, (search.next network .silent).2.Surveyed network census :=
  surveyed.exists_of_result? (result?_round built (surveyed.steady_balances built).1).1

/-- So are any number of requests. -/
theorem Surveyed.exists_after (built : network.BuiltFor model)
    (surveyed : search.Surveyed network census) (requests : Nat) :
    ∃ census, (search.after network .silent requests).Surveyed network census := by
  induction requests generalizing search census with
  | zero => exact ⟨census, surveyed⟩
  | succ requests inductionHypothesis =>
    obtain ⟨_, next⟩ := surveyed.exists_next built
    exact inductionHypothesis next

end Runs

end Search

/-- **Accounting.** Let a search without an observer of a prepared model come to the end of the
tree. A census can be taken of it, and by any census no frame is left over, each frame had two
children or none, and the spaces and one more are twice as many as the rejected spaces, the
solutions, and the frames without a child. There are no such frames if no variable has a Markov
strategy. -/
theorem Workspace.Reachable.spaces_add_one_eq_two_mul {workspace : Workspace}
    (reachable : workspace.Reachable) {network : Network}
    (prepared : workspace.model.network = some network) {γ : Type} [Generator γ] {generator : γ}
    {journal : Journal} {requests : Nat}
    (ended : (((Search.initial network generator () journal).after network .silent requests).next
      network .silent).1 = .finished) : let later :=
        (((Search.initial network generator () journal).after network .silent requests).next
          network .silent).2
    let statistics := later.engine.statistics
    (∃ census, later.Surveyed network census) ∧
      ∀ census, later.Surveyed network census →
        census.present = [] ∧ (∀ children ∈ census.departed, children = 0 ∨ children = 2) ∧
        statistics.spaces + 1 = 2 * (statistics.rejected + statistics.solutions +
          census.departed.count 0) ∧
        ((∀ variableId, workspace.model.isMarkov variableId = false) →
          census.departed.count 0 = 0 ∧
            statistics.spaces + 1 = 2 * (statistics.rejected + statistics.solutions)) := by
  intro later statistics
  have built := reachable.builtFor prepared
  have start : (Search.initial network generator () journal).Surveyed network {} :=
    .initial generator journal
  obtain ⟨_, surveyed⟩ := start.exists_after built requests
  have phase : later.phase = .finished := Search.eq_finished_iff.mp ended
  refine ⟨surveyed.exists_next built, fun census surveyed => ?_⟩
  obtain ⟨-, balances⟩ := surveyed.steady_balances built
  have identity := balances.spaces_add_one_eq phase
  refine ⟨?_, balances.departed, identity, fun unweighted => ?_⟩
  · rw [balances.present, balances.resting (.inr phase), List.map_nil]
  · have none : census.departed.count 0 = 0 :=
      List.count_eq_zero.mpr (balances.branching (built.isMarkov_eq_false prepared unweighted))
    exact ⟨none, by rw [identity, none, Nat.add_zero]⟩

/-- The search for two variables in order is at its end after three solutions; it has gone through
five spaces. -/
theorem Workspace.spaces_add_one_eq_two_mul_inOrder :
    ∃ (network : Network) (later : Search Script Unit) (census : Census),
      inOrder.model.network = some network ∧
        ((Search.initial network ⟨#[], 0⟩ () {}).after network .silent 3).next network .silent =
          (.finished, later) ∧
      later.Surveyed network census ∧ census.departed.count 0 = 0 ∧
        later.engine.statistics.spaces = 5 ∧
      5 + 1 = 2 * (later.engine.statistics.rejected + later.engine.statistics.solutions) := by
  have prepared : inOrder.model.network = some (inOrder.model.network.get isPrepared_inOrder) :=
    Option.eq_some_of_isSome _
  have unweighted : ∀ variableId, inOrder.model.isMarkov variableId = false := by
    apply Model.isMarkov_eq_false_of_lt
    decide +kernel
  have fourth : let later :=
    (((Search.initial (inOrder.model.network.get isPrepared_inOrder) (⟨#[], 0⟩ : Script) ()
      {}).after
        (inOrder.model.network.get isPrepared_inOrder) .silent 3).next
        (inOrder.model.network.get isPrepared_inOrder) .silent).2
      later.phase = .finished ∧ later.engine.statistics.spaces = 5 := by
    decide +kernel
  generalize inOrder.model.network.get isPrepared_inOrder = network at fourth prepared
  have ended := Search.eq_finished_iff.mpr fourth.1
  obtain ⟨⟨census, surveyed⟩, accounts⟩ :=
    (reachable_ofRequests _).spaces_add_one_eq_two_mul prepared ended
  obtain ⟨_, _, _, accounted⟩ := accounts census surveyed
  obtain ⟨none, identity⟩ := accounted unweighted
  rw [fourth.2] at identity
  exact ⟨network, _, census, prepared, Prod.ext ended rfl, surveyed, none, fourth.2, identity⟩

end ConstraintSearch
