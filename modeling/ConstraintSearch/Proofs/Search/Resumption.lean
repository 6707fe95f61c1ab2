import ConstraintSearch.Proofs.Search.Observed

/-!
# Resuming a solver

A solver can be asked for the next solution, for all of them up to a limit, or for some items of an
iterator that is thrown away afterwards. In the end, each of these makes requests for the next
solution, and notes at most something in the journal. So it does not matter who asks for how many
solutions at a time: together, all get the solutions of one uninterrupted run.
-/

namespace ConstraintSearch

variable {γ σ : Type} [Generator γ]

/-- What a solver can be asked for. -/
inductive Demand
  /-- The next solution. -/
  | next
  /-- All solutions up to a limit. -/
  | solve (limit : Nat)
  /-- Items of a new iterator. -/
  | take (limit : Nat)

/-- The solution that is answered, if any. -/
def Answer.solution? : Answer → Option Solution
  | solution found => some found
  | _ => none

namespace Demand

/-- The solutions that a solver gives on demand. -/
def perform : Demand → Solver γ σ → Except Fault (List Solution) × Solver γ σ
  | next, solver =>
    match solver.next with
    | (.faulted fault, solver) => (.error fault, solver)
    | (answer, solver) => (.ok answer.solution?.toList, solver)
  | solve limit, solver =>
    let (collection, solver) := solver.solve limit
    (collection.map Collection.solutions, solver)
  | take limit, solver => solver.take limit

/-- The solutions that a solver gives on all demands of a schedule, in one list. -/
def serve : List Demand → Solver γ σ → Except Fault (List Solution) × Solver γ σ
  | [], solver => (.ok [], solver)
  | demand :: schedule, solver =>
    match demand.perform solver with
    | (.error fault, solver) => (.error fault, solver)
    | (.ok solutions, solver) =>
      let (rest, solver) := serve schedule solver
      (rest.map (solutions ++ ·), solver)

end Demand

/-- An observer is its own echo. -/
theorem Observer.echoes_self (observer : Observer σ) :
    observer.Echoes (· = ·) (fun _ => True) observer where
  before space state other linked _ := by
    subst linked
    exact ⟨rfl, rfl⟩
  after space state other linked _ := by
    subst linked
    exact ⟨rfl, rfl⟩

namespace Solver

/-! ### Uninterrupted runs -/

/-- The answers to a number of requests for the next solution, made one after the other. -/
def answers : (requests : Nat) → Solver γ σ → List Answer
  | 0, _ => []
  | requests + 1, solver => solver.next.1 :: answers requests solver.next.2

/-- What becomes of a solver through a number of requests for the next solution. -/
def after : (requests : Nat) → Solver γ σ → Solver γ σ
  | 0, solver => solver
  | requests + 1, solver => after requests solver.next.2

/-- The answers to early requests come before those to late ones. -/
theorem answers_add (early late : Nat) (solver : Solver γ σ) :
    solver.answers (early + late) = solver.answers early ++ (solver.after early).answers late := by
  induction early generalizing solver with
  | zero => rw [Nat.zero_add, answers, after, List.nil_append]
  | succ early inductionHypothesis =>
    rw [Nat.succ_add, answers, answers, after, inductionHypothesis, List.cons_append]

/-- Late requests go on from where the early ones have led. -/
theorem after_add (early late : Nat) (solver : Solver γ σ) :
    solver.after (early + late) = (solver.after early).after late := by
  induction early generalizing solver with
  | zero => rw [Nat.zero_add, after]
  | succ early inductionHypothesis => rw [Nat.succ_add, after, after, inductionHypothesis]

/-- No request changes the observer. -/
theorem observer_after (solver : Solver γ σ) (requests : Nat) :
    (solver.after requests).observer = solver.observer := by
  induction requests generalizing solver with
  | zero => rfl
  | succ requests inductionHypothesis => exact inductionHypothesis solver.next.2

/-- The solvers differ in their journals at most. -/
structure Alike (first second : Solver γ σ) : Prop where
  model : second.model = first.model
  network : second.network = first.network
  observer : second.observer = first.observer
  search : first.search.Alike (· = ·) second.search

section Alike

variable {first second third : Solver γ σ}

omit [Generator γ] in
/-- A solver differs from itself in nothing. -/
theorem Alike.refl (solver : Solver γ σ) : solver.Alike solver :=
  ⟨rfl, rfl, rfl, rfl, rfl, rfl, rfl, rfl, rfl⟩

omit [Generator γ] in
/-- Differences in journals add up to differences in journals. -/
theorem Alike.trans (left : first.Alike second) (right : second.Alike third) :
    first.Alike third where
  model := right.model.trans left.model
  network := right.network.trans left.network
  observer := right.observer.trans left.observer
  search :=
    { stack := right.search.stack.trans left.search.stack
      phase := right.search.phase.trans left.search.phase
      generator := right.search.generator.trans left.search.generator
      engine :=
        { changes := right.search.engine.changes.trans left.search.engine.changes
          statistics := right.search.engine.statistics.trans left.search.engine.statistics
          observed := left.search.engine.observed.trans right.search.engine.observed } }

omit [Generator γ] in
/-- A note in the journal is such a difference. -/
theorem alike_note (solver : Solver γ σ) (event : Event) : solver.Alike (solver.note event) :=
  ⟨rfl, rfl, rfl, rfl, rfl, rfl, rfl, rfl, rfl⟩

/-- Alike solvers give the same answer and remain alike. -/
theorem Alike.next (alike : first.Alike second) :
    second.next.1 = first.next.1 ∧ first.next.2.Alike second.next.2 := by
  obtain ⟨_, _, _, search⟩ := first
  obtain ⟨model, network, observer, other⟩ := second
  obtain ⟨rfl, rfl, rfl, alikeSearch⟩ := alike
  obtain ⟨same, alikeNext⟩ := alikeSearch.next network observer.echoes_self trivial trivial
  exact ⟨by simp only [Solver.next, same], rfl, rfl, rfl, alikeNext⟩

/-- They give the same answers to any number of requests. -/
theorem Alike.answers_eq (alike : first.Alike second) (requests : Nat) :
    second.answers requests = first.answers requests := by
  induction requests generalizing first second with
  | zero => rfl
  | succ requests inductionHypothesis =>
    rw [answers, answers, alike.next.1, inductionHypothesis alike.next.2]

/-- They remain alike through any number of requests. -/
theorem Alike.after (alike : first.Alike second) (requests : Nat) :
    (first.after requests).Alike (second.after requests) := by
  induction requests generalizing first second with
  | zero => exact alike
  | succ requests inductionHypothesis => exact inductionHypothesis alike.next.2

end Alike

/-! ### The end of a run -/

/-- The solver has answered that there are no more solutions, and keeps to it. -/
inductive Over : Answer → Solver γ σ → Prop
  | finished {solver : Solver γ σ} (ended : solver.search.phase = .finished) : Over .finished solver
  | aborted {solver : Solver γ σ} (stopped : solver.search.phase = .aborted) : Over .aborted solver

section Over

variable {solver later : Solver γ σ} {answer : Answer}

/-- A run that is over gives its answer again and leaves the solver. -/
theorem Over.next_eq (isOver : Over answer solver) : solver.next = (answer, solver) := by
  cases isOver with
  | finished ended => rw [next, Search.next, ended]
  | aborted stopped => rw [next_of_aborted stopped]

omit [Generator γ] in
/-- The answer at the end is no solution. -/
theorem Over.solution?_eq_none (isOver : Over answer solver) : answer.solution? = none := by
  cases isOver <;> rfl

/-- Nothing becomes of a solver whose run is over. -/
theorem Over.after_eq (isOver : Over answer solver) (requests : Nat) :
    solver.after requests = solver := by
  induction requests with
  | zero => rfl
  | succ requests inductionHypothesis => rw [after, isOver.next_eq, inductionHypothesis]

/-- All its answers are the last one. -/
theorem Over.answers_eq (isOver : Over answer solver) (requests : Nat) :
    solver.answers requests = List.replicate requests answer := by
  induction requests with
  | zero => rfl
  | succ requests inductionHypothesis =>
    rw [answers, isOver.next_eq, inductionHypothesis, List.replicate_succ]

omit [Generator γ] in
/-- The end of a run does not depend on the journal. -/
theorem Over.of_alike (isOver : Over answer solver) (alike : solver.Alike later) :
    Over answer later := by
  cases isOver with
  | finished ended => exact .finished (alike.search.phase.trans ended)
  | aborted stopped => exact .aborted (alike.search.phase.trans stopped)

/-- An observer that can always tell leaves two ways to go on: there is a solution, or the run is
over. -/
theorem solution_or_over (sure : ¬ solver.observer.Faults) :
    (∃ solution, solver.next.1 = .solution solution) ∨ Over solver.next.1 solver.next.2 := by
  have ends := solver.search.ends_next solver.network solver.observer
  rw [next]
  revert ends
  obtain ⟨outcome, search⟩ := solver.search.next solver.network solver.observer
  intro ends
  cases outcome with
  | solved space => exact .inl ⟨_, rfl⟩
  | finished => exact .inr (.finished ends)
  | aborted => exact .inr (.aborted ends)
  | faulted fault => exact absurd ends.2 sure

/-- The solutions of a run come first, before all other answers. -/
theorem answers_length_solutions (sure : ¬ solver.observer.Faults) (requests : Nat) :
    let solutions := (solver.answers requests).filterMap Answer.solution?
    solver.answers solutions.length = solutions.map .solution := by
  induction requests generalizing solver with
  | zero => rfl
  | succ requests inductionHypothesis =>
    rcases solution_or_over sure with ⟨solution, answered⟩ | isOver
    · rw [answers, answered, List.filterMap_cons]
      simp only [Answer.solution?, List.length_cons, List.map_cons, answers, answered]
      exact congrArg _ (@inductionHypothesis solver.next.2 sure)
    · rw [answers, List.filterMap_cons, isOver.solution?_eq_none, isOver.answers_eq,
        List.filterMap_replicate_of_none isOver.solution?_eq_none]
      rfl

end Over

/-! ### Demands come down to requests -/

/-- The later solver is where some requests for the next solution lead, whose answers contain the
given solutions. -/
def Passes (solutions : List Solution) (former later : Solver γ σ) : Prop :=
  ∃ requests, (former.answers requests).filterMap Answer.solution? = solutions ∧
    (former.after requests).Alike later

section Passes

variable {former middle later solver : Solver γ σ} {early late : List Solution}

/-- A note in the journal takes no requests. -/
theorem Passes.of_alike (alike : former.Alike later) : Passes [] former later :=
  ⟨0, rfl, alike⟩

/-- One request passes the solution that it is answered with, if there is one. -/
theorem passes_next (solver : Solver γ σ) :
    Passes solver.next.1.solution?.toList solver solver.next.2 := by
  refine ⟨1, ?_, .refl _⟩
  rw [answers, answers, List.filterMap_cons]
  cases solver.next.1.solution? <;> rfl

/-- Requests in a row pass their solutions in a row. -/
theorem Passes.trans (left : Passes early former middle) (right : Passes late middle later) :
    Passes (early ++ late) former later := by
  obtain ⟨requests, rfl, alike⟩ := left
  obtain ⟨more, rfl, alikeLater⟩ := right
  refine ⟨requests + more, ?_, ?_⟩
  · rw [answers_add, List.filterMap_append, alike.answers_eq]
  · rw [after_add]
    exact (alike.after more).trans alikeLater

/-- No matter how many requests are passed, the observer is the same. -/
theorem Passes.observer_eq (passes : Passes early former later) :
    later.observer = former.observer := by
  obtain ⟨requests, -, alike⟩ := passes
  exact alike.observer.trans (former.observer_after requests)

/-- What a collection of at most `limit` solutions is made of, and what its status says. -/
structure Collects (limit : Nat) (former : Solver γ σ) (collection : Collection)
    (later : Solver γ σ) : Prop where
  passes : Passes collection.solutions former later
  length_le : collection.solutions.length ≤ limit
  limitReached_iff : collection.status = .limitReached ↔ collection.solutions.length = limit
  over_of_exhausted : collection.status = .exhausted → Over .finished later
  over_of_aborted : collection.status = .aborted → Over .aborted later

/-- Collecting behind what has been collected gives a collection of its own. -/
theorem exists_collects_behind (sure : ¬ solver.observer.Faults) (collected : List Solution)
    (limit : Nat) : ∃ collection later, solver.collect collected limit = (.ok { collection with
      solutions := collected.reverse ++ collection.solutions },
    later) ∧ Collects limit solver collection later := by
  induction limit generalizing solver collected with
  | zero =>
    exact ⟨⟨[], .limitReached⟩, solver, by rw [collect, List.append_nil],
      { passes := .of_alike (.refl _)
        length_le := Nat.le_refl _
        limitReached_iff := iff_of_true rfl rfl
        over_of_exhausted := by simp
        over_of_aborted := by simp }⟩
  | succ limit inductionHypothesis =>
    have first := solver.passes_next
    have ways := solution_or_over sure
    rw [collect]
    cases answered : solver.next with
    | mk answer next =>
      rw [answered] at first ways
      rcases ways with ⟨solution, rfl⟩ | isOver
      · obtain ⟨collection, later, collects, given⟩ :=
          @inductionHypothesis next (first.observer_eq ▸ sure) (solution :: collected)
        refine ⟨{ collection with solutions := solution :: collection.solutions }, later, ?_, ?_⟩
        · simp only [collects, List.reverse_cons, List.append_assoc, List.singleton_append]
        · exact
            { passes := first.trans given.passes
              length_le := Nat.succ_le_succ given.length_le
              limitReached_iff := given.limitReached_iff.trans (by simp)
              over_of_exhausted := given.over_of_exhausted
              over_of_aborted := given.over_of_aborted }
      · cases isOver with
        | finished ended =>
          exact ⟨⟨[], .exhausted⟩, next, by simp, first, by simp, by simp, fun _ =>
            .finished ended, by simp⟩
        | aborted stopped =>
          exact ⟨⟨[], .aborted⟩, next, by simp, first, by simp, by simp, by simp, fun _ =>
            .aborted stopped⟩

/-- Collecting solutions does not fail and collects at most as many as asked for. -/
theorem exists_collects (sure : ¬ solver.observer.Faults) (limit : Nat) :
    ∃ collection later, solver.collect [] limit = (.ok collection, later) ∧
      Collects limit solver collection later :=
  exists_collects_behind sure [] limit

/-- So does solving, which notes the end of the collection in the journal. -/
theorem exists_solve (sure : ¬ solver.observer.Faults) (limit : Nat) :
    ∃ collection later, solver.solve limit = (.ok collection, later) ∧
      Collects limit solver collection later := by
  obtain ⟨collection, middle, collected, collects⟩ := exists_collects sure limit
  have noted :=
    middle.alike_note (.solutionsCollected collection.solutions.length collection.status)
  refine ⟨collection, _, by rw [solve, collected], ?_⟩
  exact
    { passes := by simpa only [List.append_nil] using collects.passes.trans (.of_alike noted)
      length_le := collects.length_le
      limitReached_iff := collects.limitReached_iff
      over_of_exhausted := fun exhausted => (collects.over_of_exhausted exhausted).of_alike noted
      over_of_aborted := fun aborted => (collects.over_of_aborted aborted).of_alike noted }

/-- Every single demand is met by requests for the next solution. -/
theorem exists_perform (sure : ¬ solver.observer.Faults) (demand : Demand) :
    ∃ solutions later, demand.perform solver = (.ok solutions, later) ∧
      Passes solutions solver later := by
  cases demand with
  | next =>
    have first := solver.passes_next
    have ways := solution_or_over sure
    rw [Demand.perform]
    cases answered : solver.next with
    | mk answer next =>
      rw [answered] at first ways
      rcases ways with ⟨solution, rfl⟩ | isOver
      · exact ⟨_, next, rfl, first⟩
      · cases isOver <;> exact ⟨_, next, rfl, first⟩
  | solve limit =>
    obtain ⟨collection, later, solved, collects⟩ := exists_solve sure limit
    exact ⟨collection.solutions, later, by rw [Demand.perform, solved]; rfl, collects.passes⟩
  | take limit =>
    obtain ⟨collection, later, collected, collects⟩ := exists_collects sure limit
    exact ⟨collection.solutions, later, by rw [Demand.perform, take, collected]; rfl,
      collects.passes⟩

/-- A schedule of demands is met by requests for the next solution. -/
theorem exists_serve (sure : ¬ solver.observer.Faults) (schedule : List Demand) :
    ∃ solutions later, Demand.serve schedule solver = (.ok solutions, later) ∧
      Passes solutions solver later := by
  induction schedule generalizing solver with
  | nil => exact ⟨[], solver, rfl, .of_alike (.refl _)⟩
  | cons demand schedule inductionHypothesis =>
    obtain ⟨early, middle, performed, passes⟩ := exists_perform sure demand
    obtain ⟨late, later, served, passesLater⟩ :=
      @inductionHypothesis middle (passes.observer_eq ▸ sure)
    exact ⟨early ++ late, later, by rw [Demand.serve, performed]; simp only [served]; rfl,
      passes.trans passesLater⟩

end Passes

/-- Whatever is demanded, the solver gives no more solutions, repeats the answer, and counts
nothing. -/
def Repeats (answer : Answer) (solver : Solver γ σ) : Prop :=
  ∀ schedule, ∃ later, Demand.serve schedule solver = (.ok [], later) ∧
    later.next = (answer, later) ∧ later.statistics = solver.statistics

/-- A solver whose run is over gives no more solutions on any schedule of demands. -/
theorem Over.repeats {solver : Solver γ σ} {answer : Answer} (isOver : Over answer solver)
    (sure : ¬ solver.observer.Faults) : solver.Repeats answer := by
  intro schedule
  obtain ⟨solutions, later, served, requests, rfl, alike⟩ := exists_serve sure schedule
  rw [isOver.answers_eq, List.filterMap_replicate_of_none isOver.solution?_eq_none] at served
  rw [isOver.after_eq] at alike
  exact ⟨later, served, (isOver.of_alike alike).next_eq, alike.search.engine.statistics⟩

/-- **Resumption.** A solver whose observer can always tell whether to stop is asked for solutions,
in any order of single requests, collections and iterators:
* Together, the solutions are the first answers of one uninterrupted run.
* A collection up to a limit does not exceed it, and says that the limit was reached exactly if it
  was.
* Once the answer is that there are no more solutions, or that the observer stopped the search, this
  is the answer from then on, there are no more solutions, and the statistics do not change. -/
theorem serve_resumes (model : Model) (network : Network) (before after : Space → σ → Bool × σ)
    (search : Search γ σ) (schedule : List Demand) :
    let solver : Solver γ σ := { model, network, observer := .stopping before after, search }
    ∃ solutions later, Demand.serve schedule solver = (.ok solutions, later) ∧
      solver.answers solutions.length = solutions.map .solution ∧
      (∀ limit, ∃ collection, (later.solve limit).1 = .ok collection ∧
        collection.solutions.length ≤ limit ∧
          (collection.status = .limitReached ↔ collection.solutions.length = limit) ∧
        (collection.status = .exhausted → (later.solve limit).2.Repeats .finished) ∧
        (collection.status = .aborted → (later.solve limit).2.Repeats .aborted)) ∧
      ∀ answer, answer = .finished ∨ answer = .aborted → later.next.1 = answer →
          later.next.2.Repeats answer := by
  intro solver
  have sure : ¬ solver.observer.Faults := Observer.not_faults_stopping before after
  obtain ⟨solutions, later, served, passes⟩ := exists_serve sure schedule
  have sureLater : ¬ later.observer.Faults := passes.observer_eq ▸ sure
  refine ⟨solutions, later, served, ?_, fun limit => ?_, fun answer ending answered => ?_⟩
  · obtain ⟨requests, rfl, -⟩ := passes
    exact answers_length_solutions sure requests
  · obtain ⟨collection, last, solved, collects⟩ := exists_solve sureLater limit
    have sureLast : ¬ last.observer.Faults := collects.passes.observer_eq ▸ sureLater
    rw [solved]
    exact ⟨collection, rfl, collects.length_le, collects.limitReached_iff,
      fun exhausted => (collects.over_of_exhausted exhausted).repeats sureLast,
      fun aborted => (collects.over_of_aborted aborted).repeats sureLast⟩
  · have sureNext : ¬ later.next.2.observer.Faults := sureLater
    rcases solution_or_over sureLater with ⟨solution, found⟩ | isOver
    · rw [found] at answered
      subst answered
      rcases ending with ending | ending <;> cases ending
    · rw [answered] at isOver
      exact isOver.repeats sureNext

end Solver

end ConstraintSearch
