import ConstraintSearch.Model.Prepare
import ConstraintSearch.Search.Explore
import ConstraintSearch.Search.Solution

/-!
# Solvers

A solver searches a prepared model for its solutions. It gives them one at a time, or as many as are
asked for, and always goes on where it stopped before.
-/

namespace ConstraintSearch

/-- A search together with what it searches. -/
structure Solver (γ σ : Type) where
  model : Model
  network : Network
  observer : Observer σ
  search : Search γ σ

/-- The answer to a request for the next solution. -/
inductive Answer
  | solution (solution : Solution)
  /-- There are no more solutions. -/
  | finished
  /-- The observer stopped the search; there will be no more solutions. -/
  | aborted
  /-- The observer could not tell whether to stop; there may be more solutions. -/
  | faulted (fault : Fault)
deriving DecidableEq

/-- The solutions that were collected, and why no more. -/
structure Collection where
  solutions : List Solution
  status : SolveStatus
deriving DecidableEq

namespace Solver

variable {γ σ : Type} [Generator γ]

/-- Prepares the model and sets a search up for it. -/
def create (generator : γ) (observer : Observer σ) (observed : σ) (journal : Journal) :
    Build (Solver γ σ) := do
  let network ← prepare
  return {
    model := ← Build.model
    network
    observer
    search := .initial network generator observed journal }

/-- What has been counted so far. -/
def statistics (solver : Solver γ σ) : Statistics :=
  solver.search.engine.statistics

/-- Goes on to the next solution. -/
def next (solver : Solver γ σ) : Answer × Solver γ σ :=
  let (outcome, search) := solver.search.next solver.network solver.observer
  let answer :=
    match outcome with
    | .solved space => .solution (Solution.ofSpace solver.network space)
    | .finished => .finished
    | .aborted => .aborted
    | .faulted fault => .faulted fault
  (answer, { solver with search })

/-- Collects at most `limit` further solutions behind those that have been collected, the latest one
first. A fault of the observer leaves no collection. -/
def collect (solver : Solver γ σ) (collected : List Solution) :
    (limit : Nat) → Except Fault Collection × Solver γ σ
  | 0 => (.ok ⟨collected.reverse, .limitReached⟩, solver)
  | limit + 1 =>
    match solver.next with
    | (.solution solution, solver) => solver.collect (solution :: collected) limit
    | (.finished, solver) => (.ok ⟨collected.reverse, .exhausted⟩, solver)
    | (.aborted, solver) => (.ok ⟨collected.reverse, .aborted⟩, solver)
    | (.faulted fault, solver) => (.error fault, solver)

/-- Notes an event. -/
def note (solver : Solver γ σ) (event : Event) : Solver γ σ :=
  { solver with search := { solver.search with engine := solver.search.engine.note event } }

/-- Collects at most `limit` further solutions and notes how many there are. -/
def solve (solver : Solver γ σ) (limit : Nat) : Except Fault Collection × Solver γ σ :=
  match solver.collect [] limit with
  | (.ok collection, solver) =>
    let event := .solutionsCollected collection.solutions.length collection.status
    (.ok collection, solver.note event)
  | (.error fault, solver) => (.error fault, solver)

/-- Takes at most `limit` further solutions, one at a time. -/
def take (solver : Solver γ σ) (limit : Nat) : Except Fault (List Solution) × Solver γ σ :=
  let (collection, solver) := solver.collect [] limit
  (collection.map Collection.solutions, solver)

end Solver

end ConstraintSearch
