import ConstraintSearch.Proofs.Search.Resumption

/-!
# Solvers as they are created

Creating a solver prepares the model and sets the initial search up for its network. So what holds
of every search that is reached in a prepared model holds of a created solver, whatever it has been
asked for since.
-/

namespace ConstraintSearch

variable {γ σ : Type} [Generator γ] {workspace : Workspace}

namespace Solver

omit [Generator γ] in
/-- Creating a solver is refused just as preparing the model is, and leaves the same workspace. The
solver that it gives has the network of the model and the search before its first request. -/
theorem create_run (generator : γ) (observer : Observer σ) (observed : σ) (journal : Journal)
    (workspace : Workspace) :
    (create generator observer observed journal).run workspace =
      ((prepare.run workspace).1.map fun network =>
          { model := (prepare.run workspace).2.model, network, observer
            search := .initial network generator observed journal },
        (prepare.run workspace).2) := by
  rw [create, Build.run_bind]
  rcases prepare.run workspace with ⟨_ | network, after⟩ <;> rfl

/-- The solver is one for the prepared model of a workspace, at some point of its search. -/
structure Serves (solver : Solver γ σ) (workspace : Workspace) : Prop where
  model_eq : solver.model = workspace.model
  prepared : workspace.model.network = some solver.network
  reached : solver.search.Reached solver.network

end Solver

/-- A solver that is created for a reachable model serves the model as it is prepared, which is
reachable too. -/
theorem Workspace.Reachable.serves_create (reachable : workspace.Reachable) {generator : γ}
    {observer : Observer σ} {observed : σ} {journal : Journal} {solver : Solver γ σ}
    {after : Workspace}
    (created : (Solver.create generator observer observed journal).run workspace =
      (.ok solver, after)) :
    after.Reachable ∧ solver.Serves after ∧ solver.observer = observer := by
  have reachableAfter : (prepare.run workspace).2.Reachable :=
    Build.run_discard prepare workspace ▸ reachable.request .prepare
  have outcome := (ensures_prepare workspace.model workspace reachable.sound rfl).2
  rw [Solver.create_run] at created
  rcases ran : prepare.run workspace with ⟨answer, left⟩
  rw [ran] at created reachableAfter outcome
  cases answer with
  | error refusal => cases created
  | ok network =>
    cases created
    exact ⟨reachableAfter,
      ⟨rfl, congrArg Model.network (outcome network rfl), .initial generator observed journal⟩, rfl⟩

namespace Solver.Serves

variable {solver : Solver γ σ} (serves : solver.Serves workspace)

include serves

/-- The network of the solver was built for the model. -/
theorem builtFor (reachable : workspace.Reachable) : solver.network.BuiltFor workspace.model :=
  reachable.builtFor serves.prepared

/-- A request for the next solution goes on in the same model. -/
theorem next : solver.next.2.Serves workspace :=
  ⟨serves.model_eq, serves.prepared, serves.reached.next solver.observer⟩

/-- So do any number of such requests. -/
theorem after (requests : Nat) : (solver.after requests).Serves workspace := by
  induction requests generalizing solver with
  | zero => exact serves
  | succ requests inductionHypothesis => exact inductionHypothesis serves.next

/-- Whatever a solver is asked for, it is then at a point of its search, except for what it has
noted in the journal on the way. -/
theorem exists_serve (sure : ¬ solver.observer.Faults) (schedule : List Demand) :
    ∃ solutions later point, Demand.serve schedule solver = (.ok solutions, later) ∧
      Solver.Serves point workspace ∧ point.Alike later := by
  obtain ⟨solutions, later, served, requests, -, alike⟩ := Solver.exists_serve sure schedule
  exact ⟨solutions, later, solver.after requests, served, serves.after requests, alike⟩

end Solver.Serves

end ConstraintSearch
