import ConstraintSearch.Search.Fixpoint

/-!
# The journal is never read

Propagation notes events, but what it does to the domains, the changes and the number of runs does
not depend on what was noted before. So two states that differ in their journals only stay so.
-/

namespace ConstraintSearch

open Narrow

namespace Narrow

variable {α β : Type}

/-- Two runs that come to the same, up to the journal of the state in which they end. -/
inductive Alike : (first second : EStateM.Result VariableId Narrowing α) → Prop
  | ok (result : α) (state : Narrowing) (journal : Journal) :
      Alike (.ok result state) (.ok result { state with journal })
  | error (variableId : VariableId) (state : Narrowing) (journal : Journal) :
    Alike (.error variableId state) (.error variableId { state with journal })

/-- Beside a run that succeeds, the other one succeeds with the same result and its own journal. -/
theorem Alike.exists_ok {result : α} {state : Narrowing}
    {other : EStateM.Result VariableId Narrowing α} (alike : Alike (.ok result state) other) :
    ∃ journal, other = .ok result { state with journal } := by
  cases alike with
  | ok _ _ journal => exact ⟨journal, rfl⟩

/-- Beside a run that fails, the other one fails at the same variable. -/
theorem Alike.exists_error {variableId : VariableId} {state : Narrowing}
    {other : EStateM.Result VariableId Narrowing α}
    (alike : Alike (.error variableId state) other) :
    ∃ journal, other = .error variableId { state with journal } := by
  cases alike with
  | error _ _ journal => exact ⟨journal, rfl⟩

/-- What the step comes to does not depend on the journal. -/
def IgnoresJournal (step : Narrow α) : Prop :=
  ∀ (state : Narrowing) (journal : Journal), Alike (step state) (step { state with journal })

/-- Returning a result reads no journal. -/
theorem ignoresJournal_pure (result : α) : IgnoresJournal (pure result : Narrow α) :=
  fun state journal => .ok result state journal

/-- Reading a domain reads no journal. -/
theorem ignoresJournal_domain (variableId : VariableId) : IgnoresJournal (domain variableId) :=
  fun state journal => .ok (state.domainOf variableId) state journal

/-- Restricting a domain reads no journal. -/
theorem ignoresJournal_restrict (variableId : VariableId) (supported : Domain) :
    IgnoresJournal (restrict variableId supported) := by
  intro state journal
  have same : Narrowing.domainOf { state with journal } = state.domainOf := rfl
  rw [restrict, restrict, same]
  dsimp only
  split
  · exact .error variableId _ journal
  · split
    · exact .ok () state journal
    · exact .ok () _ journal

/-- Steps in a row read no journal if none of them does. -/
theorem ignoresJournal_bind {step : Narrow α} {next : α → Narrow β} (first : IgnoresJournal step)
    (second : ∀ result, IgnoresJournal (next result)) : IgnoresJournal (step >>= next) := by
  intro state journal
  have middle := first state journal
  change Alike (EStateM.bind step next state) (EStateM.bind step next { state with journal })
  rw [EStateM.bind, EStateM.bind]
  cases came : step state with
  | ok result after =>
    obtain ⟨noted, cameOther⟩ := (came ▸ middle).exists_ok
    rw [cameOther]
    exact second result after noted
  | error variableId after =>
    obtain ⟨noted, cameOther⟩ := (came ▸ middle).exists_error
    rw [cameOther]
    exact .error variableId after noted

/-- So do the steps for the entries of a list. -/
theorem ignoresJournal_forM {step : α → Narrow Unit} (each : ∀ entry, IgnoresJournal (step entry))
    (entries : List α) : IgnoresJournal (entries.forM step) := by
  induction entries with
  | nil => exact ignoresJournal_pure ()
  | cons head rest inductionHypothesis =>
    exact ignoresJournal_bind (each head) fun _ => inductionHypothesis

end Narrow

/-! ### Propagators -/

/-- The rule for unequal variables reads and restricts domains. -/
theorem Comparison.ignoresJournal_propagateUnequal (fixed other : VariableId) :
    IgnoresJournal (propagateUnequal fixed other) := by
  refine ignoresJournal_bind (ignoresJournal_domain fixed) fun domain => ?_
  split
  · exact ignoresJournal_pure ()
  · exact ignoresJournal_restrict _ _

/-- Every comparison does so for either operand. -/
theorem Comparison.ignoresJournal_propagate (comparison : Comparison) (left right : VariableId) :
    IgnoresJournal (comparison.propagate left right) := by
  cases comparison with
  | neq =>
    exact ignoresJournal_bind (ignoresJournal_propagateUnequal left right) fun _ =>
      ignoresJournal_propagateUnequal right left
  | _ =>
    exact ignoresJournal_bind (ignoresJournal_domain _) fun _ =>
      ignoresJournal_bind (ignoresJournal_restrict _ _) fun _ =>
        ignoresJournal_bind (ignoresJournal_domain _) fun _ => ignoresJournal_restrict _ _

/-- A reified comparison reads its result first, and then what it needs of the operands. -/
theorem Comparison.ignoresJournal_propagateReified (comparison : Comparison)
    (left right result : VariableId) :
    IgnoresJournal (comparison.propagateReified left right result) := by
  refine ignoresJournal_bind (ignoresJournal_domain _) fun resultDomain => ?_
  split
  · exact comparison.ignoresJournal_propagate left right
  · split
    · exact comparison.negate.ignoresJournal_propagate left right
    · refine ignoresJournal_bind (ignoresJournal_domain _) fun leftDomain =>
        ignoresJournal_bind (ignoresJournal_domain _) fun rightDomain => ?_
      split
      · exact ignoresJournal_restrict _ _
      · split
        · exact ignoresJournal_restrict _ _
        · exact ignoresJournal_pure _

/-- The check of a weighted variable reads its guards and restricts it at most. -/
theorem Propagator.ignoresJournal_propagateMarkov (weighted : VariableId)
    (matrix : MarkovMatrix VariableId) : IgnoresJournal (propagateMarkov weighted matrix) := by
  intro state journal
  have same : Narrowing.domainOf { state with journal } = state.domainOf := rfl
  simp only [propagateMarkov, same]
  split
  · exact .ok () state journal
  · split
    · exact .ok () state journal
    · exact ignoresJournal_restrict weighted ∅ state journal

/-- No run of a propagator reads the journal. -/
theorem Propagator.ignoresJournal_run (propagator : Propagator) :
    IgnoresJournal propagator.run := by
  refine ignoresJournal_bind (fun state journal => ?_) fun _ => ?_
  · exact .ok () { state with runs := state.runs + 1 } journal
  · cases propagator with
    | relation comparison left right => exact comparison.ignoresJournal_propagate left right
    | reified comparison left right result =>
      exact comparison.ignoresJournal_propagateReified left right result
    | ring operation left right result =>
      exact ignoresJournal_bind (ignoresJournal_domain _) fun _ =>
        ignoresJournal_bind (ignoresJournal_domain _) fun _ => ignoresJournal_restrict _ _
    | markov weighted matrix => exact ignoresJournal_propagateMarkov weighted matrix

/-! ### Cycles -/

namespace Network

variable (network : Network)

/-- So it is with the run of a propagator by its index. -/
theorem ignoresJournal_runPropagator (index : Nat) :
    IgnoresJournal (network.runPropagator index) := by
  rw [runPropagator]
  split
  · exact ignoresJournal_pure ()
  · exact Propagator.ignoresJournal_run _

/-- So it is with those attached to a variable. -/
theorem ignoresJournal_runAttached (threshold : Nat) (variableId : VariableId) :
    IgnoresJournal (network.runAttached threshold variableId) := by
  simp only [runAttached]
  split
  · exact ignoresJournal_pure ()
  · exact ignoresJournal_forM network.ignoresJournal_runPropagator _

/-- A cycle is noted in the journal, which the cycles to come do not read. -/
theorem ignoresJournal_settle (threshold cycle : Nat) :
    IgnoresJournal (network.settle threshold cycle) := by
  have runs : ∀ threshold cycle (state : Narrowing) (journal : Journal),
      Alike (state.changes.order.toList.forM (network.runAttached threshold)
        (state.startCycle cycle)) (state.changes.order.toList.forM (network.runAttached threshold)
          (Narrowing.startCycle { state with journal } cycle)) :=
            fun threshold cycle state journal =>
    ignoresJournal_forM (network.ignoresJournal_runAttached threshold) _ (state.startCycle cycle)
      (journal.note (.cycleStarted cycle state.changes.order.size))
  intro state journal
  have cycles := network.cycles threshold cycle state
  generalize network.settle threshold cycle state = result at cycles ⊢
  induction cycles generalizing journal with
  | @quiet threshold cycle state unchanged =>
    have settled := network.settle_eq threshold cycle { state with journal }
    rw [if_pos unchanged] at settled
    rw [settled]
    exact .ok () _ journal
  | @again threshold cycle state middle result changed ran later inductionHypothesis =>
    obtain ⟨noted, ranOther⟩ := (ran ▸ runs threshold cycle state journal).exists_ok
    have settled := network.settle_eq threshold cycle { state with journal }
    rw [if_neg changed, ranOther] at settled
    rw [settled]
    exact inductionHypothesis noted
  | @failed threshold cycle state final variableId changed ran =>
    obtain ⟨noted, ranOther⟩ := (ran ▸ runs threshold cycle state journal).exists_error
    have settled := network.settle_eq threshold cycle { state with journal }
    rw [if_neg changed, ranOther] at settled
    rw [settled]
    exact .error variableId final noted

/-- What the propagation of a space comes to does not depend on the journal. -/
theorem ignoresJournal_fixpoint (changed : Option VariableId) :
    IgnoresJournal (network.fixpoint changed) := by
  intro state journal
  cases changed with
  | some variableId =>
    exact network.ignoresJournal_settle 1 0
      { state with changes := state.changes.next.record variableId } journal
  | none =>
    have ran := ignoresJournal_forM Propagator.ignoresJournal_run network.propagators.toList
      { state with changes := state.changes.next } journal
    simp only [fixpoint]
    cases firstEmpty? state.domains with
    | some variableId => exact .error variableId _ journal
    | none =>
      dsimp only
      cases came : network.propagators.toList.forM Propagator.run
        { state with changes := state.changes.next } with
      | ok _ middle =>
        obtain ⟨noted, cameOther⟩ := (came ▸ ran).exists_ok
        rw [cameOther]
        exact network.ignoresJournal_settle 2 0 middle noted
      | error variableId failed =>
        obtain ⟨noted, cameOther⟩ := (came ▸ ran).exists_error
        rw [cameOther]
        exact .error variableId failed noted

end Network

end ConstraintSearch
