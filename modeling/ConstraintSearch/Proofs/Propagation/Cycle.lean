import ConstraintSearch.Proofs.Network.Attachment
import ConstraintSearch.Proofs.Propagation.Idempotence
import ConstraintSearch.Search.Fixpoint

/-!
# Cycles of propagation

While a cycle runs, every propagator is at rest, or still to be run in this cycle, or pending for
the next one. A run puts its propagator to rest, except that an operation which changed its result
is pending at once: the result is attached to the other propagators of the same operation as well. A
propagator that loses its rest because a variable changed reads that variable together with the
propagator that changed it, so the variable is attached to two propagators and no threshold keeps it
from running. When a cycle changes nothing, all propagators are therefore at rest.
-/

namespace ConstraintSearch

namespace Network

/-- What propagation relies on in a network: its propagators read variables that exist and are
attached to those, and no operation is the only propagator that reads its result. -/
structure Coherent (network : Network) : Prop where
  attached_eq : network.attached = attachedPropagators network.vars network.propagators
  scope_lt : ∀ {index propagator}, network.propagators.get? index = some propagator →
    ∀ variableId ∈ propagator.scope, variableId < network.vars.size
  accompanied : ∀ {index operation left right result},
    network.propagators.get? index = some (.ring operation left right result) →
      ∃ other companion, other ≠ index ∧ network.propagators.get? other = some companion ∧
        result ∈ companion.scope

/-- The domains are parts of the initial ones, all of them with values, and changes are noted
faithfully. -/
structure Live (network : Network) (state : Narrowing) : Prop where
  size_eq : state.domains.size = network.vars.size
  nonempty : ∀ variableId < network.vars.size, (state.domainOf variableId).Nonempty
  subset : ∀ variableId, state.domainOf variableId ⊆ network.vars.domainOf variableId
  faithful : state.changes.Faithful

/-- The propagator at the place keeps the domains, or orders a variable before itself. -/
def AtRest (network : Network) (family : Family) (index : Nat) : Prop :=
  ∀ propagator, network.propagators.get? index = some propagator →
    propagator.Keeps family ∨ propagator.OrdersItself family

/-- The propagator is attached to one of the variables together with at least as many as the
threshold. -/
def Pending (network : Network) (threshold : Nat) (variableIds : List VariableId) (index : Nat) :
    Prop :=
  ∃ variableId ∈ variableIds, index ∈ network.attached.getD variableId [] ∧
    threshold ≤ (network.attached.getD variableId []).length

/-- Every propagator is at rest, or scheduled, or pending for the next cycle. -/
def Covered (network : Network) (state : Narrowing) (scheduled : Nat → Prop) : Prop :=
  ∀ index, network.AtRest state.domainOf index ∨ scheduled index ∨
    network.Pending 2 state.changes.order.toList index

variable {network : Network} {state final : Narrowing}

/-- Narrowed domains have values and changes to be noted as before. -/
theorem Live.of_narrows (live : network.Live state) (narrows : Narrows state final) :
    network.Live final where
  size_eq := narrows.size_eq.trans live.size_eq
  nonempty variableId inside := narrows.nonempty (live.nonempty variableId inside)
  subset variableId := Domain.Subset.trans (narrows.subset variableId) (live.subset variableId)
  faithful := narrows.faithful live.faithful

/-- Whether a propagator is at rest depends on the domains in its scope. -/
theorem AtRest.congr {first second : Family} {index : Nat} (rest : network.AtRest first index)
    (agree : ∀ propagator, network.propagators.get? index = some propagator →
      ∀ variableId ∈ propagator.scope, first variableId = second variableId) :
        network.AtRest second index := by
  intro propagator found
  have same := agree propagator found
  exact (rest propagator found).imp (fun keeps => keeps.congr same) fun demands =>
    demands.congr same

/-- A propagator that reads one of the variables together with another one is pending. -/
theorem Pending.of_two (coherent : network.Coherent) {index other : Nat}
    {propagator companion : Propagator} {variableId : VariableId} {variableIds : List VariableId}
    (found : network.propagators.get? index = some propagator)
    (foundOther : network.propagators.get? other = some companion) (different : other ≠ index)
    (reads : variableId ∈ propagator.scope) (otherReads : variableId ∈ companion.scope)
    (unsolved : ¬ (network.vars.domainOf variableId).isSolved) (listed : variableId ∈ variableIds) :
    network.Pending 2 variableIds index := by
  have inside := coherent.scope_lt found variableId reads
  have attached : index ∈ network.attached.getD variableId [] := by
    rw [coherent.attached_eq]
    exact (mem_attachedPropagators inside).mpr ⟨propagator, found, reads, unsolved⟩
  have otherAttached : other ∈ network.attached.getD variableId [] := by
    rw [coherent.attached_eq]
    exact (mem_attachedPropagators inside).mpr ⟨companion, foundOther, otherReads, unsolved⟩
  exact ⟨variableId, listed, attached, two_le_length_of_mem otherAttached attached different⟩

/-- A variable that changes was not fixed from the start. -/
theorem Live.not_isSolved_of_changed (live : network.Live state) (narrows : Narrows state final)
    {variableId : VariableId} (inside : variableId < network.vars.size)
    (changed : final.domainOf variableId ≠ state.domainOf variableId) :
    ¬ (network.vars.domainOf variableId).isSolved := by
  intro solved
  obtain ⟨only, solved⟩ := Domain.isSolved_iff.mp solved
  have initial := Domain.eq_of_subset_of_solvedValue? (live.nonempty variableId inside)
    (live.subset variableId) solved
  exact changed (narrows.eq_of_solvedValue? (initial ▸ solved))

/-- The variables of every propagator have values. -/
theorem Live.nonempty_scope (live : network.Live state) (coherent : network.Coherent) {index : Nat}
    {propagator : Propagator} (found : network.propagators.get? index = some propagator) :
    ∀ variableId ∈ propagator.scope, (state.domainOf variableId).Nonempty := fun variableId reads =>
  live.nonempty variableId (coherent.scope_lt found variableId reads)

/-- A propagator that has run is at rest, or pending if it is an operation that changed its
result. -/
theorem atRest_or_pending_of_run (coherent : network.Coherent) (live : network.Live state)
    {index : Nat} {propagator : Propagator}
    (found : network.propagators.get? index = some propagator)
    (ran : propagator.run state = .ok () final) :
    network.AtRest final.domainOf index ∨ network.Pending 2 final.changes.order.toList index := by
  have nonempty := live.nonempty_scope coherent found
  have narrows := Propagator.narrows_of_run nonempty ran
  have ofKeeps : propagator.Keeps final.domainOf ∨ propagator.OrdersItself final.domainOf →
      network.AtRest final.domainOf index := by
    intro settled other foundOther
    rw [found] at foundOther
    cases foundOther
    exact settled
  -- An operation narrows only its result, and when that is also an operand a second run may remove
  -- more of it. Every other propagator is done after one run.
  cases notRing : propagator.isRing with
  | false =>
    refine .inl (ofKeeps (Classical.or_iff_not_imp_right.mpr fun possible => ?_))
    exact Propagator.keeps_of_run_of_not_ordersItself notRing nonempty ran possible
  | true =>
    cases propagator with
    | ring operation left right result =>
      by_cases same : final.domainOf result = state.domainOf result
      · have sameDomains : final.domainOf = state.domainOf := by
          funext variableId
          by_cases isResult : variableId = result
          · rw [isResult, same]
          · exact Propagator.eq_of_run_ring nonempty ran isResult
        have keeps := Propagator.keeps_of_run nonempty ran sameDomains
        exact .inl (ofKeeps (.inl (sameDomains ▸ keeps)))
      -- The result is read by the companion of the operation too, so a change of it puts the
      -- operation back on the schedule.
      · have reads : result ∈ (Propagator.ring operation left right result).scope := by simp
        obtain ⟨other, companion, different, foundOther, otherReads⟩ := coherent.accompanied found
        have unsolved :=
          live.not_isSolved_of_changed narrows (coherent.scope_lt found result reads) same
        exact .inr (.of_two coherent found foundOther different reads otherReads unsolved
          (narrows.noted live.faithful same))
    | relation comparison left right => cases notRing
    | reified comparison left right result => cases notRing
    | markov weighted matrix => cases notRing

/-- A run of one propagator takes it from the schedule. -/
theorem Covered.of_runPropagator (coherent : network.Coherent) {scheduled : Nat → Prop}
    {index : Nat} (live : network.Live state) (covered : network.Covered state scheduled)
    (ran : network.runPropagator index state = .ok () final) :
    Narrows state final ∧ network.Covered final fun other => scheduled other ∧ other ≠ index := by
  cases found : network.propagators.get? index with
  | none =>
    simp only [runPropagator, found] at ran
    cases ran
    refine ⟨Narrows.refl _, fun other => ?_⟩
    by_cases same : other = index
    · refine .inl fun propagator foundOther => ?_
      rw [same, found] at foundOther
      cases foundOther
    · exact (covered other).imp_right (Or.imp_left fun listed => ⟨listed, same⟩)
  | some propagator =>
    simp only [runPropagator, found] at ran
    have nonempty := live.nonempty_scope coherent found
    have narrows := Propagator.narrows_of_run nonempty ran
    refine ⟨narrows, fun other => ?_⟩
    by_cases same : other = index
    · subst same
      exact (atRest_or_pending_of_run coherent live found ran).imp_right .inr
    rcases covered other with rest | listed | ⟨variableId, inOrder, attached, enough⟩
    -- A propagator at rest stays there as long as nothing that it reads is changed.
    · by_cases agree : ∀ companion, network.propagators.get? other = some companion →
          ∀ variableId ∈ companion.scope, state.domainOf variableId = final.domainOf variableId
      · exact .inl (rest.congr agree)
      · -- The variable that the other propagator lost its rest by is read by both.
        simp only [Classical.not_forall] at agree
        obtain ⟨companion, foundOther, variableId, otherReads, changed⟩ := agree
        have reads : variableId ∈ propagator.scope := Classical.byContradiction fun outside =>
          changed (Propagator.elsewhere_of_run nonempty ran outside).symm
        have unsolved := live.not_isSolved_of_changed narrows
          (coherent.scope_lt found variableId reads) (Ne.symm changed)
        exact .inr (.inr (.of_two coherent foundOther found (Ne.symm same) otherReads reads unsolved
          (narrows.noted live.faithful (Ne.symm changed))))
    · exact .inr (.inl ⟨listed, same⟩)
    · exact .inr (.inr ⟨variableId, narrows.kept inOrder, attached, enough⟩)

/-- A list of steps that succeeds starts with a step that succeeds. -/
theorem exists_of_forM_cons {α : Type} {step : α → Narrow Unit} {head : α} {rest : List α}
    (ran : (head :: rest).forM step state = .ok () final) :
    ∃ middle, step head state = .ok () middle ∧ rest.forM step middle = .ok () final := by
  change (step head >>= fun _ => rest.forM step) state = .ok () final at ran
  simp only [Bind.bind, EStateM.bind] at ran
  cases first : step head state with
  | ok result middle =>
    rw [first] at ran
    exact ⟨middle, rfl, ran⟩
  | error variableId failed =>
    rw [first] at ran
    cases ran

/-- After the runs of some propagators, these need no further run, unless a change is noted. The
induction keeps that the others are at rest or scheduled. -/
theorem Covered.of_forM_runPropagator (coherent : network.Coherent) {scheduled : Nat → Prop}
    {indices : List Nat} (live : network.Live state) (covered : network.Covered state scheduled)
    (ran : indices.forM network.runPropagator state = .ok () final) :
    Narrows state final ∧ network.Covered final fun other => scheduled other ∧ other ∉ indices := by
  induction indices generalizing state scheduled with
  | nil =>
    cases ran
    refine ⟨Narrows.refl _, fun other => ?_⟩
    exact (covered other).imp_right (Or.imp_left fun listed => ⟨listed, List.not_mem_nil⟩)
  | cons index rest inductionHypothesis =>
    obtain ⟨middle, first, restRan⟩ := exists_of_forM_cons ran
    obtain ⟨narrows, middleCovered⟩ := covered.of_runPropagator coherent live first
    obtain ⟨restNarrows, finalCovered⟩ :=
      inductionHypothesis (live.of_narrows narrows) middleCovered restRan
    refine ⟨narrows.trans restNarrows, fun other => ?_⟩
    refine (finalCovered other).imp_right (Or.imp_left ?_)
    rintro ⟨⟨listed, different⟩, unlisted⟩
    exact ⟨listed, fun inList => (List.mem_cons.mp inList).elim different unlisted⟩

/-- A changed variable that was dealt with leaves the propagators of the other changed variables to
be run. -/
theorem Covered.of_runAttached (coherent : network.Coherent) {threshold : Nat}
    {variableId : VariableId} {rest : List VariableId} (live : network.Live state)
    (covered : network.Covered state (network.Pending threshold (variableId :: rest)))
    (ran : network.runAttached threshold variableId state = .ok () final) :
    Narrows state final ∧ network.Covered final (network.Pending threshold rest) := by
  rw [runAttached] at ran
  split at ran
  · rename_i few
    cases ran
    refine ⟨Narrows.refl _, fun index => ?_⟩
    refine (covered index).imp_right (Or.imp_left ?_)
    rintro ⟨other, inList, attached, enough⟩
    rcases List.mem_cons.mp inList with rfl | inRest
    · exact absurd enough (Nat.not_le.mpr few)
    · exact ⟨other, inRest, attached, enough⟩
  · obtain ⟨narrows, finalCovered⟩ := covered.of_forM_runPropagator coherent live ran
    refine ⟨narrows, fun index => ?_⟩
    refine (finalCovered index).imp_right (Or.imp_left ?_)
    rintro ⟨⟨other, inList, attached, enough⟩, unlisted⟩
    rcases List.mem_cons.mp inList with rfl | inRest
    · exact absurd attached unlisted
    · exact ⟨other, inRest, attached, enough⟩

/-- So it is after the runs of those attached to some variables. -/
theorem Covered.of_forM_runAttached (coherent : network.Coherent) {threshold : Nat}
    {variableIds : List VariableId} (live : network.Live state)
    (covered : network.Covered state (network.Pending threshold variableIds))
    (ran : variableIds.forM (network.runAttached threshold) state = .ok () final) :
    Narrows state final ∧ network.Covered final (network.Pending threshold []) := by
  induction variableIds generalizing state with
  | nil =>
    cases ran
    exact ⟨Narrows.refl _, covered⟩
  | cons variableId rest inductionHypothesis =>
    obtain ⟨middle, first, restRan⟩ := exists_of_forM_cons ran
    obtain ⟨narrows, middleCovered⟩ := covered.of_runAttached coherent live first
    obtain ⟨restNarrows, finalCovered⟩ :=
      inductionHypothesis (live.of_narrows narrows) middleCovered restRan
    exact ⟨narrows.trans restNarrows, finalCovered⟩

/-! ### From cycle to cycle -/

theorem not_pending_nil {threshold index : Nat} : ¬ network.Pending threshold [] index := by
  rintro ⟨variableId, inNil, _⟩
  exact List.not_mem_nil inNil

/-- A new cycle starts with values for all variables. -/
theorem Live.startCycle (live : network.Live state) (cycle : Nat) :
    network.Live (state.startCycle cycle) where
  size_eq := live.size_eq
  nonempty := live.nonempty
  subset := live.subset
  faithful := live.faithful.next

/-- Every propagator is at rest or pending for a cycle with the threshold. -/
def Ready (network : Network) (threshold : Nat) (state : Narrowing) : Prop :=
  ∀ index, network.AtRest state.domainOf index ∨
    network.Pending threshold state.changes.order.toList index

/-- The domains are live, and every propagator is at rest on them. -/
structure Settles (network : Network) (state : Narrowing) : Prop where
  live : network.Live state
  rest : ∀ index, network.AtRest state.domainOf index

/-- Cycles that end leave every propagator at rest. -/
theorem settles_of_settle (coherent : network.Coherent) {threshold cycle : Nat}
    (live : network.Live state) (ready : network.Ready threshold state)
    (ran : network.settle threshold cycle state = .ok () final) : network.Settles final := by
  have cycles := network.cycles threshold cycle state
  rw [ran] at cycles
  generalize ended : EStateM.Result.ok () final = result at cycles
  induction cycles with
  | quiet unchanged =>
    cases ended
    refine ⟨⟨live.size_eq, live.nonempty, live.subset, live.faithful.next⟩, fun index => ?_⟩
    apply (ready index).resolve_right
    rw [Array.isEmpty_iff.mp unchanged]
    exact not_pending_nil
  | @again threshold cycle state middle result changed cycleRan later inductionHypothesis =>
    have started : network.Covered (state.startCycle cycle)
        (network.Pending threshold state.changes.order.toList) :=
      fun index => (ready index).imp_right .inl
    obtain ⟨narrows, covered⟩ :=
      started.of_forM_runAttached coherent (live.startCycle cycle) cycleRan
    refine inductionHypothesis ((live.startCycle cycle).of_narrows narrows) (fun index => ?_)
      (ended ▸ later.eq) ended
    exact (covered index).imp_right fun scheduled => scheduled.resolve_left not_pending_nil
  | failed changed cycleRan => cases ended

end Network

end ConstraintSearch
