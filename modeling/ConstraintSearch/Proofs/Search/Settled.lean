import ConstraintSearch.Proofs.Branching.Partition
import ConstraintSearch.Proofs.Model.Reachable
import ConstraintSearch.Proofs.Propagation.Fixpoint
import ConstraintSearch.Search.Explore

/-!
# Stable spaces

A space that the engine calls stable is quiet: every propagator of the network is at rest on its
domains. This holds of the root, and of every child that a value strategy makes of a stable space.
The one propagator that a stable space can leave with something to do is a strict comparison of a
variable with itself.
-/

namespace ConstraintSearch

/-! ### What the engine does to a space -/

/-- The space of a verdict, if it is stable. -/
def Verdict.space? : Verdict → Option Space
  | .stable space => some space
  | _ => none

namespace Engine

variable {σ : Type} {engine final : Engine σ} {network : Network} {observer : Observer σ}
  {space settled : Space}

/-- A look at a space changes nothing that its propagation starts from. -/
theorem narrowing_observeBefore (engine : Engine σ) (observer : Observer σ) (space : Space) :
    (engine.observeBefore observer space).2.narrowing space = engine.narrowing space :=
  rfl

/-- It notes no change of a variable. -/
theorem changes_observeBefore (engine : Engine σ) (observer : Observer σ) (space : Space) :
    (engine.observeBefore observer space).2.changes = engine.changes :=
  rfl

/-- Neither does the look afterwards. -/
theorem changes_observeAfter (engine : Engine σ) (observer : Observer σ) (space : Space) :
    (engine.observeAfter observer space).2.changes = engine.changes :=
  rfl

/-- A verdict has a space only if it is stable. -/
theorem stable_of_space?
    (found : (engine.propagate network observer space).1.space? = some settled) :
    ∃ final, engine.propagate network observer space = (.stable settled, final) := by
  cases outcome : engine.propagate network observer space with
  | mk verdict final =>
    rw [outcome] at found
    cases verdict with
    | stable space =>
      cases found
      exact ⟨final, rfl⟩
    | rejected => cases found
    | aborted => cases found
    | faulted fault => cases found

/-- A stable space comes out of the fixpoint computation, which starts in the domains of the space
that was propagated. -/
theorem exists_fixpoint_of_stable
    (stable : engine.propagate network observer space = (.stable settled, final)) :
    ∃ state, network.fixpoint space.changed (engine.narrowing space) = .ok () state ∧
      settled = { space with domains := state.domains }.updateUnsolved := by
  have start := engine.narrowing_observeBefore observer space
  rw [propagate] at stable
  split at stable
  · cases stable
  · cases stable
  · rename_i observed before
    rw [before] at start
    rw [start] at stable
    split at stable
    · cases stable
    · rename_i state ran
      dsimp only at stable
      split at stable
      · cases stable
      · cases stable
      · cases stable
        exact ⟨state, ran, rfl⟩

/-- Only the fixpoint computation notes changes, whatever comes of the propagation. -/
theorem changes_propagate (engine : Engine σ) (network : Network) (observer : Observer σ)
    (space : Space) : (engine.propagate network observer space).2.changes = engine.changes ∨
      (engine.propagate network observer space).2.changes =
        (Narrow.after (network.fixpoint space.changed) (engine.narrowing space)).changes := by
  have start := engine.narrowing_observeBefore observer space
  have same := engine.changes_observeBefore observer space
  rw [propagate]
  split
  · rename_i stopped before
    rw [before] at same
    exact .inl same
  · rename_i fault faulted before
    rw [before] at same
    exact .inl same
  · rename_i observed before
    rw [before] at start
    rw [start, Narrow.after]
    refine .inr ?_
    split
    · rename_i failed
      rw [failed]
      rfl
    · rename_i state succeeded
      rw [succeeded]
      dsimp only
      have after := (observed.resume state).changes_observeAfter observer
        { space with domains := state.domains }.updateUnsolved
      split
      all_goals
        rename_i seen
        rw [seen] at after
        exact after

/-- The changes of an engine stay faithful. -/
theorem faithful_propagate (faithful : engine.changes.Faithful) (observer : Observer σ)
    (space : Space) : (engine.propagate network observer space).2.changes.Faithful := by
  rcases engine.changes_propagate network observer space with same | same
  · exact same ▸ faithful
  · rw [same]
    exact Network.faithful_fixpoint faithful

/-- Propagating a space leaves the changes faithful, whatever the verdict is. -/
theorem faithful_of_propagate {verdict : Verdict}
    (propagated : engine.propagate network observer space = (verdict, final))
    (faithful : engine.changes.Faithful) : final.changes.Faithful := by
  have after := @faithful_propagate _ engine network faithful observer space
  rwa [propagated] at after

/-- The engines that come up while spaces of a network are propagated, in any order. What is counted
and noted in between does not matter. -/
inductive Reached (network : Network) : Engine σ → Prop
  | initial (observed : σ) (journal : Journal) : Reached network (.initial network observed journal)
  | propagated {engine : Engine σ} (reached : Reached network engine) (observer : Observer σ)
      (space : Space) :
    Reached network (engine.propagate network observer space).2
  | noted {engine other : Engine σ} (reached : Reached network engine)
      (same : other.changes = engine.changes) :
    Reached network other

/-- The changes of every reached engine are faithful. -/
theorem Reached.faithful (reached : engine.Reached network) : engine.changes.Faithful := by
  induction reached with
  | initial observed journal => exact Changes.faithful_forVariables _
  | propagated reached observer space inductionHypothesis =>
    exact faithful_propagate inductionHypothesis observer space
  | noted reached same inductionHypothesis => exact same ▸ inductionHypothesis

end Engine

/-! ### Propagation without an observer -/

namespace Engine

variable {engine final : Engine Unit} {network : Network} {space : Space}

/-- Without an observer, a space on which the fixpoint is reached is stable. -/
theorem propagate_silent_of_ok {state : Narrowing}
    (ran : network.fixpoint space.changed (engine.narrowing space) = .ok () state) :
    (engine.propagate network .silent space).1 =
      .stable { space with domains := state.domains }.updateUnsolved := by
  have observed : engine.observeBefore .silent space = (.goOn, engine) := rfl
  simp only [propagate, observed, ran]
  rfl

/-- One on which it fails is rejected. -/
theorem propagate_silent_of_error {state : Narrowing} {variableId : VariableId}
    (failed : network.fixpoint space.changed (engine.narrowing space) = .error variableId state) :
    (engine.propagate network .silent space).1 = .rejected := by
  have observed : engine.observeBefore .silent space = (.goOn, engine) := rfl
  simp only [propagate, observed, failed]

/-- Without an observer nothing comes of a space but that it is stable or rejected. -/
theorem stable_or_rejected_of_silent {verdict : Verdict}
    (propagated : engine.propagate network .silent space = (verdict, final)) :
    (∃ settled, verdict = .stable settled) ∨ verdict = .rejected := by
  have verdict_eq : (engine.propagate network .silent space).1 = verdict := by rw [propagated]
  cases ran : network.fixpoint space.changed (engine.narrowing space) with
  | ok result state => exact .inl ⟨_, verdict_eq.symm.trans (propagate_silent_of_ok ran)⟩
  | error variableId state => exact .inr (verdict_eq.symm.trans (propagate_silent_of_error ran))

/-- Only an observer can abort the search. -/
theorem propagate_silent_ne_aborted :
    engine.propagate network .silent space ≠ (.aborted, final) := by
  intro propagated
  rcases stable_or_rejected_of_silent propagated with ⟨_, impossible⟩ | impossible <;>
    cases impossible

/-- No fault comes up, as nobody is asked. -/
theorem propagate_silent_ne_faulted {fault : Fault} :
    engine.propagate network .silent space ≠ (.faulted fault, final) := by
  intro propagated
  rcases stable_or_rejected_of_silent propagated with ⟨_, impossible⟩ | impossible <;>
    cases impossible

end Engine

/-! ### Quiet domains -/

namespace Network

/-- Domains with a value for every variable on which every propagator is at rest. -/
structure Quiet (network : Network) (domains : Table Domain) : Prop where
  size_eq : domains.size = network.vars.size
  nonempty : ∀ variableId < network.vars.size, (familyOf domains variableId).Nonempty
  subset : ∀ variableId, familyOf domains variableId ⊆ network.vars.domainOf variableId
  rest : ∀ index, network.AtRest (familyOf domains) index

variable {network : Network}

/-- Where all propagators are settled, all of them are at rest. -/
theorem Settles.quiet {state : Narrowing} (settles : network.Settles state) :
    network.Quiet state.domains :=
  ⟨settles.live.size_eq, settles.live.nonempty, settles.live.subset, settles.rest⟩

/-- Quiet domains are settled in every state that has noted its changes faithfully. -/
theorem Quiet.settles {state : Narrowing} (quiet : network.Quiet state.domains)
    (faithful : state.changes.Faithful) : network.Settles state :=
  ⟨⟨quiet.size_eq, quiet.nonempty, quiet.subset, faithful⟩, quiet.rest⟩

/-- On quiet domains a propagator keeps them or orders a variable before itself. -/
theorem Quiet.keeps_or_ordersItself {domains : Table Domain} (quiet : network.Quiet domains)
    {propagator : Propagator} (inside : propagator ∈ network.propagators.toList) :
    propagator.Keeps (familyOf domains) ∨ propagator.OrdersItself (familyOf domains) := by
  obtain ⟨index, found⟩ := Table.mem_toList_iff.mp inside
  exact quiet.rest index propagator found

/-- On quiet domains a propagator has nothing to do, unless it demands that a variable is ordered
strictly before itself. -/
theorem Quiet.rests_iff (coherent : network.Coherent) {domains : Table Domain}
    (quiet : network.Quiet domains) {propagator : Propagator}
    (inside : propagator ∈ network.propagators.toList) :
    propagator.Rests domains ↔ ¬ propagator.OrdersItself (familyOf domains) := by
  obtain ⟨index, found⟩ := Table.mem_toList_iff.mp inside
  have nonempty : ∀ variableId ∈ propagator.scope, (familyOf domains variableId).Nonempty :=
    fun variableId reads => quiet.nonempty variableId (coherent.scope_lt found variableId reads)
  rw [Propagator.rests_iff_keeps nonempty]
  constructor
  · intro keeps demands
    exact Propagator.not_keeps_of_ordersItself nonempty demands keeps
  · exact (quiet.keeps_or_ordersItself inside).resolve_right

/-- A stable root is quiet. -/
theorem quiet_of_root (coherent : network.Coherent) {σ : Type} {engine final : Engine σ}
    {observer : Observer σ} {settled : Space}
    (stable : engine.propagate network observer (.root network) = (.stable settled, final))
    (faithful : engine.changes.Faithful) : network.Quiet settled.domains := by
  obtain ⟨state, ran, rfl⟩ := Engine.exists_fixpoint_of_stable stable
  exact (settles_of_root coherent rfl faithful ran).quiet

/-- A stable child of a quiet space is quiet, since propagation starts from the divided variable. -/
theorem quiet_of_child (coherent : network.Coherent) {σ : Type} {engine final : Engine σ}
    {observer : Observer σ} {parent settled : Space} {variableId : VariableId} {domain : Domain}
    (quiet : network.Quiet parent.domains) (faithful : engine.changes.Faithful)
    (nonempty : domain.Nonempty) (subset : domain ⊆ parent.domainOf variableId)
    (unsolved : ¬ (parent.domainOf variableId).isSolved)
    (stable : engine.propagate network observer (parent.child variableId domain) =
      (.stable settled, final)) : network.Quiet settled.domains := by
  obtain ⟨state, ran, rfl⟩ := Engine.exists_fixpoint_of_stable stable
  have inside : variableId < parent.domains.size :=
    Table.lt_size_of_nonempty (nonempty.of_subset subset)
  have lookup : ∀ other, (engine.narrowing (parent.child variableId domain)).domainOf other =
      if other = variableId then domain else parent.domainOf other := fun other =>
    Table.getD_set other domain ∅ inside
  have settled : network.Settles ⟨parent.domains, engine.changes, 0, {}⟩ :=
    Quiet.settles quiet faithful
  refine (settles_of_child coherent settled (Table.size_set _ _ _) faithful ?_ ?_ unsolved
    (fun other different => ?_) ran).quiet
  · rw [lookup, if_pos rfl]
    exact nonempty
  · rw [lookup, if_pos rfl]
    exact subset
  · rw [lookup, if_neg different]
    rfl

end Network

/-! ### Stable spaces -/

/-- The children that a value strategy makes of a space: the first choice, and then, with the value
by which it divided the domain, the second one. -/
inductive Space.Offspring (parent : Space) : Space → Prop
  | first {γ : Type} [Generator γ] {strategy : ValueStrategy VariableId} {variableId : VariableId}
      {generator next : γ}
    {part : SmallerPart parent variableId}
    (divided : strategy.divide? variableId parent 0 generator = some (part, next)) :
    Offspring parent (parent.child variableId part.domain)
  | second {γ : Type} [Generator γ] {strategy : ValueStrategy VariableId} {variableId : VariableId}
    {generator next later last : γ} {part : SmallerPart parent variableId}
    {rest : SmallerPart (parent.branched part.lastChosen) variableId}
    (divided : strategy.divide? variableId parent 0 generator = some (part, next))
    (again : strategy.divide? variableId (parent.branched part.lastChosen) 1 later =
      some (rest, last)) :
    Offspring parent ((parent.branched part.lastChosen).child variableId rest.domain)

/-- The spaces that the engine calls stable: the root, and the children of stable spaces. -/
inductive Network.Stable (network : Network) : Space → Prop
  | root {σ : Type} {engine final : Engine σ} {observer : Observer σ} {settled : Space}
      (reached : engine.Reached network)
    (stable : engine.propagate network observer (.root network) = (.stable settled, final)) :
      Stable network settled
  | child {σ : Type} {engine final : Engine σ} {observer : Observer σ}
      {parent child settled : Space}
    (parentStable : Stable network parent) (offspring : parent.Offspring child)
      (reached : engine.Reached network)
    (stable : engine.propagate network observer child = (.stable settled, final)) :
      Stable network settled

namespace Network

variable {network : Network}

/-- So is the stable space of any child that a value strategy makes. -/
theorem quiet_of_offspring (coherent : network.Coherent) {σ : Type} {engine final : Engine σ}
    {observer : Observer σ} {parent child settled : Space} (quiet : network.Quiet parent.domains)
    (offspring : parent.Offspring child) (faithful : engine.changes.Faithful)
    (stable : engine.propagate network observer child = (.stable settled, final)) :
    network.Quiet settled.domains := by
  cases offspring with
  | first divided =>
    have divided := ValueStrategy.divide_of_divide? divided
    obtain ⟨_, split, _⟩ := ValueStrategy.givesRest_of_divide divided
    exact quiet_of_child coherent quiet faithful split.first_nonempty split.subset
      (ValueStrategy.not_isSolved_of_divide divided) stable
  | @second _ _ _ _ _ _ later _ part _ divided again =>
    have divided := ValueStrategy.divide_of_divide? divided
    obtain ⟨rest, split, gives⟩ :=
      (ValueStrategy.givesRest_of_divide divided).exists_divide?
        (rfl : (parent.branched part.lastChosen).domainOf _ = _) rfl
    have same := again.symm.trans (gives later)
    cases same
    have parentQuiet : network.Quiet (parent.branched part.lastChosen).domains := quiet
    have unsolved := ValueStrategy.not_isSolved_of_divide divided
    exact quiet_of_child coherent parentQuiet faithful split.second_nonempty split.second_subset
      unsolved stable

/-- Stable spaces are quiet. -/
theorem Stable.quiet (coherent : network.Coherent) {space : Space} (stable : network.Stable space) :
    network.Quiet space.domains := by
  induction stable with
  | root reached stable => exact quiet_of_root coherent stable reached.faithful
  | child parentStable offspring reached stable inductionHypothesis =>
    exact quiet_of_offspring coherent inductionHypothesis offspring reached.faithful stable

end Network

/-- **Fixpoint law.** In every stable space of a prepared model, running a propagator once more
succeeds and changes no domain, unless the propagator compares a variable strictly with itself. -/
theorem Workspace.Reachable.rests_iff_not_ordersItself {workspace : Workspace} {network : Network}
    (reachable : workspace.Reachable) (prepared : workspace.model.network = some network)
    {space : Space}
    (stable : network.Stable space) {propagator : Propagator}
    (inside : propagator ∈ network.propagators.toList) :
    propagator.Rests space.domains ↔ ¬ propagator.OrdersItself (familyOf space.domains) := by
  have coherent := (reachable.builtFor prepared).coherent
  exact (stable.quiet coherent).rests_iff coherent inside

/-- A variable from 0 to 2 that is declared to come before itself. -/
def Workspace.selfOrdered : Workspace :=
  .ofRequests
    [.declareRange "X" 0 2, .declareConstraint (.compare .lt) [.named "X", .named "X"] none,
      .prepare]

/-- The variable and its constraint can be prepared. -/
theorem Workspace.isPrepared_selfOrdered : selfOrdered.model.isPrepared := by
  decide +kernel

/-- The root of the search is stable although the next run of the comparison would take the last
value away. -/
theorem Workspace.exists_stable_not_rests :
    ∃ network space, selfOrdered.model.network = some network ∧ network.Stable space ∧
      ∃ propagator ∈ network.propagators.toList, ¬ propagator.Rests space.domains := by
  refine ⟨selfOrdered.model.network.get isPrepared_selfOrdered, ?_⟩
  have isStable :
      ((Engine.initial (selfOrdered.model.network.get isPrepared_selfOrdered) () {}).propagate
        (selfOrdered.model.network.get isPrepared_selfOrdered) .silent
        (.root (selfOrdered.model.network.get isPrepared_selfOrdered))).1.space?.isSome := by
    decide +kernel
  have only : (selfOrdered.model.network.get isPrepared_selfOrdered).propagators.toList =
      [.relation .lt 0 0] := rfl
  have prepared : selfOrdered.model.network = some
      (selfOrdered.model.network.get isPrepared_selfOrdered) :=
    Option.eq_some_of_isSome _
  generalize selfOrdered.model.network.get isPrepared_selfOrdered = network
    at isStable only prepared
  obtain ⟨space, found⟩ := Option.isSome_iff_exists.mp isStable
  obtain ⟨final, propagated⟩ := Engine.stable_of_space? found
  have stable : network.Stable space := .root (.initial () {}) propagated
  have inside : .relation .lt 0 0 ∈ network.propagators.toList := only ▸ List.mem_cons_self
  refine ⟨space, prepared, stable, _, inside, ?_⟩
  rw [(reachable_ofRequests _).rests_iff_not_ordersItself prepared stable inside, not_not]
  exact ⟨rfl, rfl⟩

end ConstraintSearch
