import ConstraintSearch.Proofs.Model.Arrangement
import ConstraintSearch.Proofs.Propagation.Shelter
import ConstraintSearch.Proofs.Search.Settled

/-!
# The greatest fixpoint

Without an observer, propagating the root finds the greatest family of non-empty subdomains that no
propagator narrows, or rejects the root if there is none. The outcome for the declared variables
therefore depends on the constraints alone and not on their order, which decides about the order of
the propagators and about the variables that the lowering adds.
-/

namespace ConstraintSearch

namespace Network

/-- Subdomains of the initial domains, none of them empty, which no propagator narrows. -/
structure IsFixpoint (network : Network) (domains : Table Domain) : Prop where
  size_eq : domains.size = network.vars.size
  nonempty : ∀ variableId < network.vars.size, (familyOf domains variableId).Nonempty
  subset : ∀ variableId, familyOf domains variableId ⊆ network.vars.domainOf variableId
  rests : ∀ propagator ∈ network.propagators.toList, propagator.Rests domains

/-- A fixpoint of which every other one is a part, variable by variable. -/
structure IsGreatestFixpoint (network : Network) (domains : Table Domain) :
    Prop extends network.IsFixpoint domains where
  greatest : ∀ other, network.IsFixpoint other → ∀ variableId,
    familyOf other variableId ⊆ familyOf domains variableId

variable {network : Network}

/-- All propagators keep a fixpoint. -/
theorem IsFixpoint.keeps (coherent : network.Coherent) {domains : Table Domain}
    (isFixpoint : network.IsFixpoint domains) {propagator : Propagator}
    (inside : propagator ∈ network.propagators.toList) : propagator.Keeps (familyOf domains) := by
  obtain ⟨index, found⟩ := Table.mem_toList_iff.mp inside
  refine (Propagator.rests_iff_keeps fun variableId reads => ?_).mp
    (isFixpoint.rests propagator inside)
  exact isFixpoint.nonempty variableId (coherent.scope_lt found variableId reads)

/-- Quiet domains are a fixpoint if no propagator orders a variable before itself. -/
theorem Quiet.isFixpoint (coherent : network.Coherent) {domains : Table Domain}
    (quiet : network.Quiet domains)
    (possible : ∀ propagator ∈ network.propagators.toList, ∀ family,
      ¬ propagator.OrdersItself family) : network.IsFixpoint domains where
  size_eq := quiet.size_eq
  nonempty := quiet.nonempty
  subset := quiet.subset
  rests propagator inside := (quiet.rests_iff coherent inside).mpr (possible propagator inside _)

/-- The root is left with the greatest fixpoint, or rejected if there is no fixpoint. -/
theorem greatest_or_rejected (coherent : network.Coherent)
    (unweighted : ∀ propagator ∈ network.propagators.toList, propagator.isMarkov = false)
    (possible : ∀ propagator ∈ network.propagators.toList, ∀ family,
      ¬ propagator.OrdersItself family)
    {engine : Engine Unit} (faithful : engine.changes.Faithful) :
    (∃ settled, (engine.propagate network .silent (.root network)).1 = .stable settled ∧
        network.IsGreatestFixpoint settled.domains) ∨
      ((engine.propagate network .silent (.root network)).1 = .rejected ∧ ¬ ∃ domains,
        network.IsFixpoint domains) := by
  -- Propagation spares every fixpoint, so there is none if it fails, and they are all in what it
  -- leaves.
  have spares : ∀ domains, network.IsFixpoint domains → ∃ state,
      network.fixpoint none (engine.narrowing (.root network)) = .ok () state ∧
        Within (familyOf domains) state.domainOf := by
    intro domains isFixpoint
    have preserves : network.Preserves (familyOf domains) :=
      ⟨isFixpoint.nonempty, fun propagator inside weighs =>
        absurd weighs (Bool.eq_false_iff.mp (unweighted propagator inside)), fun _ inside =>
          isFixpoint.keeps coherent inside⟩
    apply exists_fixpoint_of_preserves coherent preserves (Table.size_map _ _)
    intro variableId
    have initial : (engine.narrowing (.root network)).domainOf variableId =
        network.vars.domainOf variableId :=
      (Directory.domainOf_eq_getD network.vars variableId).symm
    exact initial ▸ isFixpoint.subset variableId
  cases ran : network.fixpoint none (engine.narrowing (.root network)) with
  | ok result state =>
    refine .inl ⟨_, Engine.propagate_silent_of_ok ran, ?_⟩
    have quiet := (settles_of_root coherent rfl faithful ran).quiet
    refine ⟨quiet.isFixpoint coherent possible, fun other isFixpoint => ?_⟩
    obtain ⟨spared, again, within⟩ := spares other isFixpoint
    have same := ran.symm.trans again
    cases same
    exact within
  | error variableId state =>
    refine .inr ⟨Engine.propagate_silent_of_error ran, ?_⟩
    rintro ⟨domains, isFixpoint⟩
    obtain ⟨spared, again, _⟩ := spares domains isFixpoint
    have same := ran.symm.trans again
    cases same

/-! ### Networks of models that are alike -/

/-- The domains that a family has for so many variables. -/
def domainsOf (family : Family) (size : Nat) : Table Domain :=
  .ofList ((List.range size).map family)

theorem size_domainsOf (family : Family) (size : Nat) : (domainsOf family size).size = size := by
  simp [domainsOf, Table.size, Table.ofList]

/-- The table of a family has its domains. -/
theorem familyOf_domainsOf (family : Family) {size variableId : Nat} (inside : variableId < size) :
    familyOf (domainsOf family size) variableId = family variableId := by
  simp [domainsOf, familyOf, Table.getD, Table.get?, Table.ofList, inside]

/-- A family within the declared domains that all propagators keep is a fixpoint. -/
theorem isFixpoint_domainsOf (coherent : network.Coherent) {family : Family}
    (nonempty : ∀ variableId < network.vars.size, (family variableId).Nonempty)
    (subset : ∀ variableId < network.vars.size, family variableId ⊆
      network.vars.domainOf variableId)
    (keeps : ∀ propagator ∈ network.propagators.toList, propagator.Keeps family) :
    network.IsFixpoint (domainsOf family network.vars.size) where
  size_eq := size_domainsOf family network.vars.size
  nonempty variableId inside := by
    rw [familyOf_domainsOf family inside]
    exact nonempty variableId inside
  subset variableId := by
    by_cases inside : variableId < network.vars.size
    · rw [familyOf_domainsOf family inside]
      exact subset variableId inside
    · have outside : (domainsOf family network.vars.size).size ≤ variableId := by
        rw [size_domainsOf]
        exact Nat.le_of_not_lt inside
      intro value member
      rw [familyOf, Table.getD_of_size_le _ outside] at member
      exact absurd member Domain.not_mem_empty
  rests propagator inside := by
    obtain ⟨index, found⟩ := Table.mem_toList_iff.mp inside
    have agree : ∀ variableId ∈ propagator.scope,
        family variableId = familyOf (domainsOf family network.vars.size) variableId :=
          fun variableId reads =>
      (familyOf_domainsOf family (coherent.scope_lt found variableId reads)).symm
    apply (Propagator.rests_iff_keeps ?_).mpr ((keeps propagator inside).congr agree)
    intro variableId reads
    rw [← agree variableId reads]
    exact nonempty variableId (coherent.scope_lt found variableId reads)

variable {first second : Network} {firstModel secondModel : Model}

/-- A fixpoint of one network gives one of the other, with other domains for the variables that the
lowering added. -/
theorem IsFixpoint.exists_of_alike (firstBuilt : first.BuiltFor firstModel)
    (secondBuilt : second.BuiltFor secondModel) (alike : firstModel.Alike secondModel)
    (unweighted : ∀ variableId, second.isMarkov variableId = false)
    (possible : ¬ firstModel.OrdersItself) {domains : Table Domain}
    (isFixpoint : first.IsFixpoint domains) : ∃ others, second.IsFixpoint others ∧
      ∀ variableId < firstModel.vars.size, familyOf others variableId =
        familyOf domains variableId := by
  have nonempty : ∀ variableId < firstModel.vars.size, (familyOf domains variableId).Nonempty :=
    fun variableId declared =>
      isFixpoint.nonempty variableId (Nat.lt_of_lt_of_le declared firstBuilt.size_le)
  have consistent : firstModel.Consistent (familyOf domains) := by
    intro constraint inside
    apply firstBuilt.consistent isFixpoint.nonempty ?_ inside fun ordersItself =>
      possible ⟨constraint, inside, ordersItself⟩
    exact fun propagator placed => .inl (isFixpoint.keeps firstBuilt.coherent placed)
  obtain ⟨longer, agree, addedNonempty, keeps⟩ :=
    secondBuilt.extend unweighted ((alike.consistent_iff nonempty).mp consistent)
  rw [← alike.size_eq] at agree
  refine ⟨domainsOf longer second.vars.size,
    isFixpoint_domainsOf secondBuilt.coherent ?_ ?_ keeps, ?_⟩
  · intro variableId inside
    by_cases declared : variableId < firstModel.vars.size
    · rw [agree variableId declared]
      exact nonempty variableId declared
    · exact addedNonempty variableId (alike.size_eq ▸ Nat.le_of_not_lt declared) inside
  · intro variableId inside
    by_cases declared : variableId < firstModel.vars.size
    · rw [agree variableId declared, secondBuilt.domainOf_eq (alike.size_eq ▸ declared),
        ← alike.domainOf_eq, ← firstBuilt.domainOf_eq declared]
      exact isFixpoint.subset variableId
    · rw [secondBuilt.domainOf_full (alike.size_eq ▸ Nat.le_of_not_lt declared) inside]
      exact fun value member => Domain.mem_full.mpr (Domain.bounds member)
  · intro variableId declared
    rw [familyOf_domainsOf longer
      (Nat.lt_of_lt_of_le (alike.size_eq ▸ declared) secondBuilt.size_le)]
    exact agree variableId declared

/-- The greatest fixpoints of both networks have the same domains for the declared variables. -/
theorem IsGreatestFixpoint.eq_of_alike (firstBuilt : first.BuiltFor firstModel)
    (secondBuilt : second.BuiltFor secondModel) (alike : firstModel.Alike secondModel)
    (firstUnweighted : ∀ variableId, first.isMarkov variableId = false)
    (secondUnweighted : ∀ variableId, second.isMarkov variableId = false)
    (possible : ¬ firstModel.OrdersItself) {domains others : Table Domain}
    (isGreatest : first.IsGreatestFixpoint domains)
    (otherGreatest : second.IsGreatestFixpoint others) {variableId : VariableId}
    (declared : variableId < firstModel.vars.size) :
    familyOf domains variableId = familyOf others variableId := by
  obtain ⟨taken, takenFixpoint, takenEq⟩ :=
    isGreatest.toIsFixpoint.exists_of_alike firstBuilt secondBuilt alike secondUnweighted possible
  obtain ⟨back, backFixpoint, backEq⟩ :=
    otherGreatest.toIsFixpoint.exists_of_alike secondBuilt firstBuilt alike.symm firstUnweighted
      fun ordersItself => possible (alike.ordersItself_iff.mpr ordersItself)
  apply Domain.Subset.antisymm
  · rw [← takenEq variableId declared]
    exact otherGreatest.greatest taken takenFixpoint variableId
  · rw [← backEq variableId (alike.size_eq ▸ declared)]
    exact isGreatest.greatest back backFixpoint variableId

end Network

/-! ### The root of a prepared model -/

/-- What becomes of the root without an observer. -/
def Engine.rootVerdict (engine : Engine Unit) (network : Network) : Verdict :=
  (engine.propagate network .silent (.root network)).1

/-- Propagating the root comes to the greatest fixpoint, or there is none and the root is
rejected. -/
theorem Network.BuiltFor.greatest_or_rejected {network : Network} {model : Model}
    (built : network.BuiltFor model)
    (unweighted : ∀ variableId, network.isMarkov variableId = false)
    (possible : ¬ model.OrdersItself) {engine : Engine Unit} (reached : engine.Reached network) :
    (∃ settled, engine.rootVerdict network = .stable settled ∧
      network.IsGreatestFixpoint settled.domains) ∨
        (engine.rootVerdict network = .rejected ∧ ¬ ∃ domains, network.IsFixpoint domains) := by
  apply Network.greatest_or_rejected built.coherent ?_ ?_ reached.faithful
  · exact fun propagator inside => built.isMarkov_eq_false_of_mem unweighted inside
  · exact fun propagator inside family demands =>
      possible (built.exists_ordersItself inside demands)

/-- **Greatest fixpoint.** Without Markov strategies and without variables ordered before
themselves, the root of a prepared model becomes stable with the greatest fixpoint, or is rejected
if there is none. Declaring the same constraints in another order gives the same verdict and the
same domains of the declared variables. -/
theorem Workspace.Reachable.greatest_in_any_order {base : Workspace} (reachable : base.Reachable)
    {declarations : List Declaration}
    (overBase : ∀ declaration ∈ declarations, declaration.Over base.model) {network : Network}
    (prepared : (prepare.run (base.declaring declarations)).1 = .ok network)
    (unweighted : ∀ variableId, (base.declaring declarations).model.isMarkov variableId = false)
    (possible : ∀ constraint ∈ (base.declaring declarations).model.constraints.toList,
      ¬ constraint.OrdersItself)
    {engine : Engine Unit} (reached : engine.Reached network) :
    ((∃ settled, engine.rootVerdict network = .stable settled ∧
      network.IsGreatestFixpoint settled.domains) ∨
        (engine.rootVerdict network = .rejected ∧ ¬ ∃ domains, network.IsFixpoint domains)) ∧
      ∀ (others : List Declaration) (otherNetwork : Network) (otherEngine : Engine Unit),
        declarations.Perm others → (prepare.run (base.declaring others)).1 = .ok otherNetwork →
          otherEngine.Reached otherNetwork →
            (∃ settled otherSettled, engine.rootVerdict network = .stable settled ∧
              otherEngine.rootVerdict otherNetwork = .stable otherSettled ∧
                ∀ variableId < base.model.vars.size, settled.domainOf variableId =
                  otherSettled.domainOf variableId) ∨
            (engine.rootVerdict network = .rejected ∧
              otherEngine.rootVerdict otherNetwork = .rejected) := by
  have declares := reachable.declares overBase
  have built := (reachable.declaring declarations).builtFor_of_prepare prepared
  have plain := (reachable.declaring declarations).isMarkov_eq_false prepared unweighted
  have lax : ¬ (base.declaring declarations).model.OrdersItself :=
    fun ⟨constraint, inside, ordersItself⟩ => possible constraint inside ordersItself
  have verdict := built.greatest_or_rejected plain lax reached
  refine ⟨verdict, ?_⟩
  intro others otherNetwork otherEngine permuted otherPrepared otherReached
  have sameAccepted : base.model.Accepts others = base.model.Accepts declarations := by
    funext constraint
    simp only [Model.Accepts, permuted.mem_iff]
  have otherDeclares := reachable.declares fun declaration inside =>
    overBase declaration (permuted.mem_iff.mpr inside)
  have alike := declares.alike (sameAccepted ▸ otherDeclares)
  have otherBuilt := (reachable.declaring others).builtFor_of_prepare otherPrepared
  have otherPlain : ∀ variableId, otherNetwork.isMarkov variableId = false := by
    intro variableId
    rw [otherBuilt.isMarkov_eq, ← alike.strategy_eq, ← built.isMarkov_eq]
    exact plain variableId
  have otherLax : ¬ (base.declaring others).model.OrdersItself := fun ordersItself =>
    lax (alike.ordersItself_iff.mpr ordersItself)
  -- Of two different verdicts, the fixpoint behind the stable one would be one of the other
  -- network, which has none.
  rcases verdict with ⟨settled, isStable, isGreatest⟩ | ⟨isRejected, none⟩ <;>
    rcases otherBuilt.greatest_or_rejected otherPlain otherLax otherReached with
      ⟨otherSettled, otherStable, otherGreatest⟩ | ⟨otherRejected, otherNone⟩
  · refine .inl ⟨settled, otherSettled, isStable, otherStable, ?_⟩
    intro variableId declared
    rw [← declares.size_eq] at declared
    exact isGreatest.eq_of_alike built otherBuilt alike plain otherPlain lax otherGreatest declared
  · obtain ⟨taken, isFixpoint, _⟩ :=
      isGreatest.toIsFixpoint.exists_of_alike built otherBuilt alike otherPlain lax
    exact absurd ⟨taken, isFixpoint⟩ otherNone
  · obtain ⟨taken, isFixpoint, _⟩ :=
      otherGreatest.toIsFixpoint.exists_of_alike otherBuilt built alike.symm plain otherLax
    exact absurd ⟨taken, isFixpoint⟩ none
  · exact .inr ⟨isRejected, otherRejected⟩

/-- Four variables, the last two of which may become sums. -/
def Workspace.summands : Workspace :=
  .ofRequests [.declareRange "X" 0 3, .declareRange "Y" 0 3, .declareRange "Z" 0 6,
    .declareRange "W" 0 4]

/-- Two declarations of the same sum, whose results are made equal, and a comparison. -/
def Declaration.sums : List Declaration :=
  [⟨.plus, [.named "X", .named "Y"], some (.named "Z")⟩,
    ⟨.plus, [.named "X", .named "Y"], some (.position 3)⟩,
    ⟨.compare .lt, [.named "X", .named "Y"], none⟩]

/-- All these declarations are over the summands. -/
theorem Declaration.over_sums :
    ∀ declaration ∈ Declaration.sums, declaration.Over Workspace.summands.model := by
  simp only [sums, List.forall_mem_cons]
  refine ⟨⟨⟨rfl, rfl, nofun⟩, by decide +kernel⟩, ⟨⟨rfl, rfl, nofun⟩, by decide +kernel⟩,
    ⟨⟨rfl, rfl, nofun⟩, by decide +kernel⟩, ?_⟩
  exact fun _ none => nomatch none

/-- The sums and the comparison leave the same domains when they are declared from the last to the
first. -/
theorem Workspace.greatest_in_any_order_sums : ∃ network otherNetwork settled otherSettled,
    (prepare.run (summands.declaring Declaration.sums)).1 = .ok network ∧
      (prepare.run (summands.declaring Declaration.sums.reverse)).1 = .ok otherNetwork ∧
        (Engine.initial network () {}).rootVerdict network = .stable settled ∧
          network.IsGreatestFixpoint settled.domains ∧
            (Engine.initial otherNetwork () {}).rootVerdict otherNetwork = .stable otherSettled ∧
              ∀ variableId < 4, settled.domainOf variableId = otherSettled.domainOf variableId := by
  have stable : (prepare.run (summands.declaring Declaration.sums)).1.toOption.any fun network =>
      ((Engine.initial network () {}).rootVerdict network).space?.isSome := by
    decide +kernel
  have otherPrepared :
      (prepare.run (summands.declaring Declaration.sums.reverse)).1.toOption.isSome := by
    decide +kernel
  have unweighted : ∀ variableId, (summands.declaring Declaration.sums).model.isMarkov variableId =
      false := by
    apply Model.isMarkov_eq_false_of_lt
    decide +kernel
  have possible : ∀ constraint ∈ (summands.declaring Declaration.sums).model.constraints.toList,
      ¬ constraint.OrdersItself := by
    have only : (summands.declaring Declaration.sums).model.constraints.toList =
        [⟨.plus, [0, 1], some 2⟩, ⟨.compare .eq, [2, 3], none⟩, ⟨.compare .lt, [0, 1], none⟩] := by
      decide +kernel
    rw [only]
    simp [Constraint.OrdersItself]
  cases prepared : (prepare.run (summands.declaring Declaration.sums)).1 with
  | error refusal =>
    rw [prepared] at stable
    cases stable
  | ok network =>
    cases preparedOther : (prepare.run (summands.declaring Declaration.sums.reverse)).1 with
    | error refusal =>
      rw [preparedOther] at otherPrepared
      cases otherPrepared
    | ok otherNetwork =>
      rw [prepared] at stable
      have size : summands.model.vars.size = 4 := by
        decide +kernel
      have reachable : summands.Reachable := reachable_ofRequests _
      obtain ⟨greatest, anyOrder⟩ :=
        reachable.greatest_in_any_order Declaration.over_sums prepared unweighted possible
          (.initial () {})
      rw [size] at anyOrder
      rcases greatest with ⟨settled, isStable, isGreatest⟩ | ⟨isRejected, _⟩
      · have sameDomains :=
          anyOrder _ otherNetwork _ (List.reverse_perm _).symm preparedOther (.initial () {})
        rcases sameDomains with
          ⟨again, otherSettled, isStableAgain, otherStable, same⟩ | ⟨isRejected, _⟩
        · cases isStable.symm.trans isStableAgain
          exact ⟨network, otherNetwork, settled, otherSettled, rfl, rfl, isStable, isGreatest,
            otherStable, same⟩
        · cases isStable.symm.trans isRejected
      · rw [Except.toOption, Option.any_some, isRejected] at stable
        cases stable

end ConstraintSearch
