import ConstraintSearch.Proofs.Search.Settled

/-!
# Frames of the search

The stack of a search holds quiet spaces with unsolved variables, from which at most two children
are requested. `Network.Frame` says so of one space: what it lists as unsolved, and, once its first
child was requested, that the second choice gives the rest of the same variable.
-/

namespace ConstraintSearch

open Narrow

/-! ### Domains that only shrink -/

/-- No step of a propagator adds a value to a domain. -/
theorem trend_within :
    Trend (OnDomains fun before after => Within (familyOf after) (familyOf before)) where
  refl state := Within.refl _
  trans first second := Within.trans second first
  count state _ := Within.refl _
  restrict target supported state := by
    have smaller : Within (familyOf (state.domains.set target (state.domainOf target ∩ supported)))
        (familyOf state.domains) := by
      intro variableId
      by_cases inside : target < state.domains.size
      · rw [familyOf, Table.getD_set variableId _ ∅ inside]
        split
        · rename_i same
          exact same ▸ Domain.inter_subset_left _ _
        · exact Domain.Subset.refl _
      · rw [Table.set_of_size_le _ (Nat.le_of_not_lt inside)]
        exact Domain.Subset.refl _
    rw [after_restrict, OnDomains]
    split
    · exact smaller
    · split
      · exact Within.refl _
      · exact smaller

namespace Engine

variable {σ : Type} {engine final : Engine σ} {network : Network} {observer : Observer σ}
  {space settled : Space}

/-- A stable space lies within the one that was propagated. -/
theorem within_of_stable
    (stable : engine.propagate network observer space = (.stable settled, final)) :
    Within settled.domainOf space.domainOf := by
  obtain ⟨state, ran, rfl⟩ := exists_fixpoint_of_stable stable
  have along := network.follows_fixpoint trend_within space.changed (engine.narrowing space)
  rw [after_of_ok ran] at along
  exact along

end Engine

/-! ### Unsolved variables -/

namespace Space

/-- The listed variables that are not fixed stay on the list. -/
theorem mem_unsolved_updateUnsolved {space : Space} {variableId : VariableId} :
    variableId ∈ space.updateUnsolved.unsolved ↔
      variableId ∈ space.unsolved ∧ ¬ (space.domainOf variableId).isSolved := by
  simp [updateUnsolved, List.mem_filter]

/-- A space is solved when no variable is on the list. -/
theorem isSolved_iff {space : Space} : space.isSolved ↔ space.unsolved = [] := by
  rw [isSolved, List.isEmpty_iff]

end Space

namespace Network

/-- The space lists exactly the targeted variables that are not fixed. -/
def Lists (network : Network) (space : Space) : Prop :=
  ∀ variableId, variableId ∈ space.unsolved ↔
    variableId ∈ network.targeted ∧ ¬ (space.domainOf variableId).isSolved

variable {network : Network} {model : Model}

/-- The root lists the targeted variables that are not fixed at the start. -/
theorem lists_root (network : Network) : network.Lists (.root network) :=
  fun _ => Space.mem_unsolved_updateUnsolved

/-- A variable that was fixed stays so. -/
theorem Quiet.isSolved_of_subset {domains : Table Domain} (quiet : network.Quiet domains)
    {variableId : VariableId} (inside : variableId < network.vars.size) {former : Domain}
    (subset : familyOf domains variableId ⊆ former) (solved : former.isSolved) :
    (familyOf domains variableId).isSolved := by
  obtain ⟨only, isOnly⟩ := Domain.isSolved_iff.mp solved
  have same := Domain.eq_of_subset_of_solvedValue? (quiet.nonempty variableId inside) subset isOnly
  exact same ▸ solved

/-- A stable space lists what it has to, if the space that was propagated listed what was unsolved
in domains around it. -/
theorem lists_of_stable {σ : Type} {engine final : Engine σ} {observer : Observer σ}
    {space settled : Space} {former : Family} (built : network.BuiltFor model)
    (quiet : network.Quiet settled.domains) (within : Within settled.domainOf former)
    (listed : ∀ variableId, variableId ∈ space.unsolved ↔
      variableId ∈ network.targeted ∧ ¬ (former variableId).isSolved)
    (stable : engine.propagate network observer space = (.stable settled, final)) :
    network.Lists settled := by
  obtain ⟨state, ran, rfl⟩ := Engine.exists_fixpoint_of_stable stable
  intro variableId
  rw [Space.mem_unsolved_updateUnsolved, listed]
  constructor
  · rintro ⟨⟨targeted, _⟩, unsolved⟩
    exact ⟨targeted, unsolved⟩
  · rintro ⟨targeted, unsolved⟩
    refine ⟨⟨targeted, fun solved => unsolved ?_⟩, unsolved⟩
    exact quiet.isSolved_of_subset (built.targeted_lt variableId targeted)
      (within variableId) solved

end Network

/-! ### The selected variable -/

namespace VariableOrder

variable {order : VariableOrder VariableId} {network : Network} {space : Space}

/-- The better of two variables is one of them. -/
theorem better_eq_or (best candidate : VariableId) :
    order.better network space best candidate = best ∨
      order.better network space best candidate = candidate := by
  rw [better]
  split
  · exact .inr rfl
  · exact .inl rfl

/-- The best variable is one of those that are compared. -/
theorem foldl_better_mem (others : List VariableId) (first : VariableId) :
    others.foldl (order.better network space) first ∈ first :: others := by
  induction others generalizing first with
  | nil => exact List.mem_cons_self
  | cons candidate rest inductionHypothesis =>
    rw [List.foldl_cons]
    rcases List.mem_cons.mp (inductionHypothesis (order.better network space first candidate))
      with same | later
    · rw [same]
      rcases order.better_eq_or first candidate with isBest | isCandidate
      · rw [isBest]
        exact List.mem_cons_self
      · rw [isCandidate]
        exact List.mem_cons_of_mem _ List.mem_cons_self
    · exact List.mem_cons_of_mem _ (List.mem_cons_of_mem _ later)

/-- The selected variable is unsolved. -/
theorem mem_unsolved_of_select? {variableId : VariableId}
    (selected : order.select? network space = some variableId) : variableId ∈ space.unsolved := by
  rw [select?] at selected
  split at selected
  · cases selected
  · rename_i first others listed
    rw [listed]
    split at selected
    · cases selected
      exact List.mem_cons_self
    · cases selected
      exact foldl_better_mem others first

/-- A space that is not solved has a variable to be selected. -/
theorem exists_select? (unsolved : space.isSolved = false) :
    ∃ variableId, order.select? network space = some variableId := by
  rw [select?]
  split
  · rename_i none
    rw [Space.isSolved_iff.mpr none] at unsolved
    cases unsolved
  · split
    · exact ⟨_, rfl⟩
    · exact ⟨_, rfl⟩

/-- What is preferred does not depend on how often a space has been divided. -/
theorem prefer_branched (lastChosen : Option Int) (candidate best : VariableId) :
    order.prefer network (space.branched lastChosen) candidate best =
      order.prefer network space candidate best := by
  have one : ∀ criterion : Criterion VariableId,
      criterion.prefer network (space.branched lastChosen) candidate best =
        criterion.prefer network space candidate best := by
    intro criterion
    cases criterion <;> rfl
  have among : ∀ criteria : List (Criterion VariableId),
      Criterion.preferAmong network (space.branched lastChosen) candidate best criteria =
        Criterion.preferAmong network space candidate best criteria := by
    intro criteria
    induction criteria with
    | nil => rfl
    | cons criterion ties inductionHypothesis =>
      simp only [Criterion.preferAmong, one, inductionHypothesis]
  exact among order.criteria

/-- Requesting a child does not change which variable is selected. -/
theorem select?_branched (lastChosen : Option Int) :
    order.select? network (space.branched lastChosen) = order.select? network space := by
  have better : order.better network (space.branched lastChosen) = order.better network space := by
    funext best candidate
    rw [VariableOrder.better, VariableOrder.better, prefer_branched]
  rw [select?, select?, better]
  rfl

end VariableOrder

/-! ### Frames -/

namespace Network

/-- A space on the stack of a search: quiet, not solved yet, and if its first child was requested,
divided by the value which gives the rest of the selected variable next. -/
structure Frame (γ : Type) [Generator γ] (network : Network) (space : Space) : Prop where
  quiet : network.Quiet space.domains
  lists : network.Lists space
  unsolved : space.isSolved = false
  resumed : space.branchCount = 1 → ∃ variableId first,
    network.order.select? network space = some variableId ∧
      (network.strategyOf variableId).GivesRest γ variableId (space.domainOf variableId) first ∧
        space.lastChosen = first.lastChosen

variable {γ : Type} [Generator γ] {σ : Type} {network : Network} {model : Model}

/-- The part of the selected variable that the next child of the space takes. -/
structure Branches (γ : Type) [Generator γ] (network : Network) (top : Space)
    (variableId : VariableId) (part : SmallerPart top variableId) : Prop where
  selected : network.order.select? network top = some variableId
  exists_divided : ∃ generator next : γ,
    (network.strategyOf variableId).divide? variableId top top.branchCount generator =
      some (part, next)

section Children

variable {top : Space} {variableId : VariableId} {part : SmallerPart top variableId}

/-- There are at most two children. -/
theorem Branches.branchCount_lt_two (branches : network.Branches γ top variableId part) :
    top.branchCount < 2 := by
  obtain ⟨generator, next, divided⟩ := branches.exists_divided
  apply Nat.lt_of_not_le
  intro two
  rw [ValueStrategy.divide?_of_two_le _ _ _ _ two] at divided
  cases divided

/-- The selected variable is not fixed. -/
theorem Branches.not_isSolved (branches : network.Branches γ top variableId part) :
    ¬ (top.domainOf variableId).isSolved := by
  obtain ⟨generator, next, divided⟩ := branches.exists_divided
  exact ValueStrategy.not_isSolved_of_divide (ValueStrategy.divide_of_divide? divided)

/-- The first child leaves the rest of the selected variable to the second one. -/
theorem Branches.givesRest (branches : network.Branches γ top variableId part)
    (unbranched : top.branchCount = 0) :
    (network.strategyOf variableId).GivesRest γ variableId (top.domainOf variableId)
      part.toPart := by
  obtain ⟨generator, next, divided⟩ := branches.exists_divided
  rw [unbranched] at divided
  exact ValueStrategy.givesRest_of_divide (ValueStrategy.divide_of_divide? divided)

/-- A space whose first child was requested has a second one, which takes the rest of what the first
one took; there is no choice any more. -/
theorem exists_branches_of_givesRest (generator : γ) {first : Part} (once : top.branchCount = 1)
    (selected : network.order.select? network top = some variableId)
    (givesRest : (network.strategyOf variableId).GivesRest γ variableId
      (top.domainOf variableId) first)
    (chosen : top.lastChosen = first.lastChosen) :
    ∃ second, network.Branches γ top variableId second ∧
      (top.domainOf variableId).Split first.domain second.domain ∧ ∀ other part,
        network.Branches γ top other part → other = variableId ∧ part.domain = second.domain := by
  obtain ⟨second, split, gives⟩ := givesRest.exists_divide? rfl chosen
  refine ⟨second, ⟨selected, generator, generator, ?_⟩, split, fun other part branches => ?_⟩
  · rw [once]
    exact gives generator
  · cases selected.symm.trans branches.selected
    obtain ⟨generator, next, divided⟩ := branches.exists_divided
    rw [once, gives generator] at divided
    cases divided
    exact ⟨rfl, rfl⟩

variable (frame : network.Frame γ top) (branches : network.Branches γ top variableId part)

include branches

/-- The frame stays one when a child is requested. -/
theorem Frame.branched (frame : network.Frame γ top) :
    network.Frame γ (top.branched part.lastChosen) where
  quiet := frame.quiet
  lists := frame.lists
  unsolved := frame.unsolved
  resumed once := by
    have unbranched : top.branchCount = 0 := by
      simp only [Space.branched] at once
      omega
    refine ⟨variableId, part.toPart, ?_, branches.givesRest unbranched, rfl⟩
    rw [VariableOrder.select?_branched, branches.selected]

include frame

/-- What the second choice gives is the rest of what the first one gave. -/
theorem Frame.exists_split_of_resumed (once : top.branchCount = 1) :
    ∃ first, (top.domainOf variableId).Split first part.domain := by
  obtain ⟨other, first, selected, givesRest, chosen⟩ := frame.resumed once
  obtain ⟨generator, _⟩ := branches.exists_divided
  obtain ⟨second, _, split, only⟩ :=
    exists_branches_of_givesRest generator once selected givesRest chosen
  obtain ⟨rfl, same⟩ := only variableId part branches
  exact ⟨first.domain, same ▸ split⟩

/-- A child takes some values of the selected variable from its parent. -/
theorem Frame.part_nonempty : part.domain.Nonempty ∧ part.domain ⊆ top.domainOf variableId := by
  have fewer := branches.branchCount_lt_two
  by_cases first : top.branchCount = 0
  · obtain ⟨_, split, _⟩ := branches.givesRest first
    exact ⟨split.first_nonempty, split.subset⟩
  · obtain ⟨_, split⟩ := frame.exists_split_of_resumed branches (by omega)
    exact ⟨split.second_nonempty, split.second_subset⟩

/-- A child differs from its frame in the selected variable only. -/
theorem Frame.domainOf_child (other : VariableId) :
    (top.child variableId part.domain).domainOf other = if other = variableId then part.domain
      else top.domainOf other := by
  obtain ⟨nonempty, subset⟩ := frame.part_nonempty branches
  exact Table.getD_set other part.domain ∅ (Table.lt_size_of_nonempty (nonempty.of_subset subset))

variable {engine final : Engine σ} {observer : Observer σ} {settled : Space}
  (built : network.BuiltFor model)
  (stable : engine.propagate network observer (top.child variableId part.domain) =
  (.stable settled, final)) (faithful : engine.changes.Faithful)

include stable

/-- A stable child lies within the frame. -/
theorem Frame.within_child : Within settled.domainOf top.domainOf := by
  apply Within.trans (Engine.within_of_stable stable)
  intro other
  rw [frame.domainOf_child branches]
  split
  · rename_i same
    exact same ▸ (frame.part_nonempty branches).2
  · exact Domain.Subset.refl _

include built faithful

/-- It is quiet like the frame. -/
theorem Frame.quiet_child : network.Quiet settled.domains := by
  obtain ⟨nonempty, subset⟩ := frame.part_nonempty branches
  exact quiet_of_child built.coherent frame.quiet faithful nonempty subset
    branches.not_isSolved stable

/-- It lists its own variables that are not fixed. -/
theorem Frame.lists_child : network.Lists settled := by
  have listed : ∀ other, other ∈ (top.child variableId part.domain).unsolved ↔
      other ∈ network.targeted ∧ ¬ (top.domainOf other).isSolved := frame.lists
  have quiet := frame.quiet_child branches built stable faithful
  exact lists_of_stable built quiet (frame.within_child branches stable) listed stable

/-- A stable child that is not solved is a frame. -/
theorem Frame.child (unsolved : settled.isSolved = false) : network.Frame γ settled where
  quiet := frame.quiet_child branches built stable faithful
  lists := frame.lists_child branches built stable faithful
  unsolved := unsolved
  resumed once := by
    rw [(Engine.propagate_stable stable).1] at once
    cases once

end Children

section Root

variable {engine final : Engine σ} {observer : Observer σ} {settled : Space}
  (built : network.BuiltFor model) (stable : engine.propagate network observer (.root network) =
  (.stable settled, final)) (faithful : engine.changes.Faithful)

include built stable faithful

/-- The stable root lists the targeted variables that are not fixed. -/
theorem lists_of_root : network.Lists settled :=
  lists_of_stable built (quiet_of_root built.coherent stable faithful)
    (Engine.within_of_stable stable) (lists_root network) stable

/-- A stable root that is not solved is a frame. -/
theorem Frame.root (unsolved : settled.isSolved = false) : network.Frame γ settled where
  quiet := quiet_of_root built.coherent stable faithful
  lists := lists_of_root built stable faithful
  unsolved := unsolved
  resumed once := by
    rw [(Engine.propagate_stable stable).1] at once
    cases once

end Root

end Network

end ConstraintSearch
