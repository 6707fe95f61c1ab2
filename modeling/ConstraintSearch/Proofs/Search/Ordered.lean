import ConstraintSearch.Proofs.Search.Regions

/-!
# Solutions in order

A strategy that takes the smallest values first, or the largest ones, divides a domain into parts of
which one comes before the other. If the search always branches on the first unsolved variable, all
targeted variables before it are fixed, and so the first child of a frame comes lexicographically
before all that is left to the second one. The reported solutions are then in lexicographic order,
each position compared in the direction of its variable.
-/

namespace ConstraintSearch

/-! ### Directions -/

/-- Whether smaller values come first or larger ones. -/
inductive Direction
  | ascending
  | descending
deriving DecidableEq, Repr

/-- The first value comes before the second one. -/
def Direction.Before : Direction → (first second : Int) → Prop
  | ascending, first, second => first < second
  | descending, first, second => second < first

/-- The direction in which the values of a variable come up, for the strategies that have one. -/
def ValueStrategy.direction? {Guard : Type} (variableId : VariableId) :
    ValueStrategy Guard → Option Direction
  | min | splitMin => some .ascending
  | max | splitMax => some .descending
  | minMaxCycle => some (if variableId % 2 = 0 then .ascending else .descending)
  | mid | list _ _ | markov _ => none

/-- The first tuple comes before the second one: at the first position at which they differ, in the
direction of the position. -/
inductive Precedes : List Direction → (first second : List Int) → Prop
  | here {direction : Direction} {directions : List Direction} {first second : Int}
      {firsts seconds : List Int}
    (before : direction.Before first second) :
      Precedes (direction :: directions) (first :: firsts) (second :: seconds)
  | later {direction : Direction} {directions : List Direction} {value : Int}
      {firsts seconds : List Int}
    (precedes : Precedes directions firsts seconds) :
      Precedes (direction :: directions) (value :: firsts) (value :: seconds)

/-- Tuples that agree up to a position are ordered by the values there. -/
theorem precedes_map {directionOf : VariableId → Direction} {first second : VariableId → Int}
    {variableId : VariableId} {earlier later : List VariableId}
    (same : ∀ other ∈ earlier, first other = second other)
    (before : (directionOf variableId).Before (first variableId) (second variableId)) :
    Precedes ((earlier ++ variableId :: later).map directionOf)
      ((earlier ++ variableId :: later).map first)
        ((earlier ++ variableId :: later).map second) := by
  induction earlier with
  | nil => exact .here before
  | cons head rest inductionHypothesis =>
    obtain ⟨sameHead, sameRest⟩ := List.forall_mem_cons.mp same
    simp only [List.cons_append, List.map_cons, sameHead]
    exact .later (inductionHypothesis sameRest)

/-! ### Parts in order -/

/-- Every value of the part comes before all other values of the whole. -/
def Domain.Leads (part whole : Domain) (direction : Direction) : Prop :=
  ∀ first ∈ part, ∀ second ∈ whole, ¬ second ∈ part → direction.Before first second

namespace Domain

variable {domain : Domain} {picked : Int}

/-- A part of one value leads if that value comes before all others. -/
theorem leads_value {direction : Direction}
    (before : ∀ other ∈ domain, other ≠ picked → direction.Before picked other) :
    (value picked).Leads domain direction := by
  intro first inPart second inWhole outside
  rw [(mem_value.mp inPart).1]
  exact before second inWhole fun same => outside (mem_value.mpr ⟨same, bounds inWhole⟩)

/-- The least value leads where values rise. -/
theorem leads_of_min? (isMin : domain.min? = some picked) :
    (value picked).Leads domain .ascending := by
  obtain ⟨_, least⟩ := min?_eq_some_iff.mp isMin
  exact leads_value fun other member different => lt_of_le_of_ne (least other member) different.symm

/-- The greatest value leads where they fall. -/
theorem leads_of_max? (isMax : domain.max? = some picked) :
    (value picked).Leads domain .descending := by
  obtain ⟨_, most⟩ := max?_eq_some_iff.mp isMax
  exact leads_value fun other member different => lt_of_le_of_ne (most other member) different

/-- The lower half leads where values rise. -/
theorem leads_removeAbove (domain : Domain) (middle : Int) :
    (domain.removeAbove middle).Leads domain .ascending := by
  intro first inPart second inWhole outside
  simp only [mem_removeAbove, inWhole, true_and] at inPart outside
  rw [Direction.Before]
  omega

/-- The upper half leads where they fall. -/
theorem leads_removeBelow (domain : Domain) (middle : Int) :
    (domain.removeBelow middle).Leads domain .descending := by
  intro first inPart second inWhole outside
  simp only [mem_removeBelow, inWhole, true_and] at inPart outside
  rw [Direction.Before]
  omega

/-! ### What a cut gives first -/

section Cuts

variable {γ : Type} {lastChosen : Option Int} {generator next : γ} {part : Part}
  {direction : Direction}

/-- A picked value that leads does so as the first part. -/
theorem leads_of_pickThenRemove {pick : Option Int}
    (leads : ∀ {picked}, pick = some picked → (value picked).Leads domain direction)
    (divided : (domain.pickThenRemove pick lastChosen 0).map (·, generator) = some (part, next)) :
    part.domain.Leads domain direction := by
  obtain ⟨_, isPart, same⟩ := Option.map_eq_some_iff.mp divided
  obtain ⟨picked, isPicked, rfl⟩ := Option.map_eq_some_iff.mp isPart
  cases same
  exact leads isPicked

/-- The lower half is the first part. -/
theorem leads_of_lowerHalfFirst
    (divided : (domain.lowerHalfFirst lastChosen 0).map (·, generator) = some (part, next)) :
    part.domain.Leads domain .ascending := by
  obtain ⟨_, isPart, same⟩ := Option.map_eq_some_iff.mp divided
  obtain ⟨middle, _, rfl⟩ := Option.map_eq_some_iff.mp isPart
  cases same
  exact leads_removeAbove _ middle

/-- The upper half is the first part. -/
theorem leads_of_upperHalfFirst
    (divided : (domain.upperHalfFirst lastChosen 0).map (·, generator) = some (part, next)) :
    part.domain.Leads domain .descending := by
  obtain ⟨_, isPart, same⟩ := Option.map_eq_some_iff.mp divided
  obtain ⟨middle, _, rfl⟩ := Option.map_eq_some_iff.mp isPart
  cases same
  exact leads_removeBelow _ (middle + 1)

end Cuts

end Domain

/-- A strategy with a direction first gives the part that comes first in this direction. -/
theorem ValueStrategy.leads_of_divide {γ : Type} [Generator γ] {strategy : ValueStrategy VariableId}
    {variableId : VariableId} {space : Space} {generator next : γ} {part : Part}
    {direction : Direction} (directed : strategy.direction? variableId = some direction)
    (divided : strategy.divide variableId space 0 generator = some (part, next)) :
    part.domain.Leads (space.domainOf variableId) direction := by
  rw [divide_eq_of_several (several_of_divide divided) rfl] at divided
  cases strategy with
  | min =>
    cases directed
    exact Domain.leads_of_pickThenRemove Domain.leads_of_min? divided
  | max =>
    cases directed
    exact Domain.leads_of_pickThenRemove Domain.leads_of_max? divided
  | splitMin =>
    cases directed
    exact Domain.leads_of_lowerHalfFirst divided
  | splitMax =>
    cases directed
    exact Domain.leads_of_upperHalfFirst divided
  | minMaxCycle =>
    simp only [direction?, Option.some.injEq] at directed
    subst directed
    by_cases even : variableId % 2 = 0
    · simp only [manner, if_pos even] at divided ⊢
      exact Domain.leads_of_pickThenRemove Domain.leads_of_min? divided
    · simp only [manner, if_neg even] at divided ⊢
      exact Domain.leads_of_pickThenRemove Domain.leads_of_max? divided
  | mid => cases directed
  | list values fallback => cases directed
  | markov matrix => cases directed

/-! ### Frames in order -/

namespace Network

variable {γ : Type} [Generator γ] {network : Network} {model : Model}
  {directionOf : VariableId → Direction}

/-- The values of the targeted variables under one assignment come lexicographically before those
under another one. -/
def InOrder (network : Network) (directionOf : VariableId → Direction) : Relation :=
  fun earlier later =>
    Precedes (network.targeted.map directionOf) (network.targeted.map earlier)
      (network.targeted.map later)

/-- A search that branches on the first unsolved variable has fixed all targeted variables before
it. -/
theorem exists_fixed_of_selected {top : Space} {variableId : VariableId}
    (naive : network.order.first = .naive) (listed : network.ListsInOrder top)
    (selected : network.order.select? network top = some variableId) :
    ∃ earlier later, network.targeted = earlier ++ variableId :: later ∧
      ∀ other ∈ earlier, (top.domainOf other).isSolved := by
  rw [VariableOrder.select?] at selected
  split at selected
  · cases selected
  · rename_i first others isFirst
    rw [naive] at selected
    cases selected
    rw [listed, List.filter_eq_cons_iff] at isFirst
    obtain ⟨earlier, later, placed, fixed, _⟩ := isFirst
    refine ⟨earlier, later, placed, fun other inside => ?_⟩
    simpa using fixed other inside

/-- Two assignments of a space agree where it is fixed. -/
theorem eq_of_isSolved {space : Space} {first second : VariableId → Int} {variableId : VariableId}
    (inside : variableId < network.vars.size) (solved : (space.domainOf variableId).isSolved)
    (firstContains : network.Contains space first)
    (secondContains : network.Contains space second) :
    first variableId = second variableId := by
  obtain ⟨only, isOnly⟩ := Domain.isSolved_iff.mp solved
  have members := Domain.solvedValue?_eq_some_iff.mp isOnly
  rw [(members _).mp (firstContains variableId inside),
    (members _).mp (secondContains variableId inside)]

/-- The next child of a frame comes before all that the frame awaits after it. -/
theorem separates_inOrder (built : network.BuiltFor model) (naive : network.order.first = .naive)
    (directed : ∀ variableId ∈ network.targeted,
      (network.strategyOf variableId).direction? variableId = some (directionOf variableId)) :
    network.Separates γ (network.InOrder directionOf) := by
  intro top variableId part frame listed branches earlier later contains awaits
  obtain ⟨topContains, taken⟩ := (frame.contains_child_iff built branches).mp contains
  have notBoth := fun inChild => (frame.awaits_iff built branches).2 ⟨inChild, awaits⟩
  have laterContains : network.Contains top later := awaits.1
  have left : ¬ later variableId ∈ part.domain := fun taken =>
    notBoth ((frame.contains_child_iff built branches).mpr ⟨laterContains, taken⟩)
  obtain ⟨before, after, placed, fixed⟩ := exists_fixed_of_selected naive listed branches.selected
  have targeted : variableId ∈ network.targeted := by
    rw [placed]
    exact List.mem_append_right _ List.mem_cons_self
  -- Nothing is awaited after the second child, so this is the first one.
  have unbranched : top.branchCount = 0 := by
    have fewer := branches.branchCount_lt_two
    rcases awaits.2 with untouched | ⟨once, _⟩
    · simp only [Space.branched] at untouched
      omega
    · simp only [Space.branched] at once
      omega
  obtain ⟨generator, next, divided⟩ := branches.exists_divided
  have leads := ValueStrategy.leads_of_divide (directed variableId targeted)
    (unbranched ▸ ValueStrategy.divide_of_divide? divided)
  have wholeMember := laterContains variableId (frame.variable_lt built branches)
  rw [InOrder, placed]
  refine precedes_map (fun other inside => ?_) (leads _ taken _ wholeMember left)
  have otherTargeted : other ∈ network.targeted := placed ▸ List.mem_append_left _ inside
  exact eq_of_isSolved (built.targeted_lt other otherTargeted) (fixed other inside)
    topContains laterContains

end Network

/-- **Order of solutions.** Without an observer, a search of a prepared model that branches on the
first unsolved variable comes to its end. If the strategy of every targeted variable has a
direction, the values of the targeted variables in the solutions are strictly ordered,
lexicographically and each position in the direction of its variable, as the targets are listed,
each once. -/
theorem Workspace.Reachable.reports_inOrder {workspace : Workspace} {network : Network}
    (reachable : workspace.Reachable) (prepared : workspace.model.network = some network) {γ : Type}
    [Generator γ] (generator : γ) (journal : Journal) (naive : network.order.first = .naive)
    {directionOf : VariableId → Direction} (directed : ∀ variableId ∈ network.targeted,
      (network.strategyOf variableId).direction? variableId = some (directionOf variableId)) :
    network.targeted.Nodup ∧
      (∃ spaces, (Search.initial network generator () journal).Reports network .silent spaces) ∧
      ∀ spaces, (Search.initial network generator () journal).Reports network .silent spaces →
        ∃ tuples : List (List Int),
          spaces.map (fun space => network.targeted.map fun variableId =>
            (space.domainOf variableId).solvedValue?) = tuples.map (List.map some) ∧
          tuples.Pairwise (Precedes (network.targeted.map directionOf)) := by
  have built := reachable.builtFor prepared
  refine ⟨built.targeted_nodup, ?_, fun spaces reports => ?_⟩
  · obtain ⟨bound, proceeds⟩ :=
      @Search.exists_proceeds_start γ _ network generator (.initial network () journal)
    exact @Search.exists_reports γ _ network (.initial network generator () journal) bound proceeds
  · have reached : (Search.initial network generator () journal).Reached network :=
      .initial generator () journal
    have solves := reports.solves built (reached.sound built)
    have separates : network.Separates γ (network.InOrder directionOf) :=
      Network.separates_inOrder built naive directed
    have apart := reports.apart_of_initial built separates
    refine ⟨spaces.map fun space => network.targeted.map (Network.leastPoint space), ?_, ?_⟩
    · rw [List.map_map]
      refine List.map_congr_left fun space inside => ?_
      rw [Function.comp_apply, List.map_map]
      exact List.map_congr_left fun variableId targeted =>
        (solves space inside).solvedValue?_of_contains built
          (solves space inside).contains_leastPoint targeted
    · rw [List.pairwise_map]
      refine apart.imp_of_mem fun first second related => ?_
      exact related _ _ (solves _ first).contains_leastPoint (solves _ second).contains_leastPoint

/-- Two variables from 0 to 2 which differ: the values of the first one rise, those of the second
one fall. -/
def Workspace.crossing : Workspace :=
  .ofRequests
    [.declareRange "X" 0 2, .declareRange "Y" 0 2, .divideVariableBy "Y" .splitMax,
      .declareConstraint (.compare .neq) [.named "X", .named "Y"] none, .prepare]

/-- The two variables can be prepared. -/
theorem Workspace.isPrepared_crossing : crossing.model.isPrepared := by
  decide +kernel

/-- The solutions of the crossing variables are in order. -/
theorem Workspace.reports_inOrder_crossing :
    ∃ network spaces, crossing.model.network = some network ∧
      (Search.initial network (⟨#[], 0⟩ : Script) () {}).Reports network .silent spaces ∧
      ∃ tuples : List (List Int),
        spaces.map (fun space => [0, 1].map fun variableId =>
          (space.domainOf variableId).solvedValue?) = tuples.map (List.map some) ∧
        tuples.Pairwise (Precedes [.ascending, .descending]) := by
  refine ⟨crossing.model.network.get isPrepared_crossing, ?_⟩
  have prepared : crossing.model.network = some (crossing.model.network.get isPrepared_crossing) :=
    Option.eq_some_of_isSome _
  have targeted : (crossing.model.network.get isPrepared_crossing).targeted = [0, 1] := by
    decide +kernel
  have naive : (crossing.model.network.get isPrepared_crossing).order.first = .naive := by
    decide +kernel
  have directed : ∀ variableId ∈ [0, 1],
      ((crossing.model.network.get isPrepared_crossing).strategyOf variableId).direction?
      variableId = some (if variableId = 0 then .ascending else .descending) := by
    decide +kernel
  generalize crossing.model.network.get isPrepared_crossing = network
    at prepared targeted naive directed
  rw [← targeted] at directed
  obtain ⟨_, ⟨spaces, reports⟩, ordered⟩ :=
    (reachable_ofRequests _).reports_inOrder prepared (⟨#[], 0⟩ : Script) {} naive directed
  have ordered := ordered spaces reports
  rw [targeted] at ordered
  exact ⟨spaces, prepared, reports, ordered⟩

end ConstraintSearch
