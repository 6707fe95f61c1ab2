import ConstraintSearch.Proofs.Network.Favours
import ConstraintSearch.Proofs.Propagation.Shelter
import ConstraintSearch.Proofs.Search.Soundness

/-!
# Complete searches

Without an observer, every assignment that satisfies the network and that the weights of Markov
variables favour is in exactly one of the spaces that a search reports. At any time the assignment
is awaited by exactly one frame of the stack, or else it was reported: no propagator takes a value
of it away, and the two children of a frame split the domain of the selected variable.
-/

namespace ConstraintSearch

/-! ### Assignments as families -/

/-- The family that has nothing but the values of an assignment. -/
def familyOfAssignment (network : Network) (assignment : VariableId → Int) : Family :=
  fun variableId => if variableId < network.vars.size then .value (assignment variableId) else ∅

namespace Network

/-- The assignment has, variable by variable, a value of the space. -/
def Contains (network : Network) (space : Space) (assignment : VariableId → Int) : Prop :=
  ∀ variableId < network.vars.size, assignment variableId ∈ space.domainOf variableId

variable {network : Network} {model : Model} {assignment : VariableId → Int}

/-- The family of an assignment is solved by its values. -/
theorem solvedValue?_familyOfAssignment (admits : network.vars.Admits assignment)
    {variableId : VariableId} (inside : variableId < network.vars.size) :
    (familyOfAssignment network assignment variableId).solvedValue? =
      some (assignment variableId) := by
  obtain ⟨low, high⟩ := Domain.bounds (admits variableId inside)
  rw [familyOfAssignment, if_pos inside]
  exact Domain.solvedValue?_value low high

/-- The assignment is in a space just when its family lies within the space. -/
theorem within_iff_contains (admits : network.vars.Admits assignment) {space : Space} :
    Within (familyOfAssignment network assignment) space.domainOf ↔
      network.Contains space assignment := by
  constructor
  · intro within variableId inside
    exact within variableId _ (Domain.mem_of_solvedValue?
      (solvedValue?_familyOfAssignment admits inside))
  · intro contains variableId value member
    by_cases inside : variableId < network.vars.size
    · have members :=
        Domain.solvedValue?_eq_some_iff.mp (solvedValue?_familyOfAssignment admits inside)
      rw [(members value).mp member]
      exact contains variableId inside
    · rw [familyOfAssignment, if_neg inside] at member
      exact absurd member Domain.not_mem_empty

/-- Every propagator keeps the values of an assignment that satisfies its relation, and weights that
favour the assignment exclude no domains around it. -/
theorem preserves_of_satisfied (built : network.BuiltFor model)
    (favours : network.Favours assignment) (satisfied : network.Satisfied assignment) :
    network.Preserves (familyOfAssignment network assignment) where
  nonempty variableId inside :=
    ⟨_, Domain.mem_of_solvedValue? (solvedValue?_familyOfAssignment satisfied.1 inside)⟩
  weighed propagator inside weighs outer within := by
    refine favours.keeps (fun variableId early => ?_) built inside weighs
    exact within variableId _ (Domain.mem_of_solvedValue?
      (solvedValue?_familyOfAssignment satisfied.1 early))
  keeps propagator inside := by
    have holds := satisfied.2 propagator inside
    obtain ⟨index, found⟩ := Table.mem_toList_iff.mp inside
    refine (Propagator.keeps_iff_holds (fun variableId reads => ?_) fun result isTruth => ?_).mpr
      holds
    · exact solvedValue?_familyOfAssignment satisfied.1
        (built.coherent.scope_lt found variableId reads)
    · cases propagator with
      | reified comparison left right truth =>
        cases isTruth
        exact holds.symm.imp And.left And.left
      | relation comparison left right => cases isTruth
      | ring operation left right result => cases isTruth
      | markov weighted matrix => cases isTruth

/-! ### Propagation keeps satisfying assignments -/

section Propagation

variable {final : Engine Unit} {space : Space} (built : network.BuiltFor model)
  (favours : network.Favours assignment) (satisfied : network.Satisfied assignment)
  (size_eq : space.domains.size = network.vars.size)

include built favours satisfied size_eq

/-- The fixpoint computation succeeds on a space around a satisfying assignment, and what it leaves
is around it as well. -/
theorem exists_fixpoint_of_contains (engine : Engine Unit)
    (contains : network.Contains space assignment) :
    ∃ state, network.fixpoint space.changed (engine.narrowing space) = .ok () state ∧
      network.Contains { space with domains := state.domains }.updateUnsolved assignment := by
  have preserves := preserves_of_satisfied built favours satisfied
  have within : Within (familyOfAssignment network assignment) (engine.narrowing space).domainOf :=
    (within_iff_contains satisfied.1).mpr contains
  obtain ⟨state, ran, finalWithin⟩ :=
    exists_fixpoint_of_preserves built.coherent preserves size_eq within
  have settledWithin : Within (familyOfAssignment network assignment)
      { space with domains := state.domains }.updateUnsolved.domainOf := finalWithin
  exact ⟨state, ran, (within_iff_contains satisfied.1).mp settledWithin⟩

/-- A rejected space does not contain the assignment, as nothing takes values of it away. -/
theorem not_contains_of_rejected {engine : Engine Unit}
    (rejected : engine.propagate network .silent space = (.rejected, final)) :
    ¬ network.Contains space assignment := by
  intro contains
  obtain ⟨state, ran, _⟩ :=
    exists_fixpoint_of_contains built favours satisfied size_eq engine contains
  have stable := Engine.propagate_silent_of_ok ran
  rw [rejected] at stable
  cases stable

/-- A stable space contains the satisfying assignments that the space contained before. -/
theorem contains_iff_of_stable {engine : Engine Unit} {settled : Space}
    (stable : engine.propagate network .silent space = (.stable settled, final)) :
    network.Contains settled assignment ↔ network.Contains space assignment := by
  constructor
  · intro contains variableId inside
    exact Engine.within_of_stable stable variableId _ (contains variableId inside)
  · intro contains
    obtain ⟨state, ran, settledContains⟩ :=
      exists_fixpoint_of_contains built favours satisfied size_eq engine contains
    have same := Engine.propagate_silent_of_ok ran
    rw [stable] at same
    cases same
    exact settledContains

end Propagation

/-! ### Frames that await an assignment -/

variable {γ : Type} [Generator γ]

/-- The assignment is to come up below the frame: it is contained, and if the first child was
requested already, the second one takes it. -/
def Awaits (γ : Type) [Generator γ] (network : Network) (frame : Space)
    (assignment : VariableId → Int) : Prop :=
  network.Contains frame assignment ∧
    (frame.branchCount = 0 ∨ frame.branchCount = 1 ∧ ∀ variableId part,
      network.Branches γ frame variableId part → assignment variableId ∈ part.domain)

/-- A frame whose first child was requested awaits what the second child takes. -/
theorem awaits_iff_of_branches {frame : Space} {variableId : VariableId}
    {second : SmallerPart frame variableId} (once : frame.branchCount = 1)
    (branches : network.Branches γ frame variableId second)
    (only : ∀ other part, network.Branches γ frame other part →
      other = variableId ∧ part.domain = second.domain) : network.Awaits γ frame assignment ↔
        network.Contains frame assignment ∧ assignment variableId ∈ second.domain := by
  refine and_congr_right fun _ =>
    ⟨?_, fun member => .inr ⟨once, fun other part otherBranches => ?_⟩⟩
  · rintro (unbranched | ⟨_, taken⟩)
    · rw [once] at unbranched
      cases unbranched
    · exact taken variableId second branches
  · obtain ⟨rfl, same⟩ := only other part otherBranches
    exact same ▸ member

/-- A child has a domain for every variable. -/
theorem Frame.size_child {top : Space} (frame : network.Frame γ top) (variableId : VariableId)
    (domain : Domain) : (top.child variableId domain).domains.size = network.vars.size :=
  (Table.size_set _ _ _).trans frame.quiet.size_eq

section Children

variable {top : Space} {variableId : VariableId} {part : SmallerPart top variableId}
  (built : network.BuiltFor model) (frame : network.Frame γ top)
  (branches : network.Branches γ top variableId part)

include built frame branches

/-- The selected variable exists. -/
theorem Frame.variable_lt : variableId < network.vars.size :=
  built.targeted_lt variableId ((frame.lists variableId).mp
    (VariableOrder.mem_unsolved_of_select? branches.selected)).1

/-- A child contains what the frame contains and its part of the selected variable allows. -/
theorem Frame.contains_child_iff :
    network.Contains (top.child variableId part.domain) assignment ↔
      network.Contains top assignment ∧ assignment variableId ∈ part.domain := by
  have lookup := frame.domainOf_child branches
  constructor
  · intro contains
    have chosen := contains variableId (frame.variable_lt built branches)
    rw [lookup, if_pos rfl] at chosen
    refine ⟨fun other inside => ?_, chosen⟩
    have member := contains other inside
    rw [lookup] at member
    split at member
    · rename_i same
      exact same ▸ (frame.part_nonempty branches).2 _ (same ▸ member)
    · exact member
  · rintro ⟨contains, chosen⟩ other inside
    rw [lookup]
    split
    · rename_i same
      exact same ▸ chosen
    · exact contains other inside

/-- What a frame awaits goes to the next child or stays for the frame to await, and not both. -/
theorem Frame.awaits_iff :
    (network.Awaits γ top assignment ↔
      network.Contains (top.child variableId part.domain) assignment ∨
        network.Awaits γ (top.branched part.lastChosen) assignment) ∧
      ¬ (network.Contains (top.child variableId part.domain) assignment ∧
        network.Awaits γ (top.branched part.lastChosen) assignment) := by
  rw [frame.contains_child_iff built branches]
  obtain ⟨generator, _⟩ := branches.exists_divided
  by_cases unbranched : top.branchCount = 0
  · -- The first child leaves the rest of the selected variable for the second one.
    have once : (top.branched part.lastChosen).branchCount = 1 := by
      simp [Space.branched, unbranched]
    have selected : network.order.select? network (top.branched part.lastChosen) =
        some variableId := by
      rw [VariableOrder.select?_branched, branches.selected]
    have givesRest := branches.givesRest unbranched
    obtain ⟨second, secondBranches, split, only⟩ :=
      @exists_branches_of_givesRest γ _ _ (top.branched part.lastChosen) _ generator part.toPart
        once selected givesRest rfl
    have awaitsAll : network.Awaits γ top assignment ↔ network.Contains top assignment :=
      and_iff_left (.inl unbranched)
    have sameContents : network.Contains (top.branched part.lastChosen) assignment ↔
        network.Contains top assignment := Iff.rfl
    rw [awaits_iff_of_branches once secondBranches only, awaitsAll, sameContents, split.mem_second]
    have whole : network.Contains top assignment →
        assignment variableId ∈ top.domainOf variableId := fun contains =>
          contains variableId (frame.variable_lt built branches)
    constructor
    · constructor
      · intro contains
        by_cases taken : assignment variableId ∈ part.domain
        · exact .inl ⟨contains, taken⟩
        · exact .inr ⟨contains, whole contains, taken⟩
      · exact Or.rec And.left And.left
    · rintro ⟨⟨_, taken⟩, _, _, left⟩
      exact left taken
  · -- The second child takes all that was left, and nothing is awaited after it.
    have fewer := branches.branchCount_lt_two
    have once : top.branchCount = 1 := by omega
    obtain ⟨other, first, selected, givesRest, chosen⟩ := frame.resumed once
    obtain ⟨second, secondBranches, _, only⟩ :=
      exists_branches_of_givesRest generator once selected givesRest chosen
    obtain ⟨rfl, same⟩ := only variableId part branches
    have nothing : ¬ network.Awaits γ (top.branched part.lastChosen) assignment := by
      simp [Awaits, Space.branched, once]
    rw [awaits_iff_of_branches once secondBranches only, same]
    simp only [nothing, or_false, and_false, not_false_eq_true, and_self]

end Children

/-- A frame without children awaits all that it contains. -/
theorem awaits_iff_contains_of_unbranched {frame : Space} (unbranched : frame.branchCount = 0) :
    network.Awaits γ frame assignment ↔ network.Contains frame assignment :=
  and_iff_left (.inl unbranched)

/-- A frame whose selected variable is not divided any more awaits no favoured assignment. -/
theorem Frame.not_awaits_of_undivided (built : network.BuiltFor model)
    (favours : network.Favours assignment) {top : Space} (frame : network.Frame γ top)
    {variableId : VariableId} {generator : γ}
    (selected : network.order.select? network top = some variableId)
    (undivided : (network.strategyOf variableId).divide? variableId top top.branchCount generator =
      none) : ¬ network.Awaits γ top assignment := by
  rintro ⟨contains, unbranched | ⟨once, _⟩⟩
  · obtain ⟨targeted, unsolved⟩ :=
      (frame.lists variableId).mp (VariableOrder.mem_unsolved_of_select? selected)
    obtain ⟨part, next, divided⟩ :=
      favours.exists_divide? built contains (built.targeted_lt variableId targeted)
        unsolved generator
    rw [unbranched, divided] at undivided
    cases undivided
  · obtain ⟨other, first, otherSelected, givesRest, chosen⟩ := frame.resumed once
    cases selected.symm.trans otherSelected
    obtain ⟨rest, _, gives⟩ := givesRest.exists_divide? rfl chosen
    rw [once, gives generator] at undivided
    cases undivided

end Network

/-! ### Accounts -/

namespace Search

variable {γ σ : Type} [Generator γ] {network : Network} {model : Model}
  {assignment : VariableId → Int}

open Classical in
/-- The number of frames that await the assignment. -/
noncomputable def awaiting (γ : Type) [Generator γ] (network : Network)
    (assignment : VariableId → Int) (stack : List Space) : Nat :=
  stack.countP fun frame => network.Awaits γ frame assignment

open Classical in
/-- The frames that await an assignment are counted one by one. -/
theorem awaiting_cons (frame : Space) (rest : List Space) :
    awaiting γ network assignment (frame :: rest) =
      (if network.Awaits γ frame assignment then 1 else 0) +
        awaiting γ network assignment rest := by
  simp only [awaiting, List.countP_cons, decide_eq_true_eq, Nat.add_comm]

open Classical in
/-- The number of reported spaces that contain the assignment. -/
noncomputable def containing (network : Network) (assignment : VariableId → Int)
    (spaces : List Space) : Nat :=
  spaces.countP fun space => network.Contains space assignment

section Turns

variable {before after : Position Unit} {result : Outcome × Search γ Unit}
  (built : network.BuiltFor model) (favours : network.Favours assignment)
  (satisfied : network.Satisfied assignment)

include built

open Classical in
/-- When a child is requested, what its parent awaited is with the child or stays with the
parent. -/
theorem awaiting_eq_of_branches {top : Space} {rest : List Space} {variableId : VariableId}
    {part : SmallerPart top variableId} (frame : network.Frame γ top)
    (branches : network.Branches γ top variableId part) :
    awaiting γ network assignment (top :: rest) =
      (if network.Contains (top.child variableId part.domain) assignment then 1 else 0) +
        awaiting γ network assignment (top.branched part.lastChosen :: rest) := by
  obtain ⟨either, notBoth⟩ := @Network.Frame.awaits_iff network model assignment γ _ top variableId
    part built frame branches
  rw [awaiting_cons, awaiting_cons, ← Nat.add_assoc]
  congr 1
  by_cases inChild : network.Contains (top.child variableId part.domain) assignment
  · have notLater : ¬ network.Awaits γ (top.branched part.lastChosen) assignment :=
      fun later => notBoth ⟨inChild, later⟩
    simp [either, inChild, notLater]
  · simp [either, inChild]

include favours satisfied

/-- A turn that goes on neither loses nor doubles an assignment. -/
theorem Turn.awaiting_eq (turn : Turn γ network .silent before after)
    (sound : before.Sound γ network) :
    awaiting γ network assignment before.stack = awaiting γ network assignment after.stack := by
  cases turn with
  | leave unselected =>
    obtain ⟨frame, _⟩ := List.forall_mem_cons.mp sound.frames
    obtain ⟨variableId, selected⟩ :=
      @VariableOrder.exists_select? network.order network _ frame.unsolved
    rw [unselected] at selected
    cases selected
  | giveUp selected undivided =>
    obtain ⟨frame, _⟩ := List.forall_mem_cons.mp sound.frames
    have nothing : ¬ network.Awaits γ _ assignment :=
      frame.not_awaits_of_undivided built favours selected undivided
    rw [awaiting_cons, if_neg nothing, Nat.zero_add]
  | reject branches propagated =>
    obtain ⟨frame, _⟩ := List.forall_mem_cons.mp sound.frames
    have nowhere :=
      Network.not_contains_of_rejected built favours satisfied (frame.size_child _ _) propagated
    rw [awaiting_eq_of_branches built frame branches, if_neg nowhere, Nat.zero_add]
  | @descend top child rest engine final variableId part spent counted branches propagated
      unsolved =>
        obtain ⟨frame, _⟩ := List.forall_mem_cons.mp sound.frames
        have kept :=
          Network.contains_iff_of_stable built favours satisfied (frame.size_child _ _) propagated
        have unbranched : child.branchCount = 0 := (Engine.propagate_stable propagated).1
        have awaited : network.Awaits γ child assignment ↔
            network.Contains (top.child variableId part.domain) assignment :=
          (Network.awaits_iff_contains_of_unbranched unbranched).trans kept
        classical
        rw [awaiting_eq_of_branches built frame branches, awaiting_cons child]
        simp only [awaited]

/-- No turns change how many frames await a favoured assignment, as no turn does. -/
theorem Turns.awaiting_eq (turns : Turns γ network .silent before after)
    (sound : before.Sound γ network) :
    awaiting γ network assignment before.stack = awaiting γ network assignment after.stack := by
  induction turns with
  | refl => rfl
  | tail turns turn inductionHypothesis =>
    exact inductionHypothesis.trans
      (turn.awaiting_eq built favours satisfied (Turns.sound built turns sound))

end Turns

/-! ### Requests -/

/-- What a request makes of the number of spaces to come that are to contain an assignment: none are
left at the end, and a reported space counts itself. -/
structure Accounts (network : Network) (assignment : VariableId → Int) (count : Nat)
    (result : Outcome × Search γ Unit) : Prop where
  finished : result.1 = .finished → count = 0
  solved : ∀ space, result.1 = .solved space → result.2.phase = .exploring ∧
    count = containing network assignment [space] + awaiting γ network assignment result.2.stack

open Classical in
/-- The spaces that contain an assignment are counted one by one. -/
theorem containing_cons (space : Space) (spaces : List Space) :
    containing network assignment (space :: spaces) =
      (if network.Contains space assignment then 1 else 0) +
        containing network assignment spaces := by
  simp only [containing, List.countP_cons, decide_eq_true_eq, Nat.add_comm]

section Requests

variable (built : network.BuiltFor model) (favours : network.Favours assignment)
  (satisfied : network.Satisfied assignment)

include built favours satisfied

/-- The end of a request accounts for the assignment: nothing is awaited when the stack is empty,
and a solution counts itself. -/
theorem Ending.accounts {last : Position Unit} {result : Outcome × Search γ Unit}
    (ending : Ending network .silent last result) (sound : last.Sound γ network) :
    Accounts network assignment (awaiting γ network assignment last.stack) result := by
  cases ending with
  | finished => exact ⟨fun _ => rfl, fun _ solved => by cases solved⟩
  | aborted branches propagated => exact absurd propagated Engine.propagate_silent_ne_aborted
  | faulted branches propagated => exact absurd propagated Engine.propagate_silent_ne_faulted
  | @solved top child rest engine final variableId next part spent counted event branches propagated
      solved =>
        refine ⟨(by cases ·), ?_⟩
        rintro _ ⟨rfl⟩
        obtain ⟨frame, _⟩ := List.forall_mem_cons.mp sound.frames
        have kept :=
          Network.contains_iff_of_stable built favours satisfied (frame.size_child _ _) propagated
        refine ⟨rfl, ?_⟩
        classical
        rw [awaiting_eq_of_branches built frame branches, containing_cons]
        simp only [kept]
        rfl

/-- Exploring a stack accounts for the assignment, by its turns and its ending. -/
theorem accounts_explore {stack : List Space} {generator : γ} {engine : Engine Unit}
    (sound : Position.Sound γ network ⟨stack, engine⟩) :
    Accounts network assignment (awaiting γ network assignment stack)
      (explore network .silent stack generator engine) := by
  obtain ⟨last, turns, ending⟩ := exists_turns_ending network .silent stack generator engine
  have same := Turns.awaiting_eq built favours satisfied turns sound
  have accounts := ending.accounts built favours satisfied (turns.sound built sound)
  exact same ▸ accounts

/-- The first request starts with one space to come, since the root contains the assignment. -/
theorem accounts_start {generator : γ} {engine : Engine Unit} (faithful : engine.changes.Faithful) :
    Accounts network assignment 1 (start network .silent generator engine) := by
  have contains : network.Contains (.root network) assignment := fun variableId inside => by
    have initial : (Space.root network).domainOf variableId = network.vars.domainOf variableId :=
      (Directory.domainOf_eq_getD network.vars variableId).symm
    exact initial ▸ satisfied.1 variableId inside
  have size_eq : (Space.root network).domains.size = network.vars.size := Table.size_map _ _
  have started := starts network .silent generator engine
  generalize start network .silent generator engine = result at started ⊢
  cases started with
  | reject propagated =>
    exact absurd contains
      (Network.not_contains_of_rejected built favours satisfied size_eq propagated)
  | abort propagated => exact absurd propagated Engine.propagate_silent_ne_aborted
  | fault propagated => exact absurd propagated Engine.propagate_silent_ne_faulted
  | solve propagated solved =>
    have rootContains :=
      (Network.contains_iff_of_stable built favours satisfied size_eq propagated).mpr contains
    refine ⟨(by cases ·), ?_⟩
    rintro _ ⟨rfl⟩
    refine ⟨rfl, ?_⟩
    rw [containing_cons, if_pos rootContains]
    rfl
  -- The root is the only frame, and it awaits all that it contains.
  | @explore root final _ propagated unsolved later =>
    have rootContains :=
      (Network.contains_iff_of_stable built favours satisfied size_eq propagated).mpr contains
    have frame : network.Frame γ root := .root built propagated faithful unsolved
    have finalFaithful := Engine.faithful_of_propagate propagated faithful
    have unbranched : root.branchCount = 0 := (Engine.propagate_stable propagated).1
    have awaits : network.Awaits γ root assignment :=
      (Network.awaits_iff_contains_of_unbranched unbranched).mpr rootContains
    have one : awaiting γ network assignment [root] = 1 := by
      rw [awaiting_cons, if_pos awaits]
      rfl
    rw [← one, ← later.eq]
    exact accounts_explore built favours satisfied
      ⟨finalFaithful, List.forall_mem_singleton.mpr frame⟩

end Requests

/-! ### All requests -/

/-- A search that is under way goes on exploring. -/
theorem next_of_exploring {observer : Observer σ} {search : Search γ σ}
    (exploring : search.phase = .exploring) :
    search.next network observer = explore network observer search.stack search.generator
      search.engine := by
  simp only [next, exploring]

/-- As many reported spaces contain the assignment as the first request accounts for. -/
theorem Reports.containing_eq (built : network.BuiltFor model)
    (favours : network.Favours assignment) (satisfied : network.Satisfied assignment)
    {search : Search γ Unit} {spaces : List Space} {count : Nat}
    (reports : Reports network .silent search spaces) (sound : search.position.Sound γ network)
    (accounts : Accounts network assignment count (search.next network .silent)) :
    containing network assignment spaces = count := by
  induction reports generalizing count with
  | finished ended => exact (accounts.finished (by rw [ended])).symm
  | @solved search after space spaces reported later inductionHypothesis =>
    have afterSound := (@answers_next _ _ _ _ _ .silent built _ sound).sound
    obtain ⟨exploring, counted⟩ := accounts.solved space (by rw [reported])
    rw [reported] at afterSound exploring counted
    have afterAccounts : Accounts network assignment (awaiting γ network assignment after.stack)
        (after.next network .silent) := by
      rw [next_of_exploring exploring]
      exact accounts_explore built favours satisfied afterSound
    rw [counted, ← inductionHypothesis afterSound afterAccounts, containing_cons, containing_cons]
    rfl

/-! ### The end -/

/-- Without an observer a request comes to the end, or reports a space and leaves a stack below the
bound, from which it can be repeated. -/
inductive Proceeds (bound : Nat) : Outcome × Search γ σ → Prop
  | finished (after : Search γ σ) : Proceeds bound (.finished, after)
  | solved {space : Space} {after : Search γ σ} (exploring : after.phase = .exploring)
    (lighter : stackWeight after.stack < bound) : Proceeds bound (.solved space, after)

/-- Exploring comes to the end, or to a solution and a stack of less weight. -/
theorem proceeds_explore (stack : List Space) (generator : γ) (engine : Engine Unit) :
    Proceeds (stackWeight stack) (explore network .silent stack generator engine) := by
  obtain ⟨last, turns, ending⟩ := exists_turns_ending network .silent stack generator engine
  have lighter := turns.weight_le
  revert ending
  generalize explore network .silent stack generator engine = result
  intro ending
  cases ending with
  | finished => exact .finished _
  | aborted branches propagated => exact absurd propagated Engine.propagate_silent_ne_aborted
  | faulted branches propagated => exact absurd propagated Engine.propagate_silent_ne_faulted
  | solved branches propagated solved =>
    obtain ⟨exploring, less⟩ := (Ending.solved branches propagated solved).weight_lt
    exact .solved exploring (Nat.lt_of_lt_of_le less lighter)

/-- The first request of an unobserved search leaves no more than a bounded stack. -/
theorem exists_proceeds_start (generator : γ) (engine : Engine Unit) :
    ∃ bound, Proceeds bound (start network .silent generator engine) := by
  have started := starts network .silent generator engine
  generalize start network .silent generator engine = result at started ⊢
  cases started with
  | reject propagated => exact ⟨0, .finished _⟩
  | abort propagated => exact absurd propagated Engine.propagate_silent_ne_aborted
  | fault propagated => exact absurd propagated Engine.propagate_silent_ne_faulted
  | solve propagated solved => exact ⟨1, .solved rfl Nat.one_pos⟩
  | explore propagated unsolved later => exact ⟨_, later.eq ▸ proceeds_explore _ _ _⟩

/-- A search comes to its end after finitely many requests. -/
theorem exists_reports {search : Search γ Unit} {bound : Nat}
    (proceeds : Proceeds bound (search.next network .silent)) :
    ∃ spaces, Reports network .silent search spaces := by
  induction bound using Nat.strong_induction_on generalizing search with
  | _ bound inductionHypothesis =>
    generalize answered : search.next network .silent = result at proceeds
    cases proceeds with
    | finished after => exact ⟨[], .finished answered⟩
    | @solved space after exploring lighter =>
      have again : Proceeds (stackWeight after.stack) (after.next network .silent) := by
        rw [next_of_exploring exploring]
        exact proceeds_explore _ _ _
      obtain ⟨spaces, later⟩ := inductionHypothesis (stackWeight after.stack) lighter again
      exact ⟨space :: spaces, .solved answered later⟩

/-! ### The place of an assignment -/

/-- A single space of the list contains the assignment. -/
theorem exists_unique_of_containing_eq_one {spaces : List Space}
    (one : containing network assignment spaces = 1) :
    ∃! index : Nat, ∃ space, spaces[index]? = some space ∧ network.Contains space assignment := by
  induction spaces with
  | nil => cases one
  | cons first rest inductionHypothesis =>
    rw [containing_cons] at one
    by_cases contains : network.Contains first assignment
    · rw [if_pos contains] at one
      have none : ∀ space ∈ rest, ¬ network.Contains space assignment := by
        have zero : containing network assignment rest = 0 := by omega
        simpa [containing, List.countP_eq_zero] using zero
      refine ⟨0, ⟨first, rfl, contains⟩, ?_⟩
      rintro (_ | index) ⟨space, found, others⟩
      · rfl
      · exact absurd others (none space (List.mem_of_getElem? found))
    · rw [if_neg contains, Nat.zero_add] at one
      obtain ⟨index, holds, only⟩ := inductionHypothesis one
      refine ⟨index + 1, holds, ?_⟩
      rintro (_ | other) ⟨space, found, others⟩
      · cases found
        exact absurd others contains
      · rw [only other ⟨space, found, others⟩]

end Search

/-! ### Solutions -/

namespace Network

variable {network : Network} {model : Model} {space : Space}

/-- The smallest values of a space, which are its only ones where it is fixed. -/
def leastPoint (space : Space) : VariableId → Int :=
  fun variableId => (space.domainOf variableId).min?.getD 0

/-- The least values of a space in which every variable has one are in it. -/
theorem Solves.contains_leastPoint (solves : network.Solves space) :
    network.Contains space (leastPoint space) := by
  intro variableId inside
  have nonempty : (space.domainOf variableId).Nonempty := solves.quiet.nonempty variableId inside
  obtain ⟨smallest, isSmallest⟩ := nonempty.exists_min?
  have isLeast : leastPoint space variableId = smallest := by
    rw [leastPoint, isSmallest, Option.getD_some]
  exact isLeast ▸ (Domain.min?_eq_some_iff.mp isSmallest).1

/-- A solution has fixed every targeted variable, to the value that any assignment in it has. -/
theorem Solves.solvedValue?_of_contains (solves : network.Solves space)
    (built : network.BuiltFor model) {assignment : VariableId → Int}
    (contains : network.Contains space assignment) {variableId : VariableId}
    (targeted : variableId ∈ network.targeted) :
    (space.domainOf variableId).solvedValue? = some (assignment variableId) := by
  have fixed : (space.domainOf variableId).isSolved := by
    by_contra unsolved
    have listed := (solves.lists variableId).mpr ⟨targeted, unsolved⟩
    rw [Space.isSolved_iff.mp solves.solved] at listed
    exact List.not_mem_nil listed
  obtain ⟨only, isOnly⟩ := Domain.isSolved_iff.mp fixed
  have member := contains variableId (built.targeted_lt variableId targeted)
  rw [isOnly, (Domain.solvedValue?_eq_some_iff.mp isOnly _).mp member]

/-- In a solution all of whose variables are targeted, an assignment is contained only as the values
that the variables are fixed to. -/
theorem Solves.contains_iff_fixed (solves : network.Solves space) (built : network.BuiltFor model)
    (targeted : ∀ variableId < network.vars.size, variableId ∈ network.targeted)
    {assignment : VariableId → Int} :
    network.Contains space assignment ↔
      ∀ variableId < network.vars.size, (space.domainOf variableId).solvedValue? =
        some (assignment variableId) :=
  ⟨fun contains variableId inside =>
    solves.solvedValue?_of_contains built contains (targeted variableId inside),
    fun fixed variableId inside => Domain.mem_of_solvedValue? (fixed variableId inside)⟩

end Network

/-- **Completeness without duplication.** Without an observer and without Markov strategies, a
search of a prepared model comes to its end, and every assignment that satisfies the network is then
in exactly one of the reported spaces. If all variables are targeted, this space has nothing
else. -/
theorem Workspace.Reachable.exists_unique_report {workspace : Workspace} {network : Network}
    (reachable : workspace.Reachable) (prepared : workspace.model.network = some network)
    (unweighted : ∀ variableId, workspace.model.isMarkov variableId = false) {γ : Type}
    [Generator γ] (generator : γ) (journal : Journal) :
    (∃ spaces, (Search.initial network generator () journal).Reports network .silent spaces) ∧
      ∀ spaces, (Search.initial network generator () journal).Reports network .silent spaces →
        ∀ assignment, network.Satisfied assignment →
          (∃! index : Nat, ∃ space, spaces[index]? = some space ∧
            network.Contains space assignment) ∧
              (workspace.model.targets = .all → ∃! index : Nat, ∃ space,
                spaces[index]? = some space ∧ ∀ variableId < network.vars.size,
                  (space.domainOf variableId).solvedValue? = some (assignment variableId)) := by
  have built := reachable.builtFor prepared
  have favours := built.favours_of_unweighted (built.isMarkov_eq_false prepared unweighted)
  constructor
  · obtain ⟨bound, proceeds⟩ :=
      @Search.exists_proceeds_start γ _ network generator (.initial network () journal)
    exact @Search.exists_reports γ _ network (.initial network generator () journal) bound proceeds
  · intro spaces reports assignment satisfied
    have faithful := Changes.faithful_forVariables network.vars.size
    have sound : (Search.initial network generator () journal).position.Sound γ network :=
      ⟨faithful, fun _ inside => by cases inside⟩
    have one := reports.containing_eq built (favours assignment) satisfied sound
      (Search.accounts_start built (favours assignment) satisfied faithful)
    have placed := Search.exists_unique_of_containing_eq_one one
    refine ⟨placed, fun all => ?_⟩
    have fixed : ∀ space ∈ spaces,
        (network.Contains space assignment ↔
          ∀ variableId < network.vars.size, (space.domainOf variableId).solvedValue? =
            some (assignment variableId)) := fun space inside =>
              (reports.solves built sound space inside).contains_iff_fixed built
                (built.targeted_all all)
    refine (existsUnique_congr fun index => exists_congr fun space => ?_).mp placed
    exact and_congr_right fun found => fixed space (List.mem_of_getElem? found)

/-- The search for two variables in order comes to its end, and reports 0 before 1 once. -/
theorem Workspace.exists_unique_report_inOrder :
    ∃ network spaces, inOrder.model.network = some network ∧
      (Search.initial network (⟨#[], 0⟩ : Script) () {}).Reports network .silent spaces ∧
      ∃! index : Nat, ∃ space, spaces[index]? = some space ∧
        ∀ variableId < network.vars.size, (space.domainOf variableId).solvedValue? =
          some ([0, 1].getD variableId 0) := by
  refine ⟨inOrder.model.network.get isPrepared_inOrder, ?_⟩
  have prepared : inOrder.model.network = some (inOrder.model.network.get isPrepared_inOrder) :=
    Option.eq_some_of_isSome _
  have unweighted : ∀ variableId, inOrder.model.isMarkov variableId = false := by
    apply Model.isMarkov_eq_false_of_lt
    decide +kernel
  have satisfied : (inOrder.model.network.get isPrepared_inOrder).Satisfied ([0, 1].getD · 0) := by
    have only : (inOrder.model.network.get isPrepared_inOrder).propagators.toList =
        [.relation .lt 0 1] := rfl
    have admits : ∀ variableId < (inOrder.model.network.get isPrepared_inOrder).vars.size,
        [0, 1].getD variableId 0 ∈ (inOrder.model.network.get isPrepared_inOrder).vars.domainOf
        variableId := by
      decide +kernel
    refine ⟨admits, ?_⟩
    rw [only]
    exact List.forall_mem_singleton.mpr (show (0 : Int) < 1 by decide)
  generalize inOrder.model.network.get isPrepared_inOrder = network at prepared satisfied
  obtain ⟨⟨spaces, reports⟩, placed⟩ :=
    (reachable_ofRequests _).exists_unique_report prepared unweighted (⟨#[], 0⟩ : Script) {}
  exact ⟨spaces, prepared, reports, (placed spaces reports _ satisfied).2 rfl⟩

end ConstraintSearch
