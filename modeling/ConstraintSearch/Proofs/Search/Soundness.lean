import ConstraintSearch.Proofs.Search.Turns

/-!
# Sound solutions

However a search is driven, its stack holds frames, and every space that it reports is quiet and has
all targeted variables fixed. A constraint whose variables are fixed in such a space holds for their
values, since its propagators are at rest.
-/

namespace ConstraintSearch

/-- The space that a search came upon, if it is solved. -/
def Outcome.space? : Outcome → Option Space
  | .solved space => some space
  | _ => none

/-- A quiet space in which every targeted variable is fixed. -/
structure Network.Solves (network : Network) (space : Space) : Prop where
  quiet : network.Quiet space.domains
  lists : network.Lists space
  solved : space.isSolved

namespace Search

variable {γ σ : Type} [Generator γ] {network : Network} {model : Model} {observer : Observer σ}

/-! ### What turns preserve -/

/-- Changes are noted faithfully, and the stack holds frames. -/
structure Position.Sound (γ : Type) [Generator γ] (network : Network) (position : Position σ) :
    Prop where
  faithful : position.engine.changes.Faithful
  frames : ∀ space ∈ position.stack, network.Frame γ space

/-- The position of a search. -/
def position (search : Search γ σ) : Position σ :=
  ⟨search.stack, search.engine⟩

/-- What a request is answered by: a search that is sound again, and a solution, if it says so. -/
structure Answers (network : Network) (result : Outcome × Search γ σ) : Prop where
  sound : result.2.position.Sound γ network
  solves : ∀ space, result.1 = .solved space → network.Solves space

/-- Requesting a child leaves frames on the stack, whatever comes of the child and whatever is
counted and noted. -/
theorem Position.Sound.branched {top space : Space} {rest : List Space}
    {engine final other : Engine σ} {spent : Statistics → Statistics} {variableId : VariableId}
    {part : SmallerPart top variableId} {verdict : Verdict}
    (sound : Position.Sound γ network ⟨top :: rest, engine⟩)
    (branches : network.Branches γ top variableId part)
    (propagated : (engine.tally spent).propagate network observer space = (verdict, final))
    (same : other.changes = final.changes) :
    Position.Sound γ network ⟨top.branched part.lastChosen :: rest, other⟩ := by
  obtain ⟨frame, frames⟩ := List.forall_mem_cons.mp sound.frames
  refine ⟨?_, List.forall_mem_cons.mpr ⟨frame.branched branches, frames⟩⟩
  exact same ▸ Engine.faithful_of_propagate propagated sound.faithful

/-- A turn that goes on leaves frames on the stack. -/
theorem Turn.sound (built : network.BuiltFor model) {before after : Position σ}
    (turn : Turn γ network observer before after) (sound : before.Sound γ network) :
    after.Sound γ network := by
  cases turn with
  | leave unselected => exact ⟨sound.faithful, (List.forall_mem_cons.mp sound.frames).2⟩
  | giveUp selected undivided => exact ⟨sound.faithful, (List.forall_mem_cons.mp sound.frames).2⟩
  | reject branches propagated => exact sound.branched branches propagated rfl
  | descend branches propagated unsolved =>
    obtain ⟨frame, _⟩ := List.forall_mem_cons.mp sound.frames
    obtain ⟨finalFaithful, frames⟩ := sound.branched branches propagated rfl
    have child := frame.child branches built propagated sound.faithful unsolved
    exact ⟨finalFaithful, List.forall_mem_cons.mpr ⟨child, frames⟩⟩

/-- All turns keep a position sound, as each of them does. -/
theorem Turns.sound (built : network.BuiltFor model) {before after : Position σ}
    (turns : Turns γ network observer before after) (sound : before.Sound γ network) :
    after.Sound γ network := by
  induction turns with
  | refl => exact sound
  | tail _ turn inductionHypothesis => exact turn.sound built inductionHypothesis

/-! ### What requests are answered by -/

/-- The end of a request answers a space that solves the network, or none. -/
theorem Ending.answers (built : network.BuiltFor model) {last : Position σ}
    {result : Outcome × Search γ σ} (ending : Ending network observer last result)
    (sound : last.Sound γ network) : Answers network result := by
  cases ending with
  | finished =>
    exact ⟨⟨sound.faithful, fun _ inside => by cases inside⟩, fun _ solved => by cases solved⟩
  | aborted branches propagated =>
    exact ⟨sound.branched branches propagated rfl, fun _ solved => by cases solved⟩
  | faulted branches propagated =>
    exact ⟨sound.branched branches propagated rfl, fun _ solved => by cases solved⟩
  | solved branches propagated solved =>
    obtain ⟨frame, _⟩ := List.forall_mem_cons.mp sound.frames
    refine ⟨sound.branched branches propagated rfl, ?_⟩
    rintro _ ⟨rfl⟩
    exact ⟨frame.quiet_child branches built propagated sound.faithful,
      frame.lists_child branches built propagated sound.faithful, solved⟩

/-- Exploring a sound stack answers so, by its turns and its ending. -/
theorem answers_explore (built : network.BuiltFor model) {stack : List Space} {generator : γ}
    {engine : Engine σ} (sound : Position.Sound γ network ⟨stack, engine⟩) :
    Answers network (explore network observer stack generator engine) := by
  obtain ⟨last, turns, ending⟩ := exists_turns_ending network observer stack generator engine
  exact ending.answers built (turns.sound built sound)

/-- The first request leaves frames, and reports nothing but quiet solved spaces. -/
theorem answers_start (built : network.BuiltFor model) {generator : γ} {engine : Engine σ}
    (faithful : engine.changes.Faithful) :
    Answers network (start network observer generator engine) := by
  have started := starts network observer generator engine
  generalize start network observer generator engine = result at started ⊢
  cases started with
  | reject propagated | abort propagated | fault propagated =>
    have finalFaithful := Engine.faithful_of_propagate propagated faithful
    exact ⟨⟨finalFaithful, fun _ inside => by cases inside⟩, fun _ solved => by cases solved⟩
  | solve propagated solved =>
    have finalFaithful := Engine.faithful_of_propagate propagated faithful
    refine ⟨⟨finalFaithful, fun _ inside => by cases inside⟩, ?_⟩
    rintro _ ⟨rfl⟩
    exact ⟨Network.quiet_of_root built.coherent propagated faithful,
      Network.lists_of_root built propagated faithful, solved⟩
  | @explore root final _ propagated unsolved later =>
    have finalFaithful := Engine.faithful_of_propagate propagated faithful
    have frame : network.Frame γ root := .root built propagated faithful unsolved
    obtain rfl := later.eq
    exact answers_explore built ⟨finalFaithful, List.forall_mem_singleton.mpr frame⟩

/-- So does every request, from the first one on. -/
theorem answers_next (built : network.BuiltFor model) {search : Search γ σ}
    (sound : search.position.Sound γ network) : Answers network (search.next network observer) := by
  rw [next]
  split
  · exact ⟨sound, fun _ solved => by cases solved⟩
  · exact ⟨sound, fun _ solved => by cases solved⟩
  · exact answers_start built sound.faithful
  · exact answers_explore built sound

/-- The spaces that a search reports, request after request, until it comes to the end. -/
inductive Reports (network : Network) (observer : Observer σ) : Search γ σ → List Space → Prop
  | finished {search after : Search γ σ}
      (ended : search.next network observer = (.finished, after)) :
    Reports network observer search []
  | solved {search after : Search γ σ} {space : Space} {spaces : List Space}
    (reported : search.next network observer = (.solved space, after))
    (later : Reports network observer after spaces) :
    Reports network observer search (space :: spaces)

/-- All reported spaces solve the network, by induction on the reports. -/
theorem Reports.solves (built : network.BuiltFor model) {search : Search γ σ} {spaces : List Space}
    (reports : Reports network observer search spaces) (sound : search.position.Sound γ network) :
    ∀ space ∈ spaces, network.Solves space := by
  induction reports with
  | finished ended => exact fun _ inside => by cases inside
  | @solved search after space spaces reported later inductionHypothesis =>
    have answers := @answers_next _ _ _ _ _ observer built _ sound
    rw [reported] at answers
    exact List.forall_mem_cons.mpr ⟨answers.solves space rfl, inductionHypothesis answers.sound⟩

/-- Only a solution has a space. -/
theorem exists_solved_of_space? {search : Search γ σ} {space : Space}
    (found : (search.next network observer).1.space? = some space) :
    ∃ after, search.next network observer = (.solved space, after) := by
  cases answered : search.next network observer with
  | mk outcome after =>
    rw [answered] at found
    cases outcome with
    | solved space =>
      cases found
      exact ⟨after, rfl⟩
    | finished => cases found
    | aborted => cases found
    | faulted fault => cases found

/-- The searches that come up from the first request on, whatever observers look at them. -/
inductive Reached (network : Network) : Search γ σ → Prop
  | initial (generator : γ) (observed : σ) (journal : Journal) :
      Reached network (.initial network generator observed journal)
  | next {search : Search γ σ} (reached : Reached network search) (observer : Observer σ) :
    Reached network (search.next network observer).2

/-- Every reached search is sound, whatever was requested before. -/
theorem Reached.sound (built : network.BuiltFor model) {search : Search γ σ}
    (reached : search.Reached network) : search.position.Sound γ network := by
  induction reached with
  | initial generator observed journal =>
    exact ⟨Changes.faithful_forVariables _, fun _ inside => by cases inside⟩
  | next reached observer inductionHypothesis =>
    exact (answers_next built inductionHypothesis).sound

end Search

/-! ### Solutions -/

/-- The variables of a constraint that is not about the order of a variable and itself have values
for which it holds, if they are fixed in a quiet space. -/
theorem Workspace.Reachable.holds_of_quiet {workspace : Workspace} {network : Network}
    (reachable : workspace.Reachable) (prepared : workspace.model.network = some network)
    {space : Space} (quiet : network.Quiet space.domains) {constraint : Constraint}
    (inside : constraint ∈ workspace.model.constraints.toList)
    (possible : ¬ constraint.OrdersItself) {assignment : VariableId → Int}
    (fixed : ∀ variableId ∈ constraint.scope, (space.domainOf variableId).solvedValue? =
      some (assignment variableId)) : constraint.Holds assignment := by
  have built := reachable.builtFor prepared
  have sound := reachable.sound
  have consistent := built.consistent quiet.nonempty
    (fun _ member => quiet.keeps_or_ordersItself member) inside possible
  apply Constraint.holds_of_consistent (sound.wellFormed constraint inside) consistent fixed
  intro result isTruth
  have reads := Constraint.mem_scope_of_truthVariable? isTruth
  have subset := quiet.subset result
  rw [built.domainOf_eq (sound.inside constraint inside result reads)] at subset
  have truth := Domain.Subset.trans subset (sound.truth constraint inside result isTruth)
  have member := Domain.mem_range.mp (truth _ (Domain.mem_of_solvedValue? (fixed result reads)))
  omega

/-- **Soundness.** Whenever a search of a prepared model reports a space, every constraint whose
variables are all fixed in it holds for their values, unless the constraint orders a variable and
itself. -/
theorem Workspace.Reachable.holds_of_solved {workspace : Workspace} {network : Network}
    (reachable : workspace.Reachable) (prepared : workspace.model.network = some network)
    {γ σ : Type} [Generator γ] {search after : Search γ σ} (reached : search.Reached network)
    {observer : Observer σ} {space : Space}
    (reported : search.next network observer = (.solved space, after)) {constraint : Constraint}
    (inside : constraint ∈ workspace.model.constraints.toList)
    (possible : ¬ constraint.OrdersItself) {assignment : VariableId → Int}
    (fixed : ∀ variableId ∈ constraint.scope, (space.domainOf variableId).solvedValue? =
      some (assignment variableId)) : constraint.Holds assignment := by
  have built := reachable.builtFor prepared
  have solves := (@Search.answers_next γ σ _ _ _ observer built _ (reached.sound built)).solves
    space (by rw [reported])
  exact reachable.holds_of_quiet prepared solves.quiet inside possible fixed

/-- Two variables from 0 to 2, the first of which comes before the second. -/
def Workspace.inOrder : Workspace :=
  .ofRequests
    [.declareRange "X" 0 2, .declareRange "Y" 0 2,
      .declareConstraint (.compare .lt) [.named "X", .named "Y"] none, .prepare]

/-- The ordered variables can be prepared. -/
theorem Workspace.isPrepared_inOrder : inOrder.model.isPrepared := by
  decide +kernel

/-- The first solution has 0 before 1. -/
theorem Workspace.holds_of_solved_inOrder :
    ∃ network space after, inOrder.model.network = some network ∧
      (Search.initial network (⟨#[], 0⟩ : Script) () {}).next network .silent =
        (.solved space, after) ∧
      Constraint.Holds ⟨.compare .lt, [0, 1], none⟩ fun variableId =>
        if variableId = 0 then 0 else 1 := by
  refine ⟨inOrder.model.network.get isPrepared_inOrder, ?_⟩
  have reported :
      ((Search.initial (inOrder.model.network.get isPrepared_inOrder) (⟨#[], 0⟩ : Script) ()
        {}).next (inOrder.model.network.get isPrepared_inOrder) .silent).1.space?.map
        (fun space => [space.domainOf 0, space.domainOf 1].map Domain.solvedValue?) =
          some [some 0, some 1] := by
    decide +kernel
  have prepared : inOrder.model.network = some (inOrder.model.network.get isPrepared_inOrder) :=
    Option.eq_some_of_isSome _
  have inside : ⟨.compare .lt, [0, 1], none⟩ ∈ inOrder.model.constraints.toList := by
    decide +kernel
  generalize inOrder.model.network.get isPrepared_inOrder = network at reported prepared
  obtain ⟨space, found, values⟩ := Option.map_eq_some_iff.mp reported
  obtain ⟨after, solved⟩ := Search.exists_solved_of_space? found
  refine ⟨space, after, prepared, solved, ?_⟩
  refine (reachable_ofRequests _).holds_of_solved prepared (.initial _ () {}) solved inside
    (fun ⟨_, same⟩ => ?_) ?_
  · cases same
  · simp only [List.map_cons, List.map_nil, List.cons.injEq] at values
    simp [Constraint.scope, values]

end ConstraintSearch
