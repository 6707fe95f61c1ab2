import ConstraintSearch.Proofs.Search.Completeness
import ConstraintSearch.Proofs.Search.Layers

/-!
# Regions of the search tree

The assignments that a frame awaits are its region of the tree. Where everything in the first child
of a frame is related to everything that the frame awaits after it, the frames of the stack are
related in the same way, the upper ones to the lower ones, and so are the spaces that a search
reports, the earlier ones to the later ones.
-/

namespace ConstraintSearch

/-- What is said of two assignments, the first of which comes up earlier. -/
abbrev Relation :=
  (earlier later : VariableId → Int) → Prop

namespace Network

variable {γ σ : Type} [Generator γ] {network : Network} {model : Model} {related : Relation}
  {assignment : VariableId → Int}

/-- Whatever the next child of a frame contains is related to everything that the frame awaits after
it. -/
def Separates (γ : Type) [Generator γ] (network : Network) (related : Relation) : Prop :=
  ∀ {top : Space} {variableId : VariableId} {part : SmallerPart top variableId},
    network.Frame γ top → network.ListsInOrder top → network.Branches γ top variableId part →
      ∀ earlier later, network.Contains (top.child variableId part.domain) earlier →
        network.Awaits γ (top.branched part.lastChosen) later → related earlier later

/-- What the upper one of two frames awaits is related to what the lower one awaits. -/
def Apart (γ : Type) [Generator γ] (network : Network) (related : Relation) (upper lower : Space) :
    Prop :=
  ∀ earlier later, network.Awaits γ upper earlier → network.Awaits γ lower later →
    related earlier later

/-- Spaces remain apart when the upper one awaits less. -/
theorem Apart.of_imp {upper smaller lower : Space} (apart : network.Apart γ related upper lower)
    (fewer : ∀ assignment, network.Awaits γ smaller assignment →
      network.Awaits γ upper assignment) :
    network.Apart γ related smaller lower :=
  fun earlier later awaits => apart earlier later (fewer earlier awaits)

/-- A stable space has no assignments but those of the space that was propagated. -/
theorem contains_of_stable {engine final : Engine σ} {observer : Observer σ} {space settled : Space}
    (stable : engine.propagate network observer space = (.stable settled, final))
    (contains : network.Contains settled assignment) : network.Contains space assignment :=
  fun variableId inside => Engine.within_of_stable stable variableId _ (contains variableId inside)

end Network

namespace Search

variable {γ σ : Type} [Generator γ] {network : Network} {model : Model} {observer : Observer σ}
  {related : Relation} {assignment : VariableId → Int}

/-- Some frame of the stack awaits the assignment. -/
def Awaited (γ : Type) [Generator γ] (network : Network) (stack : List Space)
    (assignment : VariableId → Int) : Prop :=
  ∃ frame ∈ stack, network.Awaits γ frame assignment

/-- The upper frames of the stack are apart from the lower ones. -/
def Apart (γ : Type) [Generator γ] (network : Network) (related : Relation) (stack : List Space) :
    Prop :=
  stack.Pairwise (network.Apart γ related)

/-- An assignment is awaited by the top or below it. -/
theorem awaited_cons {top : Space} {rest : List Space} :
    Awaited γ network (top :: rest) assignment ↔
      network.Awaits γ top assignment ∨ Awaited γ network rest assignment := by
  simp [Awaited]

/-! ### Children -/

section Children

variable {top : Space} {rest : List Space} {variableId : VariableId}
  {part : SmallerPart top variableId} (built : network.BuiltFor model) (frame : network.Frame γ top)
  (branches : network.Branches γ top variableId part)

include built frame branches

/-- What a frame awaits after a division it has awaited before. -/
theorem awaits_of_branched (awaits : network.Awaits γ (top.branched part.lastChosen) assignment) :
    network.Awaits γ top assignment :=
  (frame.awaits_iff built branches).1.mpr (.inr awaits)

/-- A frame has awaited all that its child contains. -/
theorem awaits_of_contains_child
    (contains : network.Contains (top.child variableId part.domain) assignment) :
    network.Awaits γ top assignment :=
  (frame.awaits_iff built branches).1.mpr (.inl contains)

/-- So the stack awaits no more after a division. -/
theorem awaited_of_branched
    (awaited : Awaited γ network (top.branched part.lastChosen :: rest) assignment) :
    Awaited γ network (top :: rest) assignment :=
  awaited_cons.mpr ((awaited_cons.mp awaited).imp_left (awaits_of_branched built frame branches))

/-- Its spaces remain apart. -/
theorem apart_branched (apart : Apart γ network related (top :: rest)) :
    Apart γ network related (top.branched part.lastChosen :: rest) := by
  obtain ⟨topApart, restApart⟩ := List.pairwise_cons.mp apart
  refine List.pairwise_cons.mpr ⟨fun lower below => ?_, restApart⟩
  exact (topApart lower below).of_imp fun _ => awaits_of_branched built frame branches

/-- What the next child contains is related to everything that is awaited after it. -/
theorem related_of_contains_child (separates : network.Separates γ related)
    (listed : network.ListsInOrder top) (apart : Apart γ network related (top :: rest))
    {earlier later : VariableId → Int}
    (contains : network.Contains (top.child variableId part.domain) earlier)
    (awaited : Awaited γ network (top.branched part.lastChosen :: rest) later) :
    related earlier later := by
  rcases awaited_cons.mp awaited with again | ⟨lower, below, awaits⟩
  · exact separates frame listed branches earlier later contains again
  · have topAwaits := awaits_of_contains_child built frame branches contains
    exact (List.pairwise_cons.mp apart).1 lower below earlier later topAwaits awaits

end Children

/-! ### Turns -/

section Turns

variable {before after : Position σ} (built : network.BuiltFor model)
  (separates : network.Separates γ related)

include built

/-- A turn makes no frame await what was not awaited before. -/
theorem Turn.awaited (turn : Turn γ network observer before after) (sound : before.Sound γ network)
    (awaited : Awaited γ network after.stack assignment) :
    Awaited γ network before.stack assignment := by
  cases turn with
  | leave unselected => exact awaited_cons.mpr (.inr awaited)
  | giveUp selected undivided => exact awaited_cons.mpr (.inr awaited)
  | reject branches propagated =>
    obtain ⟨frame, _⟩ := List.forall_mem_cons.mp sound.frames
    exact awaited_of_branched built frame branches awaited
  | descend branches propagated unsolved =>
    obtain ⟨frame, _⟩ := List.forall_mem_cons.mp sound.frames
    rcases awaited_cons.mp awaited with awaits | later
    · have contains := Network.contains_of_stable propagated awaits.1
      exact awaited_cons.mpr (.inl (awaits_of_contains_child built frame branches contains))
    · exact awaited_of_branched built frame branches later

include separates

/-- A turn keeps the spaces of the stack apart. The cases are whether the child is rejected, stays
on the stack or is reported. -/
theorem Turn.apart (turn : Turn γ network observer before after) (sound : before.Sound γ network)
    (layered : Layered network before.stack) (apart : Apart γ network related before.stack) :
    Apart γ network related after.stack := by
  cases turn with
  | leave unselected => exact (List.pairwise_cons.mp apart).2
  | giveUp selected undivided => exact (List.pairwise_cons.mp apart).2
  | reject branches propagated =>
    obtain ⟨frame, _⟩ := List.forall_mem_cons.mp sound.frames
    exact apart_branched built frame branches apart
  | descend branches propagated unsolved =>
    obtain ⟨frame, _⟩ := List.forall_mem_cons.mp sound.frames
    obtain ⟨listed, _⟩ := List.forall_mem_cons.mp layered.listed
    have restApart := apart_branched built frame branches apart
    refine List.pairwise_cons.mpr ⟨fun lower below earlier later awaits lowerAwaits =>
      ?_, restApart⟩
    have contains := Network.contains_of_stable propagated awaits.1
    exact related_of_contains_child built frame branches separates listed apart contains
      ⟨lower, below, lowerAwaits⟩

/-- What turns preserve, from one position to the next. -/
theorem Turns.apart (turns : Turns γ network observer before after) (sound : before.Sound γ network)
    (layered : Layered network before.stack) (apart : Apart γ network related before.stack) :
    Apart γ network related after.stack ∧
      ∀ assignment, Awaited γ network after.stack assignment →
        Awaited γ network before.stack assignment := by
  induction turns with
  | refl => exact ⟨apart, fun _ => id⟩
  | tail turns turn inductionHypothesis =>
    have middleSound := Turns.sound built turns sound
    have middleLayered := Turns.layered built turns sound layered
    obtain ⟨middleApart, fewer⟩ := inductionHypothesis
    exact ⟨turn.apart built separates middleSound middleLayered middleApart,
      fun assignment awaited => fewer assignment (turn.awaited built middleSound awaited)⟩

end Turns

/-! ### Requests -/

/-- What a request leaves behind when it reports a space, out of the assignments that were awaited:
frames that are apart, and assignments that come up later than those of the space. -/
structure Yields (γ : Type) [Generator γ] (network : Network) (related : Relation)
    (awaited : (VariableId → Int) → Prop) (space : Space) (after : Search γ σ) : Prop where
  exploring : after.phase = .exploring
  layered : Layered network after.stack
  apart : Apart γ network related after.stack
  contained : ∀ assignment, network.Contains space assignment → awaited assignment
  remaining : ∀ assignment, Awaited γ network after.stack assignment → awaited assignment
  earlier : ∀ earlier later, network.Contains space earlier → Awaited γ network after.stack later →
    related earlier later

section Requests

variable (built : network.BuiltFor model) (separates : network.Separates γ related)

include built separates

/-- Exploring a stack whose spaces are apart reports a space apart from what is left. -/
theorem yields_explore {stack : List Space} {generator : γ} {engine : Engine σ}
    (sound : Position.Sound γ network ⟨stack, engine⟩) (layered : Layered network stack)
    (apart : Apart γ network related stack) {space : Space} {after : Search γ σ}
    (reported : explore network observer stack generator engine = (.solved space, after)) :
    Yields γ network related (Awaited γ network stack) space after := by
  obtain ⟨last, turns, ending⟩ := exists_turns_ending network observer stack generator engine
  have lastSound := Turns.sound built turns sound
  have lastLayered := Turns.layered built turns sound layered
  obtain ⟨lastApart, fewer⟩ := Turns.apart built separates turns sound layered apart
  have afterLayered := ending.layered lastLayered
  rw [reported] at ending afterLayered
  cases ending with
  | solved branches propagated solved =>
    obtain ⟨frame, _⟩ := List.forall_mem_cons.mp lastSound.frames
    obtain ⟨listed, _⟩ := List.forall_mem_cons.mp lastLayered.listed
    refine ⟨rfl, afterLayered, apart_branched built frame branches lastApart,
      fun assignment contains => fewer assignment ?_, fun assignment awaited =>
        fewer assignment (awaited_of_branched built frame branches awaited),
      fun earlier later contains awaited => ?_⟩
    · have childContains := Network.contains_of_stable propagated contains
      exact awaited_cons.mpr (.inl (awaits_of_contains_child built frame branches childContains))
    · have childContains := Network.contains_of_stable propagated contains
      exact related_of_contains_child built frame branches separates listed lastApart
        childContains awaited

/-- A solved root leaves nothing to come; otherwise its regions are those of the first stack. -/
theorem yields_start {generator : γ} {engine : Engine σ} (faithful : engine.changes.Faithful)
    {space : Space} {after : Search γ σ}
    (reported : start network observer generator engine = (.solved space, after)) :
    Yields γ network related (fun _ => True) space after := by
  have nothing : ∀ assignment, ¬ Awaited γ network [] assignment :=
    fun _ ⟨_, inside, _⟩ => List.not_mem_nil inside
  have started := starts network observer generator engine
  rw [reported] at started
  cases started with
  | solve propagated solved =>
    exact ⟨rfl, layered_nil network, .nil, fun _ _ => trivial, fun _ _ => trivial,
      fun _ later _ awaited => absurd awaited (nothing later)⟩
  | @explore root final _ propagated unsolved later =>
    have countedFaithful : engine.countSpace.changes.Faithful := faithful
    have frame : network.Frame γ root := .root built propagated countedFaithful unsolved
    have finalFaithful := Engine.faithful_of_propagate propagated countedFaithful
    have sound : Position.Sound γ network
        ⟨[root], final.tally fun statistics => { statistics with peakDepth := 1 }⟩ :=
      ⟨finalFaithful, List.forall_mem_singleton.mpr frame⟩
    have yields := yields_explore built separates sound
      (layered_root built countedFaithful propagated) (List.pairwise_singleton _ root) later.eq
    exact ⟨yields.exploring, yields.layered, yields.apart, fun _ _ => trivial, fun _ _ => trivial,
      yields.earlier⟩

/-- The spaces that a search reports one after the other are apart, if the first request leaves
frames that are. -/
theorem Reports.apart {search : Search γ σ} {spaces : List Space}
    (reports : Reports network observer search spaces) (sound : search.position.Sound γ network)
    {awaited : (VariableId → Int) → Prop}
    (yields : ∀ {space after}, search.next network observer = (.solved space, after) →
      Yields γ network related awaited space after) :
    (∀ space ∈ spaces, ∀ assignment, network.Contains space assignment → awaited assignment) ∧
      spaces.Pairwise fun first second =>
        ∀ earlier later, network.Contains first earlier → network.Contains second later →
          related earlier later := by
  induction reports generalizing awaited with
  | finished ended => exact ⟨fun _ inside => absurd inside List.not_mem_nil, .nil⟩
  | @solved search after space spaces reported later inductionHypothesis =>
    have afterSound := (@answers_next _ _ _ _ _ observer built _ sound).sound
    rw [reported] at afterSound
    have firstYields := yields reported
    have laterYields : ∀ {next last}, after.next network observer = (.solved next, last) →
        Yields γ network related (Awaited γ network after.stack) next last := by
      intro next last again
      rw [next_of_exploring firstYields.exploring] at again
      exact yields_explore built separates afterSound firstYields.layered firstYields.apart again
    obtain ⟨contained, apart⟩ := inductionHypothesis afterSound laterYields
    refine ⟨List.forall_mem_cons.mpr ⟨firstYields.contained, fun next inside assignment contains =>
      ?_⟩, List.pairwise_cons.mpr ⟨fun next inside first second contains nextContains => ?_, apart⟩⟩
    · exact firstYields.remaining assignment (contained next inside assignment contains)
    · exact firstYields.earlier first second contains (contained next inside second nextContains)

/-- From the first request on, what is in an earlier report is related to what is in a later one. -/
theorem Reports.apart_of_initial {generator : γ} {observed : σ} {journal : Journal}
    {spaces : List Space}
    (reports : (Search.initial network generator observed journal).Reports network observer
      spaces) : spaces.Pairwise fun first second => ∀ earlier later,
        network.Contains first earlier → network.Contains second later → related earlier later := by
  have faithful := Changes.faithful_forVariables network.vars.size
  have sound : (Search.initial network generator observed journal).position.Sound γ network :=
    ⟨faithful, fun _ inside => absurd inside List.not_mem_nil⟩
  exact (reports.apart built separates sound fun reported =>
    yields_start built separates faithful reported).2

end Requests

end Search

end ConstraintSearch
