import ConstraintSearch.Proofs.Search.Termination
import Mathlib.Data.List.Chain

/-!
# The stack of a search, layer by layer

Every space on the stack was made from the one below it, which has all values of the upper one and
more values of the variable that was branched on. It lists its unsolved variables in the order in
which they are targeted, and once its first child was requested it knows the value by which its
domain was divided. Turns of the search preserve this, so it holds between any two rounds of any
request, and a round finds whatever it reads.
-/

namespace ConstraintSearch

/-! ### Values by which domains are divided -/

/-- A cut whose parts remember the value by which the domain was divided. -/
def Domain.Cut.Remembers (cut : Domain.Cut) : Prop :=
  ∀ lastChosen choice part, cut lastChosen choice = some part → part.lastChosen.isSome

namespace Domain

/-- Both parts remember the picked value. -/
theorem remembers_pickThenRemove (domain : Domain) (pick : Option Int) :
    Cut.Remembers (domain.pickThenRemove pick) := by
  rintro lastChosen (_ | _ | choice) part divided
  · obtain ⟨value, _, rfl⟩ := Option.map_eq_some_iff.mp divided
    rfl
  · obtain ⟨value, chosen, rfl⟩ := Option.map_eq_some_iff.mp divided
    exact Option.isSome_of_eq_some chosen
  · cases divided

/-- Both halves remember the midpoint, whichever comes first. -/
theorem remembers_halves (domain : Domain) :
    Cut.Remembers domain.lowerHalfFirst ∧ Cut.Remembers domain.upperHalfFirst := by
  constructor
  all_goals
    rintro lastChosen (_ | _ | choice) part divided
    · obtain ⟨middle, _, rfl⟩ := Option.map_eq_some_iff.mp divided
      rfl
    · obtain ⟨middle, chosen, rfl⟩ := Option.map_eq_some_iff.mp divided
      exact Option.isSome_of_eq_some chosen
    · cases divided

end Domain

namespace ValueStrategy

variable {strategy : ValueStrategy VariableId} {variableId : VariableId}

/-- Whatever cut a strategy makes, its parts remember the value by which it cut. -/
theorem remembers_of_manner {whole : Domain} {cut : Domain.Cut}
    (cuts : strategy.manner variableId whole = .inl cut) : cut.Remembers := by
  induction strategy with
  | splitMin =>
    cases cuts
    exact whole.remembers_halves.1
  | splitMax =>
    cases cuts
    exact whole.remembers_halves.2
  | list values fallback inductionHypothesis =>
    rw [manner] at cuts
    split at cuts
    · cases cuts
      exact whole.remembers_pickThenRemove _
    · exact inductionHypothesis cuts
  | markov matrix => cases cuts
  | _ =>
    cases cuts
    exact whole.remembers_pickThenRemove _

/-- Whatever the strategy and the choice, a part remembers the value by which the domain was
divided. -/
theorem isSome_lastChosen_of_divide {γ : Type} [Generator γ] {space : Space} {choice : Nat}
    {generator next : γ} {part : Part}
    (divided : strategy.divide variableId space choice generator = some (part, next)) :
    part.lastChosen.isSome := by
  rw [divide_eq_of_several (several_of_divide divided) rfl] at divided
  cases cuts : strategy.manner variableId (space.domainOf variableId) with
  | inl cut =>
    rw [cuts] at divided
    obtain ⟨_, isPart, same⟩ := Option.map_eq_some_iff.mp divided
    cases same
    exact remembers_of_manner cuts _ _ _ isPart
  | inr matrix =>
    rw [cuts] at divided
    rcases choice with _ | _ | choice
    · simp only [MarkovMatrix.divide, Option.bind_eq_bind, Option.bind_eq_some_iff] at divided
      obtain ⟨_, _, _, _, _, _, same⟩ := divided
      cases same
      rfl
    · obtain ⟨value, chosen, same⟩ := Option.map_eq_some_iff.mp divided
      cases same
      exact Option.isSome_of_eq_some chosen
    · cases divided

end ValueStrategy

/-! ### Unsolved variables in order -/

namespace Network

/-- The space lists the targeted variables that are not fixed, in the order in which they are
targeted. -/
def ListsInOrder (network : Network) (space : Space) : Prop :=
  space.unsolved = network.targeted.filter fun variableId => !(space.domainOf variableId).isSolved

variable {network : Network} {model : Model}

/-- A stable space lists its unsolved variables in order, if the space that was propagated listed
what was unsolved in domains around it. -/
theorem listsInOrder_of_stable {σ : Type} {engine final : Engine σ} {observer : Observer σ}
    {space settled : Space} {former : Family} (built : network.BuiltFor model)
    (quiet : network.Quiet settled.domains) (within : Within settled.domainOf former)
    (listed : space.unsolved = network.targeted.filter fun variableId =>
      !(former variableId).isSolved)
    (stable : engine.propagate network observer space = (.stable settled, final)) :
    network.ListsInOrder settled := by
  obtain ⟨state, ran, rfl⟩ := Engine.exists_fixpoint_of_stable stable
  rw [ListsInOrder, Space.updateUnsolved]
  simp only [listed, List.filter_filter]
  refine List.filter_congr fun variableId targeted => ?_
  by_cases solved : (former variableId).isSolved
  · have remains :=
      quiet.isSolved_of_subset (built.targeted_lt variableId targeted) (within variableId) solved
    rw [solved, Bool.not_true, Bool.and_false, eq_comm, Bool.not_eq_false']
    exact remains
  · rw [Bool.eq_false_iff.mpr solved, Bool.not_false, Bool.and_true]
    rfl

end Network

/-! ### Layers -/

/-- The upper space was made from the lower one: all its domains are parts of the lower ones, that
of the branched variable a smaller one, and no other variable became unsolved. -/
structure Space.Refines (upper lower : Space) : Prop where
  within : Within upper.domainOf lower.domainOf
  smaller : ∃ variableId, upper.changed = some variableId ∧
    (upper.domainOf variableId).size < (lower.domainOf variableId).size
  sublist : upper.unsolved.Sublist lower.unsolved

/-- Propagation leaves alone what a space remembers of how it was made. -/
theorem Engine.changed_of_stable {σ : Type} {engine final : Engine σ} {network : Network}
    {observer : Observer σ} {space settled : Space}
    (stable : engine.propagate network observer space = (.stable settled, final)) :
    settled.changed = space.changed ∧ settled.lastChosen = space.lastChosen := by
  obtain ⟨state, _, rfl⟩ := exists_fixpoint_of_stable stable
  exact ⟨rfl, rfl⟩

namespace Search

variable {γ σ : Type} [Generator γ] {network : Network} {model : Model} {observer : Observer σ}

/-- The layers of a stack: what its spaces list and remember, and how each of them comes from the
one below. -/
structure Layered (network : Network) (stack : List Space) : Prop where
  listed : ∀ space ∈ stack, network.ListsInOrder space
  remembers : ∀ space ∈ stack, space.branchCount ≠ 0 → space.lastChosen.isSome
  refines : stack.IsChain Space.Refines

/-- An empty stack has no layers. -/
theorem layered_nil (network : Network) : Layered network [] :=
  ⟨fun _ inside => absurd inside List.not_mem_nil, fun _ inside =>
    absurd inside List.not_mem_nil, .nil⟩

/-- The layers below the top are layers. -/
theorem Layered.tail {top : Space} {rest : List Space} (layered : Layered network (top :: rest)) :
    Layered network rest where
  listed := (List.forall_mem_cons.mp layered.listed).2
  remembers := (List.forall_mem_cons.mp layered.remembers).2
  refines := (List.isChain_cons.mp layered.refines).2

/-- Requesting a child changes no layer. -/
theorem Layered.branched {top : Space} {rest : List Space} {lastChosen : Option Int}
    (layered : Layered network (top :: rest)) (chosen : lastChosen.isSome) :
    Layered network (top.branched lastChosen :: rest) := by
  obtain ⟨topListed, restListed⟩ := List.forall_mem_cons.mp layered.listed
  obtain ⟨fits, refines⟩ := List.isChain_cons.mp layered.refines
  refine ⟨List.forall_mem_cons.mpr ⟨topListed, restListed⟩, ?_,
    List.isChain_cons.mpr ⟨fun lower below => ?_, refines⟩⟩
  · exact List.forall_mem_cons.mpr ⟨fun _ => chosen, layered.tail.remembers⟩
  · exact ⟨(fits lower below).within, (fits lower below).smaller, (fits lower below).sublist⟩

section Children

variable {top child : Space} {rest : List Space} {variableId : VariableId}
  {part : SmallerPart top variableId} {engine final : Engine σ} (built : network.BuiltFor model)
  (frame : network.Frame γ top) (branches : network.Branches γ top variableId part)
  (faithful : engine.changes.Faithful) (stable :
  engine.propagate network observer (top.child variableId part.domain) = (.stable child, final))

include frame branches stable

/-- A stable child is a layer above its parent. -/
theorem refines_of_stable : child.Refines (top.branched part.lastChosen) where
  within := frame.within_child branches stable
  smaller := by
    refine ⟨variableId, (Engine.changed_of_stable stable).1, Nat.lt_of_le_of_lt ?_ part.smaller⟩
    have subset := Engine.within_of_stable stable variableId
    rw [frame.domainOf_child branches, if_pos rfl] at subset
    exact Domain.size_le_of_subset subset
  sublist := by
    obtain ⟨state, _, rfl⟩ := Engine.exists_fixpoint_of_stable stable
    exact List.filter_sublist

include built faithful

/-- A child on top of its parent is a further layer, made from the one below. -/
theorem Layered.descend (layered : Layered network (top :: rest)) :
    Layered network (child :: top.branched part.lastChosen :: rest) := by
  obtain ⟨generator, next, divided⟩ := branches.exists_divided
  have chosen := ValueStrategy.isSome_lastChosen_of_divide (ValueStrategy.divide_of_divide? divided)
  have below := layered.branched chosen
  have quiet := frame.quiet_child branches built stable faithful
  have childListed : network.ListsInOrder child := by
    refine Network.listsInOrder_of_stable built quiet (frame.within_child branches stable) ?_ stable
    exact (List.forall_mem_cons.mp layered.listed).1
  have unbranched : child.branchCount = 0 := (Engine.propagate_stable stable).1
  exact ⟨List.forall_mem_cons.mpr ⟨childListed, below.listed⟩,
    List.forall_mem_cons.mpr ⟨fun branched => absurd unbranched branched, below.remembers⟩,
    List.isChain_cons_cons.mpr ⟨refines_of_stable frame branches stable, below.refines⟩⟩

end Children

/-- The stable root is the only layer at first. -/
theorem layered_root {engine final : Engine σ} {root : Space} (built : network.BuiltFor model)
    (faithful : engine.changes.Faithful)
    (stable : engine.propagate network observer (.root network) = (.stable root, final)) :
    Layered network [root] := by
  have listed : network.ListsInOrder root :=
    Network.listsInOrder_of_stable built (Network.quiet_of_root built.coherent stable faithful)
      (Engine.within_of_stable stable) rfl stable
  have unbranched : root.branchCount = 0 := (Engine.propagate_stable stable).1
  exact ⟨List.forall_mem_singleton.mpr listed,
    List.forall_mem_singleton.mpr fun branched => absurd unbranched branched, .singleton root⟩

/-- Taking note of a division changes nothing else about the top layer. -/
theorem layered_of_branches {top : Space} {rest : List Space} {variableId : VariableId}
    {part : SmallerPart top variableId} (branches : network.Branches γ top variableId part)
    (layered : Layered network (top :: rest)) :
    Layered network (top.branched part.lastChosen :: rest) := by
  obtain ⟨generator, next, divided⟩ := branches.exists_divided
  exact layered.branched (ValueStrategy.isSome_lastChosen_of_divide
    (ValueStrategy.divide_of_divide? divided))

/-- A turn that goes on leaves layers. -/
theorem Turn.layered (built : network.BuiltFor model) {before after : Position σ}
    (turn : Turn γ network observer before after) (sound : before.Sound γ network)
    (layered : Layered network before.stack) : Layered network after.stack := by
  cases turn with
  | leave unselected => exact layered.tail
  | giveUp selected undivided => exact layered.tail
  | reject branches propagated => exact layered_of_branches branches layered
  | @descend top child rest engine final variableId part spent counted branches propagated
      unsolved =>
        obtain ⟨frame, _⟩ := List.forall_mem_cons.mp sound.frames
        have faithful : (engine.tally spent).changes.Faithful := sound.faithful
        exact layered.descend built frame branches faithful propagated

/-- All turns preserve the layers, as each of them does. -/
theorem Turns.layered (built : network.BuiltFor model) {before after : Position σ}
    (turns : Turns γ network observer before after) (sound : before.Sound γ network)
    (layered : Layered network before.stack) : Layered network after.stack := by
  induction turns with
  | refl => exact layered
  | tail turns turn inductionHypothesis =>
    exact turn.layered built (Turns.sound built turns sound) inductionHypothesis

/-- So does the end of a request. -/
theorem Ending.layered {last : Position σ} {result : Outcome × Search γ σ}
    (ending : Ending network observer last result) (layered : Layered network last.stack) :
    Layered network result.2.stack := by
  cases ending with
  | finished => exact layered
  | aborted branches propagated => exact layered_of_branches branches layered
  | faulted branches propagated => exact layered_of_branches branches layered
  | solved branches propagated solved => exact layered_of_branches branches layered

/-! ### Between two rounds -/

/-- What a round comes to that takes the stack from one position on: a turn after which the search
goes on, or the turn that ends the request, and no failing assertion. -/
def Takes (network : Network) (observer : Observer σ) (before : Position σ) :
    Round (Search γ σ) (Outcome × Search γ σ) → Prop
  | .again next => Turn γ network observer before next.position
  | .done result => Ending network observer before result
  | .stuck => False

/-- A round on a child takes one turn or ends the request. -/
theorem takes_childRound {top : Space} {rest : List Space} {variableId : VariableId}
    {part : SmallerPart top variableId} {generator : γ} {engine : Engine σ}
    (branches : network.Branches γ top variableId part) :
    Takes network observer ⟨top :: rest, engine⟩
      (childRound network observer top rest variableId part.toPart generator engine) := by
  rw [childRound]
  dsimp only
  split
  · rename_i final propagated
    dsimp only [Takes, position]
    exact .reject branches propagated
  · rename_i final propagated
    exact .aborted branches propagated
  · rename_i fault final propagated
    exact .faulted branches propagated
  · rename_i child final propagated
    split
    · rename_i solved
      exact .solved branches propagated solved
    · rename_i unsolved
      dsimp only [Takes, position]
      exact .descend branches propagated (Bool.eq_false_iff.mpr unsolved)

/-- So does every round from a stack of frames. -/
theorem takes_exploreRound {stack : List Space} {generator : γ} {engine : Engine σ}
    (steady : Steady network ({ stack, phase := .exploring, generator, engine } : Search γ σ)) :
    Takes network observer ⟨stack, engine⟩
      (exploreRound network observer stack generator engine) := by
  obtain ⟨sound, counted⟩ := steady
  cases stack with
  | nil => exact .finished
  | cons top rest =>
    have frame := (List.forall_mem_cons.mp sound.frames).1
    have topCounted := (List.forall_mem_cons.mp counted).1
    obtain ⟨variableId, selected⟩ :=
      @VariableOrder.exists_select? network.order network _ frame.unsolved
    cases divided : (network.strategyOf variableId).divide? variableId top top.branchCount generator
      with
    | none =>
      rw [exploreRound_of_undivided frame topCounted selected divided]
      exact .giveUp selected divided
    | some branch =>
      obtain ⟨part, next⟩ := branch
      rw [exploreRound_of_divided frame topCounted selected divided]
      exact takes_childRound ⟨selected, generator, next, divided⟩

/-- The searches that come up between two rounds of any requests, whatever observers look at
them. -/
inductive Visited (network : Network) : Search γ σ → Prop
  | initial (generator : γ) (observed : σ) (journal : Journal) :
      Visited network (.initial network generator observed journal)
  | again {search next : Search γ σ} (visited : Visited network search) (observer : Observer σ)
    (another : search.round network observer = .again next) : Visited network next
  | done {search after : Search γ σ} {outcome : Outcome} (visited : Visited network search)
      (observer : Observer σ)
    (ended : search.round network observer = .done (outcome, after)) : Visited network after

/-- A request ends in a search that has been visited, if it ends. -/
theorem visited_of_result? {search after : Search γ σ} {outcome : Outcome}
    (visited : search.Visited network) {rounds : Nat}
    (ended : Round.result? (round network observer) rounds search = some (outcome, after)) :
    after.Visited network := by
  induction rounds generalizing search with
  | zero => cases ended
  | succ rounds inductionHypothesis =>
    rw [Round.result?] at ended
    split at ended
    · rename_i result came
      cases ended
      exact visited.done observer came
    · rename_i next came
      exact inductionHypothesis (visited.again observer came) ended
    · cases ended

/-- The round ends without a failing assertion and leaves a search with the property. -/
def Leaves (property : Search γ σ → Prop) : Round (Search γ σ) (Outcome × Search γ σ) → Prop
  | .again next => property next
  | .done result => property result.2
  | .stuck => False

/-- What every round leaves holds between any two rounds. -/
theorem Visited.of_leaves {property : Search γ σ → Prop}
    (initial : ∀ generator observed journal, property (.initial network generator observed journal))
    (leaves : ∀ (search : Search γ σ) observer, search.Visited network → property search →
      Leaves property (search.round network observer))
    {search : Search γ σ} (visited : search.Visited network) : property search := by
  induction visited with
  | initial generator observed journal => exact initial generator observed journal
  | again visited observer another inductionHypothesis =>
    have left := leaves _ observer visited inductionHypothesis
    rw [another] at left
    exact left
  | done visited observer ended inductionHypothesis =>
    have left := leaves _ observer visited inductionHypothesis
    rw [ended] at left
    exact left

/-- Every visited search is steady, whatever was requested before. -/
theorem Visited.steady (built : network.BuiltFor model) {search : Search γ σ}
    (visited : search.Visited network) : search.Steady network := by
  refine visited.of_leaves (fun generator observed journal =>
    (Reached.initial generator observed journal).steady built) ?_
  intro search observer _ steady
  have descent := @descends_round _ _ _ _ observer _ built _ steady
  cases came : search.round network observer with
  | again next =>
    rw [came] at descent
    exact descent.1
  | done result =>
    rw [came] at descent
    exact descent.steady
  | stuck =>
    rw [came] at descent
    exact descent.elim

/-- A round of exploring leaves what turns and endings do. -/
theorem leaves_exploreRound {property : Position σ → Prop} {stack : List Space} {generator : γ}
    {engine : Engine σ}
    (steady : Steady network ({ stack, phase := .exploring, generator, engine } : Search γ σ))
    (turns : ∀ after, Turn γ network observer ⟨stack, engine⟩ after → property after)
    (ends : ∀ result : Outcome × Search γ σ, Ending network observer ⟨stack, engine⟩ result →
      property result.2.position) : Leaves (property ·.position)
    (exploreRound network observer stack generator engine) := by
  have takes : Takes network observer ⟨stack, engine⟩
      (exploreRound network observer stack generator engine) :=
    takes_exploreRound steady
  revert takes
  cases exploreRound network observer stack generator engine with
  | again next => exact fun takes => turns _ takes
  | done result => exact fun takes => ends result takes
  | stuck => exact False.elim

omit [Generator γ] in
/-- The first round leaves the root as the only layer, or no stack. -/
theorem leaves_startRound (built : network.BuiltFor model) {generator : γ} {engine : Engine σ}
    (faithful : engine.changes.Faithful) :
    Leaves (Layered network ·.stack) (startRound network observer generator engine) := by
  rw [startRound]
  dsimp only
  split
  · exact layered_nil network
  · exact layered_nil network
  · exact layered_nil network
  · rename_i root final propagated
    split
    · exact layered_nil network
    · have countedFaithful : (engine.tally fun statistics =>
          { statistics with spaces := statistics.spaces + 1 }).changes.Faithful := faithful
      exact layered_root built countedFaithful propagated

/-- Every visited search has a stack of layers. -/
theorem Visited.layered (built : network.BuiltFor model) {search : Search γ σ}
    (visited : search.Visited network) : Layered network search.stack := by
  refine @of_leaves _ _ _ _ (Layered network ·.stack)
    (fun _ _ _ => layered_nil network) ?_ _ visited
  intro search observer visited layered
  have steady := visited.steady built
  obtain ⟨stack, phase, generator, engine⟩ := search
  cases phase with
  | notStarted => exact leaves_startRound built steady.sound.faithful
  | finished => exact layered
  | aborted => exact layered
  | exploring =>
    refine @leaves_exploreRound _ _ _ _ observer (Layered network ·.stack) _ _ _ steady ?_ ?_
    · exact fun after turn => turn.layered built steady.sound layered
    · exact fun result ending => ending.layered layered

end Search

end ConstraintSearch
