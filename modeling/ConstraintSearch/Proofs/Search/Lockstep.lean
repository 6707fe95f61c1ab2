import ConstraintSearch.Proofs.Propagation.Unread
import ConstraintSearch.Proofs.Search.Explored

/-!
# Searches in lockstep

A search depends on its observer through the replies alone, and not at all on the journal. So two
searches of a network which agree on everything else go through the same spaces for as long as their
observers answer alike.
-/

namespace ConstraintSearch

variable {σ τ : Type}

/-- The reply of the observer that leads to a verdict. -/
def Verdict.reply : Verdict → Reply
  | stable _ | rejected => .goOn
  | aborted => .stop
  | faulted fault => .fault fault

/-- The reply of the observer that leads to an outcome. -/
def Outcome.reply : Outcome → Reply
  | solved _ | finished => .goOn
  | aborted => .stop
  | faulted fault => .fault fault

/-- In linked states, the second observer gives every space that reply of the first one which the
two have in common, and the states stay linked. -/
structure Observer.Echoes (linked : σ → τ → Prop) (common : Reply → Prop) (second : Observer τ)
    (first : Observer σ) : Prop where
  before : ∀ space state other, linked state other → common (first.before space state).1 →
    (second.before space other).1 = (first.before space state).1 ∧
      linked (first.before space state).2 (second.before space other).2
  after : ∀ space state other, linked state other → common (first.after space state).1 →
    (second.after space other).1 = (first.after space state).1 ∧
      linked (first.after space state).2 (second.after space other).2

/-- The engines agree but for their journals and the states of their observers, which are linked. -/
structure Engine.Alike (linked : σ → τ → Prop) (first : Engine σ) (second : Engine τ) : Prop where
  changes : second.changes = first.changes
  statistics : second.statistics = first.statistics
  observed : linked first.observed second.observed

namespace Engine

variable {linked : σ → τ → Prop} {common : Reply → Prop} {leader : Observer σ}
  {follower : Observer τ} {first : Engine σ} {second : Engine τ}

/-- Engines may note different events. -/
theorem Alike.note (alike : first.Alike linked second) (event other : Event) :
    (first.note event).Alike linked (second.note other) :=
  ⟨alike.changes, alike.statistics, alike.observed⟩

/-- They count the same. -/
theorem Alike.tally (alike : first.Alike linked second) (change : Statistics → Statistics) :
    (first.tally change).Alike linked (second.tally change) :=
  ⟨alike.changes, congrArg change alike.statistics, alike.observed⟩

/-- They go on with the same domains and changes. -/
theorem Alike.resume (alike : first.Alike linked second) (state : Narrowing) (journal : Journal) :
    (first.resume state).Alike linked (second.resume { state with journal }) :=
  ⟨rfl, by simp only [Engine.resume, alike.statistics], alike.observed⟩

/-- Where the replies before a propagation agree, both observers are asked alike. -/
theorem Alike.observeBefore (alike : first.Alike linked second)
    (echoes : follower.Echoes linked common leader) {space : Space} {reply : Reply}
    {final : Engine σ} (observed : first.observeBefore leader space = (reply, final))
    (agreed : common reply) :
    ∃ other, second.observeBefore follower space = (reply, other) ∧ final.Alike linked other := by
  obtain ⟨rfl, rfl⟩ := Prod.mk.inj observed
  obtain ⟨same, stays⟩ := echoes.before space _ _ alike.observed agreed
  exact ⟨_, Prod.ext same rfl, alike.changes, alike.statistics, stays⟩

/-- So are they where the replies after it agree. -/
theorem Alike.observeAfter (alike : first.Alike linked second)
    (echoes : follower.Echoes linked common leader) {space : Space} {reply : Reply}
    {final : Engine σ} (observed : first.observeAfter leader space = (reply, final))
    (agreed : common reply) :
    ∃ other, second.observeAfter follower space = (reply, other) ∧ final.Alike linked other := by
  obtain ⟨rfl, rfl⟩ := Prod.mk.inj observed
  obtain ⟨same, stays⟩ := echoes.after space _ _ alike.observed agreed
  exact ⟨_, Prod.ext same rfl, alike.changes, alike.statistics, stays⟩

/-- Propagating a space comes to the same in both engines. -/
theorem Alike.propagate (alike : first.Alike linked second)
    (echoes : follower.Echoes linked common leader) (goesOn : common .goOn) {network : Network}
    {space : Space} {verdict : Verdict} {final : Engine σ}
    (propagated : first.propagate network leader space = (verdict, final))
    (agreed : common verdict.reply) :
    ∃ other, second.propagate network follower space = (verdict, other) ∧
      final.Alike linked other := by
  rw [Engine.propagate] at propagated
  split at propagated
  · rename_i middle observed
    cases propagated
    obtain ⟨other, observedOther, alikeMiddle⟩ := alike.observeBefore echoes observed agreed
    exact ⟨_, by rw [Engine.propagate, observedOther], alikeMiddle.note _ _⟩
  · rename_i fault middle observed
    cases propagated
    obtain ⟨other, observedOther, alikeMiddle⟩ := alike.observeBefore echoes observed agreed
    exact ⟨_, by rw [Engine.propagate, observedOther], alikeMiddle⟩
  · rename_i middle observed
    obtain ⟨other, observedOther, alikeMiddle⟩ := alike.observeBefore echoes observed goesOn
    -- The journals differ, and the fixpoint does not read them.
    have same : other.narrowing space =
        { middle.narrowing space with journal := other.journal } := by
      simp only [Engine.narrowing, alikeMiddle.changes, alikeMiddle.statistics]
    have ran := network.ignoresJournal_fixpoint space.changed (middle.narrowing space) other.journal
    rw [← same] at ran
    split at propagated
    · rename_i variableId state failed
      cases propagated
      obtain ⟨journal, failedOther⟩ := (failed ▸ ran).exists_error
      exact ⟨_, by rw [Engine.propagate, observedOther]; simp only [failedOther]; rfl,
        (alikeMiddle.resume state journal).note _ _⟩
    · rename_i state succeeded
      obtain ⟨journal, succeededOther⟩ := (succeeded ▸ ran).exists_ok
      have resumed := alikeMiddle.resume state journal
      dsimp only at propagated
      split at propagated
      · rename_i last observedAfter
        cases propagated
        obtain ⟨_, observedAfterOther, alikeLast⟩ :=
          resumed.observeAfter echoes observedAfter agreed
        exact ⟨_, by rw [Engine.propagate, observedOther]; simp only [succeededOther,
          observedAfterOther]; rfl, alikeLast.note _ _⟩
      · rename_i fault last observedAfter
        cases propagated
        obtain ⟨_, observedAfterOther, alikeLast⟩ :=
          resumed.observeAfter echoes observedAfter agreed
        exact ⟨_, by rw [Engine.propagate, observedOther]; simp only [succeededOther,
          observedAfterOther], alikeLast⟩
      · rename_i last observedAfter
        cases propagated
        obtain ⟨_, observedAfterOther, alikeLast⟩ :=
          resumed.observeAfter echoes observedAfter goesOn
        exact ⟨_, by rw [Engine.propagate, observedOther]; simp only [succeededOther,
          observedAfterOther], alikeLast⟩

end Engine

namespace Search

/-! ### Whole requests -/

variable {γ : Type}

/-- The searches are at the same point and have come there with engines that agree. -/
structure Alike (linked : σ → τ → Prop) (first : Search γ σ) (second : Search γ τ) : Prop where
  stack : second.stack = first.stack
  phase : second.phase = first.phase
  generator : second.generator = first.generator
  engine : first.engine.Alike linked second.engine

variable [Generator γ] {linked : σ → τ → Prop} {common : Reply → Prop} {leader : Observer σ}
  {follower : Observer τ} {network : Network}

/-- Two requests on the same stack go the same way. -/
theorem alike_explore (echoes : follower.Echoes linked common leader) (goesOn : common .goOn)
    {stack : List Space} {generator : γ} {first : Engine σ} {second : Engine τ}
    (alike : first.Alike linked second)
    (agreed : common (explore network leader stack generator first).1.reply) :
    (explore network follower stack generator second).1 =
        (explore network leader stack generator first).1 ∧
      (explore network leader stack generator first).2.Alike linked
        (explore network follower stack generator second).2 := by
  have explored := explores network leader stack generator first
  generalize explore network leader stack generator first = result at explored agreed ⊢
  induction explored generalizing second with
  | finished =>
    rw [explore]
    exact ⟨rfl, rfl, rfl, rfl, alike.note _ _⟩
  | leave unselected later inductionHypothesis =>
    rw [explore_of_unselected unselected]
    exact inductionHypothesis alike agreed
  | giveUp selected undivided later inductionHypothesis =>
    rw [explore_of_undivided selected undivided]
    exact inductionHypothesis alike agreed
  | reject selected divided propagated later inductionHypothesis =>
    obtain ⟨other, propagatedOther, alikeFinal⟩ :=
      (alike.tally _).propagate echoes goesOn propagated goesOn
    rw [explore_of_divided selected divided, propagatedOther]
    exact inductionHypothesis (alikeFinal.tally _) agreed
  | abort selected divided propagated =>
    obtain ⟨other, propagatedOther, alikeFinal⟩ :=
      (alike.tally _).propagate echoes goesOn propagated agreed
    rw [explore_of_divided selected divided, propagatedOther]
    exact ⟨rfl, rfl, rfl, rfl, alikeFinal⟩
  | fault selected divided propagated =>
    obtain ⟨other, propagatedOther, alikeFinal⟩ :=
      (alike.tally _).propagate echoes goesOn propagated agreed
    rw [explore_of_divided selected divided, propagatedOther]
    exact ⟨rfl, rfl, rfl, rfl, alikeFinal⟩
  | solve selected divided propagated solved =>
    obtain ⟨other, propagatedOther, alikeFinal⟩ :=
      (alike.tally _).propagate echoes goesOn propagated goesOn
    rw [explore_of_divided selected divided, propagatedOther]
    simp only [solved, if_true]
    exact ⟨trivial, rfl, rfl, rfl, (alikeFinal.tally _).note _ _⟩
  | descend selected divided propagated unsolved later inductionHypothesis =>
    obtain ⟨other, propagatedOther, alikeFinal⟩ :=
      (alike.tally _).propagate echoes goesOn propagated goesOn
    rw [explore_of_divided selected divided, propagatedOther]
    simp only [unsolved]
    exact inductionHypothesis (alikeFinal.tally _) agreed

/-- Two first requests go the same way. -/
theorem alike_start (echoes : follower.Echoes linked common leader) (goesOn : common .goOn)
    {generator : γ} {first : Engine σ} {second : Engine τ} (alike : first.Alike linked second)
    (agreed : common (start network leader generator first).1.reply) :
    (start network follower generator second).1 = (start network leader generator first).1 ∧
      (start network leader generator first).2.Alike linked
        (start network follower generator second).2 := by
  have started := starts network leader generator first
  generalize start network leader generator first = result at started agreed ⊢
  cases started with
  | reject propagated =>
    obtain ⟨other, propagatedOther, alikeFinal⟩ :=
      (alike.tally _).propagate echoes goesOn propagated goesOn
    rw [(Starts.reject propagatedOther).eq]
    exact ⟨rfl, rfl, rfl, rfl, (alikeFinal.note .rootInconsistent .rootInconsistent).tally
      fun statistics => { statistics with rejected := statistics.rejected + 1 }⟩
  | abort propagated =>
    obtain ⟨other, propagatedOther, alikeFinal⟩ :=
      (alike.tally _).propagate echoes goesOn propagated agreed
    rw [(Starts.abort propagatedOther).eq]
    exact ⟨rfl, rfl, rfl, rfl, alikeFinal⟩
  | fault propagated =>
    obtain ⟨other, propagatedOther, alikeFinal⟩ :=
      (alike.tally _).propagate echoes goesOn propagated agreed
    rw [(Starts.fault propagatedOther).eq]
    exact ⟨rfl, rfl, rfl, rfl, alikeFinal⟩
  | solve propagated solved =>
    obtain ⟨other, propagatedOther, alikeFinal⟩ :=
      (alike.tally _).propagate echoes goesOn propagated goesOn
    rw [(Starts.solve propagatedOther solved).eq]
    exact ⟨rfl, rfl, rfl, rfl, alikeFinal.tally fun statistics =>
      { statistics with solutions := statistics.solutions + 1 }⟩
  | explore propagated unsolved later =>
    obtain ⟨other, propagatedOther, alikeFinal⟩ :=
      (alike.tally _).propagate echoes goesOn propagated goesOn
    rw [(Starts.explore propagatedOther unsolved (explores _ _ _ _ _)).eq]
    obtain rfl := later.eq
    exact alike_explore echoes goesOn (alikeFinal.tally _) agreed

/-- **Lockstep.** A request is answered alike in both searches, if the reply of the observer that
led to the answer is among those which the two observers have in common. -/
theorem Alike.next {first : Search γ σ} {second : Search γ τ} (alike : first.Alike linked second)
    (network : Network) (echoes : follower.Echoes linked common leader) (goesOn : common .goOn)
    (agreed : common (first.next network leader).1.reply) :
    (second.next network follower).1 = (first.next network leader).1 ∧
      (first.next network leader).2.Alike linked (second.next network follower).2 := by
  obtain ⟨stack, phase, generator, engine⟩ := first
  obtain ⟨otherStack, otherPhase, otherGenerator, otherEngine⟩ := second
  obtain ⟨rfl, rfl, rfl, alikeEngine⟩ := alike
  cases otherPhase with
  | notStarted => exact alike_start echoes goesOn alikeEngine agreed
  | exploring => exact alike_explore echoes goesOn alikeEngine agreed
  | finished => exact ⟨rfl, rfl, rfl, rfl, alikeEngine⟩
  | aborted => exact ⟨rfl, rfl, rfl, rfl, alikeEngine⟩

end Search

end ConstraintSearch
