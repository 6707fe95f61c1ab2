import ConstraintSearch.Search.Fixpoint
import ConstraintSearch.Search.Space

/-!
# Propagating a space

The engine propagates one space after the other. An observer sees each space before and after, and
can stop the search; if it cannot answer, the space is given up and the search may go on without it.
The engine keeps what lasts from space to space: the statistics, the state of the observer and the
journal.
-/

namespace ConstraintSearch

/-- What has been counted while exploring the search tree. -/
structure Statistics where
  /-- The spaces that were propagated, the root included. -/
  spaces : Nat := 0
  /-- The spaces in which a variable had no value left. -/
  rejected : Nat := 0
  /-- The runs of propagators. -/
  propagations : Nat := 0
  /-- The solutions that were reported. -/
  solutions : Nat := 0
  /-- The largest number of spaces on the stack at the same time. -/
  peakDepth : Nat := 0
deriving DecidableEq, Repr

/-- What an observer says about a space. -/
inductive Reply
  | goOn
  | stop
  /-- The observer cannot tell. -/
  | fault (fault : Fault)
deriving DecidableEq, Repr

namespace Reply

/-- Stops if the condition holds. -/
def stopIf (condition : Bool) : Reply :=
  if condition then stop else goOn

/-- Stops if the condition holds, where finding that out may fail. -/
def stopIfOk : Except Fault Bool → Reply
  | .ok condition => stopIf condition
  | .error reason => fault reason

end Reply

/-- Looks at every space before and after its propagation, in a state of its own. -/
structure Observer (σ : Type) where
  before : Space → σ → Reply × σ
  after : Space → σ → Reply × σ

namespace Observer

/-- The observer that stops a search where one of two conditions holds, and can always tell. -/
def stopping {σ : Type} (before after : Space → σ → Bool × σ) : Observer σ where
  before space state := (Reply.stopIf (before space state).1, (before space state).2)
  after space state := (Reply.stopIf (after space state).1, (after space state).2)

/-- The observer that never stops a search. -/
def silent : Observer Unit where
  before _ state := (.goOn, state)
  after _ state := (.goOn, state)

end Observer

/-- What the propagation of a space comes to. -/
inductive Verdict
  /-- No propagator changes the space any more. -/
  | stable (space : Space)
  /-- A variable has no value left. -/
  | rejected
  /-- The observer stops the search. -/
  | aborted
  /-- The observer cannot tell whether to stop. -/
  | faulted (fault : Fault)

/-- What lasts from space to space. -/
structure Engine (σ : Type) where
  changes : Changes
  statistics : Statistics := {}
  observed : σ
  journal : Journal := {}

namespace Engine

variable {σ : Type}

/-- The engine before the first space. -/
def initial (network : Network) (observed : σ) (journal : Journal) : Engine σ :=
  { changes := .forVariables network.vars.size, observed, journal }

/-- Notes an event. -/
def note (engine : Engine σ) (event : Event) : Engine σ :=
  { engine with journal := engine.journal.note event }

/-- Changes the statistics. -/
def tally (engine : Engine σ) (change : Statistics → Statistics) : Engine σ :=
  { engine with statistics := change engine.statistics }

/-- The state in which the propagators of a space start. -/
def narrowing (engine : Engine σ) (space : Space) : Narrowing where
  domains := space.domains
  changes := engine.changes
  runs := engine.statistics.propagations
  journal := engine.journal

/-- Takes back what the propagators have counted and noted. -/
def resume (engine : Engine σ) (state : Narrowing) : Engine σ :=
  { engine with
    changes := state.changes
    statistics := { engine.statistics with propagations := state.runs }
    journal := state.journal }

/-- Shows a space to the observer before its propagation. -/
def observeBefore (engine : Engine σ) (observer : Observer σ) (space : Space) : Reply × Engine σ :=
  let (reply, observed) := observer.before space engine.observed
  (reply, { engine with observed })

/-- Shows a space to the observer after its propagation. -/
def observeAfter (engine : Engine σ) (observer : Observer σ) (space : Space) : Reply × Engine σ :=
  let (reply, observed) := observer.after space engine.observed
  (reply, { engine with observed })

/-- Propagates a space between the two looks of the observer. -/
def propagate (engine : Engine σ) (network : Network) (observer : Observer σ) (space : Space) :
    Verdict × Engine σ :=
  match engine.observeBefore observer space with
  | (.stop, engine) => (.aborted, engine.note .abortedBefore)
  | (.fault fault, engine) => (.faulted fault, engine)
  | (.goOn, engine) =>
    match network.fixpoint space.changed (engine.narrowing space) with
    | .error variableId state =>
      (.rejected, (engine.resume state).note (.spaceRejected (network.vars.nameOf variableId)))
    | .ok _ state =>
      let settled := { space with domains := state.domains }.updateUnsolved
      match (engine.resume state).observeAfter observer settled with
      | (.stop, engine) => (.aborted, engine.note .abortedAfter)
      | (.fault fault, engine) => (.faulted fault, engine)
      | (.goOn, engine) => (.stable settled, engine)

/-- A stable space has been branched on as often as the space that was propagated, and has at most
as many values left. -/
theorem propagate_stable {engine final : Engine σ} {network : Network} {observer : Observer σ}
    {space settled : Space}
    (stable : engine.propagate network observer space = (.stable settled, final)) :
    settled.branchCount = space.branchCount ∧
      valuesLeft settled.domains ≤ valuesLeft space.domains := by
  rw [propagate] at stable
  split at stable
  · cases stable
  · cases stable
  · rename_i engine _
    have along := network.follows_fixpoint trend_valuesLeft space.changed (engine.narrowing space)
    split at stable
    · cases stable
    · rename_i state ran
      rw [Narrow.after_of_ok ran] at along
      simp only at stable
      split at stable
      · cases stable
      · cases stable
      · cases stable
        exact ⟨rfl, along⟩

end Engine

end ConstraintSearch
