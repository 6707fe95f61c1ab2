import ConstraintSearch.Search.Engine

/-!
# Observers

A stop rule asks for the end of a search; an observer follows one rule before and one after each
propagation. A recorder keeps what an observer was shown and how it answered.
-/

namespace ConstraintSearch

/-- When to stop a search. -/
inductive StopRule
  /-- Once more than this many spaces have been seen. -/
  | spaceBudget (spaces : Nat)
  /-- At once if the time is up, and otherwise never. -/
  | timeUp (up : Bool)
  /-- When the variable is fixed to the value. -/
  | fixed (variableId : VariableId) (value : Int)
  /-- When at most this many targeted variables are left to be fixed. -/
  | unsolvedAtMost (count : Nat)
  /-- When the space was made by narrowing the variable. -/
  | branchedOn (variableId : VariableId)
  /-- When every targeted variable is fixed. -/
  | solved
deriving DecidableEq, Repr

/-- Whether to stop at a space, which is the given number in the order in which the rule sees
them. A rule that asks for the value of a variable that does not exist cannot tell. -/
def StopRule.stops : StopRule → Space → (number : Nat) → Except Fault Bool
  | spaceBudget spaces, _, number => .ok (spaces < number)
  | timeUp up, _, _ => .ok up
  | fixed variableId value, space, _ =>
      (space.domains.get variableId).map fun domain => domain.isValue value
  | unsolvedAtMost count, space, _ => .ok (space.unsolved.length ≤ count)
  | branchedOn variableId, space, _ => .ok (space.changed == some variableId)
  | solved, space, _ => .ok space.isSolved

namespace Observer

/-- The number of spaces that the rule before and the rule after propagation have seen. -/
structure Seen where
  before : Nat := 0
  after : Nat := 0
deriving DecidableEq

/-- What a rule, if there is one, says about a space. -/
def replyOf (rule : Option StopRule) (space : Space) (number : Nat) : Reply :=
  rule.elim .goOn fun rule => .stopIfOk (rule.stops space number)

/-- Follows one rule before propagation and one after it. -/
def ofRules (ruleBefore ruleAfter : Option StopRule) : Observer Seen where
  before space seen :=
    (replyOf ruleBefore space (seen.before + 1), { seen with before := seen.before + 1 })
  after space seen :=
    (replyOf ruleAfter space (seen.after + 1), { seen with after := seen.after + 1 })

/-- A look at a space. -/
structure Sighting where
  /-- Whether the space was already propagated. -/
  propagated : Bool
  space : Space
  /-- Whether the observer stopped the search. -/
  stopped : Bool

/-- The state of an observer, and the looks that have been recorded, the latest one first. -/
structure Record (σ : Type) where
  state : σ
  sightings : List Sighting := []

/-- Records a look, unless as many as the limit have been recorded. -/
def Record.see {σ : Type} (record : Record σ) (limit : Nat) (sighting : Sighting) : Record σ :=
  if record.sightings.length < limit then
    { record with sightings := sighting :: record.sightings }
  else
    record

/-- Records the look at a space that the observer replied to; a look to which it had no reply leaves
no record. -/
def Record.replied {σ : Type} (record : Record σ) (limit : Nat) (propagated : Bool)
    (space : Space) : Reply → Record σ
  | .goOn => record.see limit { propagated, space, stopped := false }
  | .stop => record.see limit { propagated, space, stopped := true }
  | .fault _ => record

/-- Lets an observer decide and then records the look. -/
def recorded {σ : Type} (observer : Observer σ) (limit : Nat) : Observer (Record σ) where
  before space record :=
    let (reply, state) := observer.before space record.state
    (reply, { record with state }.replied limit false space reply)
  after space record :=
    let (reply, state) := observer.after space record.state
    (reply, { record with state }.replied limit true space reply)

end Observer

end ConstraintSearch
