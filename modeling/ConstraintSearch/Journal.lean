/-!
# The journal

What happens while a model is built and searched is noted as events. A journal keeps the events from
a level of importance on, in the order in which they happened.
-/

namespace ConstraintSearch

/-- The importance of an event, from the most to the least important one. -/
inductive Level
  | error
  | warn
  | info
  | debug
  | trace
deriving DecidableEq, Repr

namespace Level

/-- The position from the most important level on. -/
def rank : Level → Nat
  | error => 0
  | warn => 1
  | info => 2
  | debug => 3
  | trace => 4

/-- The word for the level. -/
def name : Level → String
  | error => "ERROR"
  | warn => "WARN"
  | info => "INFO"
  | debug => "DEBUG"
  | trace => "TRACE"

end Level

/-- Why collecting solutions stopped. -/
inductive SolveStatus
  /-- Every solution has been found. -/
  | exhausted
  /-- As many solutions as requested have been found; there may be more. -/
  | limitReached
  /-- An observer stopped the search. -/
  | aborted
deriving DecidableEq, Repr

/-- The word for the status. -/
def SolveStatus.name : SolveStatus → String
  | exhausted => "Exhausted"
  | limitReached => "LimitReached"
  | aborted => "Aborted"

/-- Something that happened. -/
inductive Event
  | modelModified
  | resultsUnified (operator existing result : String)
  | emptyPriorityList
  | noTargets
  | weightlessRow (row : Nat) (owner : String)
  | modelPrepared (vars declared constraints propagators : Nat)
  | abortedBefore
  | abortedAfter
  | spaceRejected (name : String)
  | cycleStarted (cycle changed : Nat)
  | rootInconsistent
  | solutionFound (count : Nat)
  | treeExhausted
  | solutionsCollected (count : Nat) (status : SolveStatus)
  | loggingConfigured
  | executionFailed (reason : String)
deriving DecidableEq, Repr

namespace Event

/-- How important the event is. -/
def level : Event → Level
  | executionFailed _ => .error
  | emptyPriorityList | noTargets | weightlessRow _ _ => .warn
  | modelPrepared _ _ _ _ | loggingConfigured => .info
  | spaceRejected _ | cycleStarted _ _ => .trace
  | modelModified | resultsUnified _ _ _ | abortedBefore | abortedAfter | rootInconsistent
  | solutionFound _ | treeExhausted | solutionsCollected _ _ => .debug

/-- The text that reports the event. -/
def message : Event → String
  | modelModified => "Discarding the propagators of the modified config"
  | resultsUnified operator existing result =>
    s!"Unifying the results of two '{operator}' constraints on the same operands: " ++
      s!"{existing} and {result}"
  | emptyPriorityList => "The list variable strategy has an empty priority list"
  | noTargets => "No variables are targeted, the first propagated space is a solution"
  | weightlessRow row owner =>
    s!"Row {row} of the markov matrix of '{owner}' has no positive weight"
  | modelPrepared vars declared constraints propagators =>
    s!"Prepared {vars} variables ({declared} declared), {constraints} constraints " ++
      s!"and {propagators} propagators"
  | abortedBefore => "Search aborted by the pre-propagation hook"
  | abortedAfter => "Search aborted by the post-propagation hook"
  | spaceRejected name => s!"Space rejected, the domain of '{name}' became empty"
  | cycleStarted cycle changed => s!"Propagation cycle {cycle} with {changed} changed variables"
  | rootInconsistent => "The root space is inconsistent"
  | solutionFound count => s!"Found solution {count}"
  | treeExhausted => "Search tree exhausted"
  | solutionsCollected count status => s!"Collected {count} solutions, " ++ status.name
  | loggingConfigured => "Logging successfully configured"
  | executionFailed reason => "Execution failed, error: " ++ reason

end Event

/-- The events from a level on, the latest one first. -/
structure Journal where
  /-- The least important level that is kept; nothing is kept without one. -/
  threshold : Option Level := none
  latestFirst : List Event := []
deriving DecidableEq

namespace Journal

/-- Whether an event is important enough to be kept. -/
def keeps (journal : Journal) (event : Event) : Bool :=
  journal.threshold.any fun least => event.level.rank ≤ least.rank

/-- The journal with the event noted, if it is important enough. -/
def note (journal : Journal) (event : Event) : Journal :=
  if journal.keeps event then
    { journal with latestFirst := event :: journal.latestFirst }
  else
    journal

/-- The events in the order in which they happened. -/
def events (journal : Journal) : List Event :=
  journal.latestFirst.reverse

/-- The journal with its events forgotten. -/
def cleared (journal : Journal) : Journal :=
  { journal with latestFirst := [] }

end Journal

end ConstraintSearch
