import ConstraintSearch.Journal
import ConstraintSearch.Network.Propagator
import ConstraintSearch.Search.Changes
import ConstraintSearch.Table

/-!
# Narrowing

A propagator narrows domains by restricting them to the values that the others support, one variable
after the other, and fails as soon as a variable has no value left.
-/

namespace ConstraintSearch

/-- The domains of all variables while propagators run. -/
structure Narrowing where
  domains : Table Domain
  changes : Changes
  /-- The number of times a propagator has run. -/
  runs : Nat
  journal : Journal

/-- A step that narrows domains, or fails with the variable that has no value left. -/
abbrev Narrow (α : Type) :=
  EStateM VariableId Narrowing α

namespace Narrowing

/-- The domain of a variable; a variable that does not exist has no values. -/
def domainOf (state : Narrowing) (variableId : VariableId) : Domain :=
  state.domains.getD variableId ∅

end Narrowing

namespace Narrow

/-- The domain of a variable. -/
def domain (variableId : VariableId) : Narrow Domain :=
  fun state => .ok (state.domainOf variableId) state

/-- Keeps the values of a variable that are supported. A domain that shrinks is noted as changed;
one that runs empty fails. -/
def restrict (variableId : VariableId) (supported : Domain) : Narrow Unit := fun state =>
  let old := state.domainOf variableId
  let new := old ∩ supported
  if new.isEmpty then
    .error variableId { state with domains := state.domains.set variableId new }
  else if new = old then
    .ok () state
  else
    .ok ()
      { state with
        domains := state.domains.set variableId new
        changes := state.changes.record variableId }

end Narrow

/-! ### What one domain supports in the other -/

namespace Domain

/-- The values below some value of the domain. -/
def belowSome (domain : Domain) : Domain :=
  domain.max?.elim ∅ fun greatest => atMost (greatest - 1)

/-- The values not above some value of the domain. -/
def upToSome (domain : Domain) : Domain :=
  domain.max?.elim ∅ atMost

/-- The values above some value of the domain. -/
def aboveSome (domain : Domain) : Domain :=
  domain.min?.elim ∅ fun smallest => atLeast (smallest + 1)

/-- The values not below some value of the domain. -/
def fromSome (domain : Domain) : Domain :=
  domain.min?.elim ∅ atLeast

/-- Whether some value of the left domain is below some value of the right one. -/
def startsBelow (left right : Domain) : Bool :=
  match left.min?, right.max? with
  | some smallest, some greatest => smallest < greatest
  | _, _ => false

/-- Whether some value of the left domain is below or equal to some value of the right one. -/
def startsUpTo (left right : Domain) : Bool :=
  match left.min?, right.max? with
  | some smallest, some greatest => smallest ≤ greatest
  | _, _ => false

end Domain

open Narrow

namespace Comparison

/-- Whether no pair of values, one of each domain, satisfies the comparison. -/
def isRejected (comparison : Comparison) (left right : Domain) : Bool :=
  left.isEmpty || right.isEmpty ||
    match comparison with
    | eq => !left.intersects right
    | neq => left.isSolved && left = right
    | lt => !left.startsBelow right
    | lte => !left.startsUpTo right
    | gt => !right.startsBelow left
    | gte => !right.startsUpTo left

/-- Keeps the values below some value of the right operand, and then those above some value of the
left one. -/
def propagateLess (left right : VariableId) : Narrow Unit := do
  restrict left (← domain right).belowSome
  restrict right (← domain left).aboveSome

/-- Keeps the values up to some value of the right operand, and then those from some value of the
left one on. -/
def propagateLessOrEqual (left right : VariableId) : Narrow Unit := do
  restrict left (← domain right).upToSome
  restrict right (← domain left).fromSome

/-- Keeps the values of the other variable that differ from the value of the fixed one, if it is
fixed; otherwise every value differs from some value. -/
def propagateUnequal (fixed other : VariableId) : Narrow Unit := do
  match (← domain fixed).solvedValue? with
  | none => pure ()
  | some value => restrict other (.allBut value)

/-- Keeps the values that satisfy the comparison with some value of the other operand. -/
def propagate (comparison : Comparison) (left right : VariableId) : Narrow Unit :=
  match comparison with
  | eq => do
    restrict left (← domain right)
    restrict right (← domain left)
  | neq => do
    propagateUnequal left right
    propagateUnequal right left
  | lt => propagateLess left right
  | lte => propagateLessOrEqual left right
  | gt => propagateLess right left
  | gte => propagateLessOrEqual right left

/-- Enforces the comparison or its negation once the result is fixed, and until then fixes the
result as soon as one of the two cannot hold any more. -/
def propagateReified (comparison : Comparison) (left right result : VariableId) :
    Narrow Unit := do
  let resultDomain ← domain result
  if resultDomain.isValue 1 then
    comparison.propagate left right
  else if resultDomain.isValue 0 then
    comparison.negate.propagate left right
  else
    let leftDomain ← domain left
    let rightDomain ← domain right
    if comparison.isRejected leftDomain rightDomain then
      restrict result (.allBut 1)
    else if comparison.negate.isRejected leftDomain rightDomain then
      restrict result (.allBut 0)
    else
      pure ()

end Comparison

namespace Propagator

/-- Keeps the results that the operation gives on the operands. -/
def propagateRing (operation : RingOperation) (left right result : VariableId) : Narrow Unit := do
  let leftDomain ← domain left
  let rightDomain ← domain right
  restrict result (operation.apply leftDomain rightDomain)

/-- Fails if the variable is fixed to a value without a positive weight in the active row. -/
def propagateMarkov (weighted : VariableId) (matrix : MarkovMatrix VariableId) :
    Narrow Unit := fun state =>
  let domain := state.domainOf weighted
  match domain.solvedValue? with
  | none => .ok () state
  | some value =>
    if 0.0 < matrix.weightOf value domain (fun guard => (state.domainOf guard).isValue 1) then
      .ok () state
    else
      restrict weighted ∅ state

/-- Narrows the domains of the propagator's variables. -/
def propagate : Propagator → Narrow Unit
  | relation comparison left right => comparison.propagate left right
  | reified comparison left right result => comparison.propagateReified left right result
  | ring operation left right result => propagateRing operation left right result
  | markov weighted matrix => propagateMarkov weighted matrix

/-- Counts a run of the propagator and runs it. -/
def run (propagator : Propagator) : Narrow Unit := do
  modify fun state => { state with runs := state.runs + 1 }
  propagator.propagate

end Propagator

end ConstraintSearch
