import ConstraintSearch.Proofs.Branching.Weights
import ConstraintSearch.Proofs.Propagation.Narrows
import ConstraintSearch.Search.Fixpoint

/-!
# Propagation that checks what it reads

A step of propagation that reads an entry under a key without one, or a bound of an empty domain,
goes on with a substitute. Here the steps are written with all their checks, so that such a reading
stops them with a failure.
-/

namespace ConstraintSearch

/-- A check that fails. -/
inductive Failure
  /-- There is no such entry or bound. -/
  | fault (fault : Fault)
  /-- A value is to be drawn by numbers that are no weights. -/
  | drawnByOthers
  /-- The variable that was selected to branch on is fixed already. -/
  | selectedFixed (variableId : VariableId)
  /-- More than two children of a space are requested. -/
  | choiceAboveTwo (choice : Nat)
  /-- A child has a value of the variable that its parent has not. -/
  | childWidens (variableId : VariableId)
  /-- The propagation of a space takes more cycles than it was given. -/
  | cyclesSpent

instance : MonadLift (Except Fault) (Except Failure) where
  monadLift result := result.mapError .fault

/-- Why a checked step stops. -/
inductive Stop
  /-- The variable has no value left. -/
  | empty (variableId : VariableId)
  | failure (failure : Failure)

/-- A step that narrows domains and checks what it reads. -/
abbrev Checked (α : Type) :=
  EStateM Stop Narrowing α

/-! ### Steps with checks -/

namespace Checked

instance : MonadLift (Except Fault) (EStateM Stop Narrowing) where
  monadLift result := fun state =>
    match result with
    | .ok value => .ok value state
    | .error fault => .error (.failure (.fault fault)) state

/-- The domain of a variable. -/
def domain (variableId : VariableId) : Checked Domain := do
  (← get).domains.get variableId

/-- Replaces the domain of a variable. -/
def replace (variableId : VariableId) (domain : Domain) : Checked Unit := do
  let state ← get
  let domains ← state.domains.replace variableId domain
  set { state with domains }

/-- Notes that a variable changed, if there is room for it. -/
def record (variableId : VariableId) : Checked Unit := do
  let state ← get
  let _ ← state.changes.recorded.insert variableId
  set { state with changes := state.changes.record variableId }

/-- Keeps the values of a variable that are supported. -/
def restrict (variableId : VariableId) (supported : Domain) : Checked Unit := do
  let old ← domain variableId
  let new := old ∩ supported
  if new.isEmpty then
    replace variableId new
    throw (.empty variableId)
  else if new = old then
    pure ()
  else
    replace variableId new
    record variableId

end Checked

namespace Comparison

/-- Whether no pair of values, one of each domain, satisfies the comparison. -/
def isRejectedChecked (comparison : Comparison) (left right : Domain) : Except Fault Bool :=
  if left.isEmpty || right.isEmpty then
    return true
  else
    match comparison with
    | eq => return !left.intersects right
    | neq => return left.isSolved && left = right
    | lt => return !decide ((← left.minimum) < (← right.maximum))
    | lte => return !decide ((← left.minimum) ≤ (← right.maximum))
    | gt => return !decide ((← right.minimum) < (← left.maximum))
    | gte => return !decide ((← right.minimum) ≤ (← left.maximum))

/-- Keeps the values that are lower by the gap than some value of the right operand, and then those
that are higher by the gap than some value of the left one. -/
def orderChecked (gap : Int) (left right : VariableId) : Checked Unit := do
  let greatest ← (← Checked.domain right).maximum
  Checked.restrict left (.atMost (greatest - gap))
  let smallest ← (← Checked.domain left).minimum
  Checked.restrict right (.atLeast (smallest + gap))

/-- Keeps the values of the other variable that differ from the value of the fixed one, if it is
fixed. -/
def unequalChecked (fixed other : VariableId) : Checked Unit := do
  match (← Checked.domain fixed).solvedValue? with
  | none => pure ()
  | some value => Checked.restrict other (.allBut value)

/-- Keeps the values that satisfy the comparison with some value of the other operand. -/
def propagateChecked (comparison : Comparison) (left right : VariableId) : Checked Unit :=
  match comparison with
  | eq => do
    Checked.restrict left (← Checked.domain right)
    Checked.restrict right (← Checked.domain left)
  | neq => do
    unequalChecked left right
    unequalChecked right left
  | lt => orderChecked 1 left right
  | lte => orderChecked 0 left right
  | gt => orderChecked 1 right left
  | gte => orderChecked 0 right left

/-- Enforces the comparison or its negation once the result is fixed, and until then fixes the
result as soon as one of the two cannot hold any more. -/
def propagateReifiedChecked (comparison : Comparison) (left right result : VariableId) :
    Checked Unit := do
      let resultDomain ← Checked.domain result
      if resultDomain.isValue 1 then
        comparison.propagateChecked left right
      else if resultDomain.isValue 0 then
        comparison.negate.propagateChecked left right
      else
        let leftDomain ← Checked.domain left
        let rightDomain ← Checked.domain right
        if ← comparison.isRejectedChecked leftDomain rightDomain then
          Checked.restrict result (.allBut 1)
        else if ← comparison.negate.isRejectedChecked leftDomain rightDomain then
          Checked.restrict result (.allBut 0)
        else
          pure ()

end Comparison

/-- Whether a row has no guard or a true one. -/
def MarkovRow.isOpenChecked (row : MarkovRow VariableId) (domains : Table Domain) :
    Except Fault Bool :=
  match row.guard with
  | none => return true
  | some guard => return (← domains.get guard).isValue 1

/-- The active row, where the domains of the guards are read one after the other until one is
true. -/
def MarkovMatrix.activeRowChecked? (matrix : MarkovMatrix VariableId) (domains : Table Domain) :
    Except Fault (Option (MarkovRow VariableId)) := do
  let row ← matrix.rows.findM? (·.isOpenChecked domains)
  return row.or matrix.rows.getLast?

namespace Propagator

/-- Fails if the variable is fixed to a value without a positive weight in the active row. -/
def markovChecked (weighted : VariableId) (matrix : MarkovMatrix VariableId) : Checked Unit := do
  let own ← Checked.domain weighted
  match own.solvedValue? with
  | none => pure ()
  | some value =>
    let row? ← matrix.activeRowChecked? (← get).domains
    if 0.0 < row?.elim 0.0 (matrix.weightIn · value own) then
      pure ()
    else
      Checked.restrict weighted ∅

/-- Narrows the domains of the propagator's variables. -/
def propagateChecked : Propagator → Checked Unit
  | relation comparison left right => comparison.propagateChecked left right
  | reified comparison left right result => comparison.propagateReifiedChecked left right result
  | ring operation left right result => do
    let leftDomain ← Checked.domain left
    let rightDomain ← Checked.domain right
    Checked.restrict result (operation.apply leftDomain rightDomain)
  | markov weighted matrix => markovChecked weighted matrix

/-- Counts a run of the propagator and runs it. -/
def runChecked (propagator : Propagator) : Checked Unit := do
  modify Narrowing.counted
  propagator.propagateChecked

end Propagator

namespace Network

/-- Runs one propagator of the network. -/
def runPropagatorChecked (network : Network) (index : Nat) : Checked Unit := do
  let propagator ← network.propagators.get index
  propagator.runChecked

/-- Runs the propagators of a variable that changed, unless it has fewer than the threshold. -/
def runAttachedChecked (network : Network) (threshold : Nat) (variableId : VariableId) :
    Checked Unit := do
      let attached ← network.attached.get variableId
      if attached.length < threshold then pure () else attached.forM network.runPropagatorChecked

/-- Runs cycles until one changes nothing, at most so many. -/
def settleChecked (network : Network) : (cycles threshold cycle : Nat) → Checked Unit
  | 0, _, _ => throw (.failure .cyclesSpent)
  | cycles + 1, threshold, cycle => do
    let state ← get
    if state.changes.order.isEmpty then
      set { state with changes := state.changes.next }
    else
      set (state.startCycle cycle)
      state.changes.order.toList.forM (network.runAttachedChecked threshold)
      network.settleChecked cycles 2 (cycle + 1)

/-- Narrows the domains until no propagator changes them, in at most so many cycles. -/
def fixpointChecked (network : Network) (cycles : Nat) (changed : Option VariableId) :
    Checked Unit := do
      modify fun state => { state with changes := state.changes.next }
      match changed with
      | some variableId =>
        Checked.record variableId
        network.settleChecked cycles 1 0
      | none =>
        match firstEmpty? (← get).domains with
        | some variableId => throw (.empty variableId)
        | none =>
          network.propagators.toList.forM Propagator.runChecked
          network.settleChecked cycles 2 0

end Network

end ConstraintSearch
