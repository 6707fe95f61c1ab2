import ConstraintSearch.Proofs.Model.Consulting

/-!
# Building under watch

The steps of building a model are total: an entry that does not exist has a substitute, and a
constraint of the wrong form is lowered to nothing. Here the same steps are written with every such
access under watch, so that they halt with a mishap instead. What is watched are the entries of
tables, the operands and the result of a constraint that is lowered, the bounds of domains, and the
attempts to generate a name. Numbers need no watch: no step computes with values, which are only
compared, and positions and counts never go beyond what there is.
-/

namespace ConstraintSearch

open Build

/-- What must not happen to a model. -/
inductive Mishap
  /-- Something was asked of a table or of a domain that it does not have. -/
  | fault (fault : Fault)
  /-- A constraint has no result although its operator produces a value. -/
  | resultMissing (operator : Operator)
  /-- There were as many attempts to generate a name as there are variables, and one more. -/
  | attemptsSpent
deriving DecidableEq, Repr

/-- Why a watched step has no result: it is refused, or something has happened that must not. -/
inductive Halt
  | refused (error : ModelError)
  | broken (mishap : Mishap)
deriving DecidableEq, Repr

/-- A step of building a model that is watched. -/
abbrev Watched (α : Type) :=
  ExceptT Halt (StateM Workspace) α

/-- A plain step halts with a mishap only where it has a fault. -/
def Refusal.halt : Refusal → Halt
  | .invalid error => .refused error
  | .fault missing => .broken (.fault missing)

/-- The entry under a key, or the mishap that there is none. -/
def Table.watch {α : Type} (table : Table α) (key : Nat) : Except Mishap α :=
  (table.get key).mapError .fault

/-- An entry that is there is no mishap. -/
theorem Table.watch_of_get? {α : Type} {table : Table α} {key : Nat} {entry : α}
    (found : table.get? key = some entry) : table.watch key = .ok entry := by
  rw [watch, get, found]
  rfl

/-- Below the size there is an entry. -/
theorem Table.exists_watch {α : Type} {table : Table α} {key : Nat} (inside : key < table.size) :
    ∃ entry, table.get? key = some entry ∧ table.watch key = .ok entry := by
  obtain ⟨entry, found⟩ := Option.isSome_iff_exists.mp ((table.get?_isSome_iff key).mpr inside)
  exact ⟨entry, found, watch_of_get? found⟩

/-- What is known of a variable is what is found under watch. -/
theorem Directory.exists_watch {vars : Variables} {variableId : VariableId}
    (inside : variableId < vars.size) :
    ∃ entry, vars.table.watch variableId = .ok entry ∧ vars.domainOf variableId = entry.domain ∧
      vars.nameOf variableId = entry.name := by
  obtain ⟨entry, found, watched⟩ := Table.exists_watch inside
  refine ⟨entry, watched, ?_, ?_⟩
  · rw [domainOf, get?, found]
    rfl
  · rw [nameOf, get?, found]
    rfl

/-! ### Generated names -/

/-- The first generated name from an attempt on that no variable has, unless the attempts are spent
before. -/
def freshNameFrom (vars : Variables) : (remaining attempt : Nat) → Except Mishap String
  | 0, _ => .error .attemptsSpent
  | remaining + 1, attempt =>
    let name := generatedName vars.size attempt
    if (vars.keyOf? name).isSome then
      freshNameFrom vars remaining (attempt + 1)
    else
      .ok name

/-- The first generated name that no variable has. -/
def freshName (vars : Variables) : Except Mishap String :=
  freshNameFrom vars (vars.size + 1) 0

/-- The name is new before the attempts are spent. -/
theorem freshName_eq (vars : Variables) : freshName vars = .ok (unusedName vars) := by
  have found : ∀ remaining attempt, vars.keyOf? (unusedNameFrom vars remaining attempt) = none →
      freshNameFrom vars (remaining + 1) attempt = .ok (unusedNameFrom vars remaining attempt) := by
    intro remaining
    induction remaining with
    | zero =>
      intro attempt new
      rw [unusedNameFrom] at new ⊢
      rw [freshNameFrom, if_neg (by simp [new])]
    | succ remaining inductionHypothesis =>
      intro attempt new
      rw [unusedNameFrom] at new ⊢
      rw [freshNameFrom]
      split at new <;> rename_i taken
      · rw [if_pos taken, if_pos taken]
        exact inductionHypothesis (attempt + 1) new
      · rw [if_neg taken, if_neg taken]
  exact found vars.size 0 (keyOf?_unusedName vars)

/-! ### Lowering -/

/-- Adds a variable for an inner result. -/
def Lowering.addVariableWatched (lowering : Lowering) : Except Mishap (VariableId × Lowering) := do
  let name ← freshName lowering.vars
  return (lowering.vars.size,
    { lowering with vars := lowering.vars.push { name, domain := .full } })

/-- A variable is always added, since there is a name left. -/
theorem Lowering.addVariableWatched_eq (lowering : Lowering) :
    lowering.addVariableWatched = .ok lowering.addVariable := by
  rw [addVariableWatched, bind_of_passed (freshName_eq _)]
  rfl

namespace OperandTree

/-- The variable that holds the value of a part of the tree: the operand itself, or an added
variable. -/
def lowerPartWatched (operation : RingOperation) :
    OperandTree → Lowering → Except Mishap (VariableId × Lowering)
  | leaf operand, lowering => .ok (operand, lowering)
  | node left right, lowering => do
    let added ← lowering.addVariableWatched
    let leftPart ← left.lowerPartWatched operation added.2
    let rightPart ← right.lowerPartWatched operation leftPart.2
    return (added.1, rightPart.2.addRing operation leftPart.1 rightPart.1 added.1)

/-- Lowering a part of a tree has no mishap, by induction on the tree. -/
theorem lowerPartWatched_eq (operation : RingOperation) (tree : OperandTree) (lowering : Lowering) :
    tree.lowerPartWatched operation lowering = .ok (tree.lowerPart operation lowering) := by
  induction tree generalizing lowering with
  | leaf operand => rfl
  | node left right leftHypothesis rightHypothesis =>
    rw [lowerPartWatched, bind_of_passed lowering.addVariableWatched_eq,
      bind_of_passed (leftHypothesis _), bind_of_passed (rightHypothesis _)]
    rfl

/-- Adds the operations of the whole tree, the last of which gives the result. -/
def lowerWatched (operation : RingOperation) (result : VariableId) :
    OperandTree → Lowering → Except Mishap Lowering
  | leaf operand, lowering => .ok (lowering.addRelation .eq operand result)
  | node left right, lowering => do
    let leftPart ← left.lowerPartWatched operation lowering
    let rightPart ← right.lowerPartWatched operation leftPart.2
    return rightPart.2.addRing operation leftPart.1 rightPart.1 result

/-- Neither has lowering the whole tree. -/
theorem lowerWatched_eq (operation : RingOperation) (result : VariableId) (tree : OperandTree)
    (lowering : Lowering) :
    tree.lowerWatched operation result lowering = .ok (tree.lower operation result lowering) := by
  cases tree with
  | leaf operand => rfl
  | node left right =>
    rw [lowerWatched, bind_of_passed (left.lowerPartWatched_eq operation lowering),
      bind_of_passed (right.lowerPartWatched_eq operation _)]
    rfl

end OperandTree

namespace Constraint

/-- The first two operands. -/
def pairWatched (constraint : Constraint) : Except Mishap (VariableId × VariableId) := do
  return (← (Table.ofList constraint.operands).watch 0,
    ← (Table.ofList constraint.operands).watch 1)

/-- Adds the propagators of a constraint. -/
def lowerWatched (constraint : Constraint) (lowering : Lowering) : Except Mishap Lowering :=
  match constraint.operator, constraint.result with
  | .compare comparison, _ => do
    let (left, right) ← constraint.pairWatched
    return lowering.addRelation comparison left right
  | .distinct, _ =>
    .ok ((orderedPairs constraint.operands).foldl
      (fun lowering pair => lowering.addRelation .neq pair.1 pair.2) lowering)
  | .plus, some result => do
    let (left, right) ← constraint.pairWatched
    return lowering.addRing .plus left right result
  | .minus, some result => do
    let (left, right) ← constraint.pairWatched
    return lowering.addRing .plus result right left
  | .mul, some result => do
    let (left, right) ← constraint.pairWatched
    return lowering.addRing .mul left right result
  | .div, some result => do
    let (left, right) ← constraint.pairWatched
    return lowering.addRing .mul result right left
  | .sum, some result =>
    (OperandTree.balanced? constraint.operands).elim (.ok lowering) fun tree =>
      tree.lowerWatched .plus result lowering
  | .product, some result =>
    (OperandTree.balanced? constraint.operands).elim (.ok lowering) fun tree =>
      tree.lowerWatched .mul result lowering
  | .reify comparison, some result => do
    let (left, right) ← constraint.pairWatched
    return lowering.addReified comparison left right result
  | operator, none => .error (.resultMissing operator)

/-- A well-formed constraint has the operands and the result that lowering it asks for. -/
theorem lowerWatched_eq {constraint : Constraint} (wellFormed : constraint.WellFormed)
    (lowering : Lowering) : constraint.lowerWatched lowering = .ok (constraint.lower lowering) := by
  have trees : ∀ (operation : RingOperation) (operands : List VariableId) (result : VariableId),
      ((OperandTree.balanced? operands).elim (.ok lowering) fun tree =>
        tree.lowerWatched operation result lowering) =
          Except.ok ((OperandTree.balanced? operands).elim lowering fun tree =>
            tree.lower operation result lowering) := by
    intro operation operands result
    cases OperandTree.balanced? operands with
    | none => rfl
    | some tree => exact tree.lowerWatched_eq operation result lowering
  cases wellFormed with
  | sum operands result => exact trees .plus operands result
  | product operands result => exact trees .mul operands result
  | compare | distinct | plus | minus | mul | div | reify => rfl

end Constraint

/-! ### Attaching propagators -/

/-- Attaches the propagator at a place to one variable, unless that is fixed. -/
def attachToWatched (vars : Variables) (index : Nat) (attached : Table (List Nat))
    (reader : VariableId) : Except Mishap (Table (List Nat)) := do
  let entry ← vars.table.watch reader
  if entry.domain.isSolved then
    return attached
  else
    let _ ← attached.watch reader
    return attached.modify reader (index :: ·)

/-- For each variable, the propagators which read it. -/
def attachedPropagatorsWatched (vars : Variables) (propagators : Table Propagator) :
    Except Mishap (Table (List Nat)) :=
  propagators.toList.zipIdx.foldrM
    (fun placed attached => placed.1.scope.foldlM (attachToWatched vars placed.2) attached)
    (vars.table.map fun _ => [])

section Attaching

variable {vars : Variables} {attached : Table (List Nat)}

/-- Attaching a propagator to a variable that exists has no mishap. -/
theorem attachToWatched_eq (sameSize : attached.size = vars.size) {index : Nat}
    {reader : VariableId} (inside : reader < vars.size) :
    attachToWatched vars index attached reader = .ok (attachTo vars index attached reader) := by
  obtain ⟨entry, isEntry, sameDomain, _⟩ := Directory.exists_watch inside
  obtain ⟨others, _, isOthers⟩ := @Table.exists_watch _ attached reader (sameSize ▸ inside)
  rw [attachToWatched, attachTo, sameDomain, bind_of_passed isEntry, bind_of_passed isOthers]
  split <;> rfl

/-- Neither has attaching it to all variables that it reads. -/
theorem foldlM_attachToWatched_eq (sameSize : attached.size = vars.size) {index : Nat}
    {readers : List VariableId} (inside : ∀ reader ∈ readers, reader < vars.size) :
    readers.foldlM (attachToWatched vars index) attached =
      .ok (readers.foldl (attachTo vars index) attached) :=
  @foldlM_eq_ok _ _ _ _ _ (fun attached => attached.size = vars.size) _ _
    (fun attached sameSize reader isReader =>
      ⟨attachToWatched_eq sameSize (inside reader isReader),
        (size_attachTo index attached reader).trans sameSize⟩) sameSize

/-- Every variable that a propagator reads has a list of propagators. -/
theorem attachedPropagatorsWatched_eq {propagators : Table Propagator}
    (inside : ∀ propagator ∈ propagators.toList, ∀ reader ∈ propagator.scope, reader < vars.size) :
    attachedPropagatorsWatched vars propagators = .ok (attachedPropagators vars propagators) := by
  have noPropagators : (vars.table.map fun _ => ([] : List Nat)).size = vars.size :=
    Table.size_map _ _
  rw [attachedPropagatorsWatched, attachedPropagators, ← List.foldlM_reverse, ← List.foldl_reverse]
  refine @foldlM_eq_ok _ _ _ _ _ (fun attached => attached.size = vars.size) _ _
    (fun attached sameSize placed isPlaced => ?_) noPropagators
  have isPropagator : placed.1 ∈ propagators.toList :=
    List.fst_mem_of_mem_zipIdx (List.mem_reverse.mp isPlaced)
  exact ⟨foldlM_attachToWatched_eq sameSize (inside placed.1 isPropagator),
    (size_foldl_attachTo ..).trans sameSize⟩

end Attaching

/-! ### Networks -/

/-- The network of declared variables and constraints. -/
def Network.buildWatched (vars : Variables) (constraints : List Constraint)
    (targeted : Option (List VariableId)) (order : VariableOrder VariableId)
    (strategy : ValueStrategy VariableId) (strategies : Table (Option (ValueStrategy VariableId))) :
    Except Mishap Network := do
      let lowered ← constraints.foldlM (fun lowering constraint => constraint.lowerWatched lowering)
          { vars, propagators := ∅ }
      let lowered := (markovPropagators strategies).foldl Lowering.add lowered
      let attached ← attachedPropagatorsWatched lowered.vars lowered.propagators
      return { vars := lowered.vars
               declared := vars.size
               propagators := lowered.propagators
               attached
               targeted := targeted.elim lowered.vars.table.keys List.eraseDups
               order
               strategy
               strategies }

/-- Well-formed constraints are lowered one after the other without a mishap. -/
theorem foldlM_lowerWatched_eq {constraints : List Constraint}
    (wellFormed : ∀ constraint ∈ constraints, constraint.WellFormed) (lowering : Lowering) :
    constraints.foldlM (fun lowering constraint => constraint.lowerWatched lowering) lowering =
      .ok (constraints.foldl (fun lowering constraint => constraint.lower lowering) lowering) :=
  @foldlM_eq_ok _ _ _ _ _ (fun _ => True) _ _
    (fun lowering _ constraint inside =>
      ⟨constraint.lowerWatched_eq (wellFormed constraint inside) lowering, trivial⟩) trivial

/-- Nothing happens while a network is built from well-formed constraints, as long as its
propagators read variables that it has. -/
theorem Network.buildWatched_eq {vars : Variables} {constraints : List Constraint}
    {targeted : Option (List VariableId)} {order : VariableOrder VariableId}
    {strategy : ValueStrategy VariableId} {strategies : Table (Option (ValueStrategy VariableId))}
    (wellFormed : ∀ constraint ∈ constraints, constraint.WellFormed)
    (inside : ∀ propagator ∈
      (build vars constraints targeted order strategy strategies).propagators.toList,
    ∀ reader ∈ propagator.scope, reader <
      (build vars constraints targeted order strategy strategies).vars.size) :
    buildWatched vars constraints targeted order strategy strategies =
      .ok (build vars constraints targeted order strategy strategies) := by
  rw [buildWatched, bind_of_passed (foldlM_lowerWatched_eq wellFormed _)]
  change (do
    let attached ← attachedPropagatorsWatched
        (build vars constraints targeted order strategy strategies).vars
      (build vars constraints targeted order strategy strategies).propagators
    return { build vars constraints targeted order strategy strategies with attached }) = _
  rw [bind_of_passed (attachedPropagatorsWatched_eq inside)]
  rfl

/-! ### Steps -/

namespace Watched

/-- The plain step, of which nothing is watched but its own faults. -/
def lift {α : Type} (step : Build α) : Watched α :=
  fun workspace => ((step.run workspace).1.mapError Refusal.halt, (step.run workspace).2)

/-- The result of something that was watched, or the mishap. -/
def demand {α : Type} : Except Mishap α → Watched α
  | .ok result => pure result
  | .error mishap => throw (.broken mishap)

/-- Adds a variable under a generated name. -/
def pushAnonymous (domain : Domain) : Watched VariableId := do
  let name ← demand (freshName (← lift Build.model).vars)
  lift (push { name, domain })

/-- Declares a variable under a generated name. -/
def addAnonymous (domain : Domain) : Watched VariableId := do
  lift invalidate
  pushAnonymous domain

/-- Declares a variable with the values between two bounds, under a generated name. -/
def addAnonymousRange (lower upper : Int) : Watched VariableId := do
  addAnonymous (← lift (check (checkRange lower upper)))

/-- The variable that stands for a value which variables can take. -/
def constantFor (value : Int) : Watched VariableId := do
  match (← lift Build.model).constant? value with
  | some variableId => pure variableId
  | none =>
    let variableId ← pushAnonymous (.value value)
    lift (update fun model => { model with constants := (value, variableId) :: model.constants })
    pure variableId

/-- Declares the variable that stands for a value. -/
def addConstant (value : Int) : Watched VariableId := do
  let value ← lift (check (checkValue value))
  lift invalidate
  constantFor value

/-- The variable that an operand is about. -/
def resolveOperand : Operand → Watched VariableId
  | .literal value => do constantFor (← lift (check (checkValue value)))
  | operand => lift (ConstraintSearch.resolveOperand operand)

/-- The variables that the operands of a modification are about. -/
def resolveOperands (operands : List Operand) : Watched (List VariableId) := do
  lift invalidate
  operands.mapM resolveOperand

/-- Restricts a variable to 0 and 1. Its domain is read, and written again. -/
def restrictToTruth (variableId : VariableId) : Watched Unit := do
  let vars := (← lift Build.model).vars
  let entry ← demand (vars.table.watch variableId)
  if let some value := entry.domain.solvedValue? then
    if 1 < value then
      lift (refuse (.nonBooleanResult value))
  let restricted := entry.domain ∩ .range 0 1
  if restricted.isEmpty then
    lift (refuse (.nonBooleanResult (← demand (entry.domain.minimum.mapError .fault))))
  let _ ← demand ((vars.table.replace variableId { entry with domain := restricted }).mapError
      .fault)
  lift (update fun model =>
    { model with
      vars := model.vars.modify variableId ({ · with domain := restricted }) fun _ => rfl })

/-- The variable that a result is bound to. -/
def resolveResult (operator : Operator) (operand : Operand) : Watched VariableId := do
  if !operator.isReified then
    resolveOperand operand
  else
    if let .literal value := operand then
      if value < 0 ∨ 1 < value then
        lift (refuse (.nonBooleanResult value))
    let variableId ← resolveOperand operand
    restrictToTruth variableId
    pure variableId

/-- Declares a comparison. -/
def addComparison (operator : Operator) (operands : List Operand) : Watched Unit := do
  lift (check (checkArity operator operands))
  let operands ← resolveOperands operands
  if ((← lift Build.model).declared? operator operands).isNone then
    lift (pushConstraint { operator, operands, result := none })

/-- The result of the constraint with the operator and operands, if it was declared before. -/
def declaredResult (model : Model) (operator : Operator) (operands : List VariableId) :
    Except Mishap (Option VariableId) :=
  match model.constraints.keyOf? (signature operator operands) with
  | none => .ok none
  | some key => do return (← model.constraints.table.watch key).result

/-- Declares a constraint with a result. The names of two results that are made equal are read for
the journal. -/
def addValueConstraint (operator : Operator) (operands : List Operand) (result : Option Operand) :
    Watched VariableId := do
  lift (check (checkArity operator operands))
  let operands ← resolveOperands operands
  match ← demand (declaredResult (← lift Build.model) operator operands), result with
  | some existing, none => pure existing
  | some existing, some result =>
    let result ← resolveResult operator result
    if result ≠ existing then
      let vars := (← lift Build.model).vars
      let kept ← demand (vars.table.watch existing)
      let unified ← demand (vars.table.watch result)
      lift (report (.resultsUnified operator.name kept.name unified.name))
      addComparison (.compare .eq) [.position existing, .position result]
    pure result
  | none, result =>
    let result ←
      match result with
      | none => pushAnonymous operator.resultDomain
      | some result => resolveResult operator result
    lift (pushConstraint { operator, operands, result := some result })
    pure result

/-- Declares a constraint and gives the variable of its result, if its operator produces a value. -/
def addConstraint (operator : Operator) (operands : List Operand) (result : Option Operand) :
    Watched (Option VariableId) := do
  if operator.producesValue then
    some <$> addValueConstraint operator operands result
  else if result.isNone then
    addComparison operator operands
    pure none
  else
    lift (refuse (.unexpectedResult operator.name))

/-- The network of the model, which is put on top of the model unless it is there already. -/
def prepare : Watched Network := do
  let model ← lift Build.model
  match model.network with
  | some network => pure network
  | none =>
    let order ← lift model.order.resolve
    let strategy ← lift (model.strategy.resolve "*")
    let strategies ← lift (model.vars.toList.mapM fun entry =>
      entry.strategy.mapM (ValueStrategy.resolve entry.name))
    let targeted ← lift model.targets.resolve
    let network ← demand (Network.buildWatched model.vars model.constraints.toList targeted order
        strategy
      (.ofList strategies))
    lift (report (.modelPrepared network.vars.size network.declared model.constraints.size
      network.propagators.size))
    lift (update fun model => { model with network := some network })
    pure network

end Watched

/-- The watched step that a request asks for. -/
def Request.watched : Request → Watched (Option VariableId)
  | declare name domain => some <$> Watched.lift (addVariable name domain)
  | declareRange name lower upper => some <$> Watched.lift (addRange name lower upper)
  | declareAnonymous domain => some <$> Watched.addAnonymous domain
  | declareAnonymousRange lower upper => some <$> Watched.addAnonymousRange lower upper
  | declareConstant value => some <$> Watched.addConstant value
  | declareConstraint operator operands result => Watched.addConstraint operator operands result
  | target targets => (fun _ => none) <$> Watched.lift (setTargets targets)
  | orderBy order => (fun _ => none) <$> Watched.lift (setOrder order)
  | divideBy strategy => (fun _ => none) <$> Watched.lift (setStrategy strategy)
  | divideVariableBy name strategy =>
    (fun _ => none) <$> Watched.lift (setVariableStrategy name strategy)
  | prepare => (fun _ => none) <$> Watched.prepare

end ConstraintSearch
