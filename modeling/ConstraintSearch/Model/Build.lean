import ConstraintSearch.Model.Basic

/-!
# Building a model

The steps that declare variables, constraints and strategies. A step either has a result or is
refused, and in both cases leaves the model as far as it came: a refused step may already have
dropped the network and added the variables of literals.
-/

namespace ConstraintSearch

/-- A model that is being built, and what has happened to it. -/
structure Workspace where
  model : Model := {}
  journal : Journal := {}

/-- A step of building a model. -/
abbrev Build (α : Type) :=
  ExceptT Refusal (StateM Workspace) α

namespace Build

/-- The model as built so far. -/
def model : Build Model :=
  return (← get).model

/-- Changes the model. -/
def update (change : Model → Model) : Build Unit :=
  modify fun workspace => { workspace with model := change workspace.model }

/-- Notes an event. -/
def report (event : Event) : Build Unit :=
  modify fun workspace => { workspace with journal := workspace.journal.note event }

/-- Refuses the step. -/
def refuse {α : Type} (error : ModelError) : Build α :=
  throw (.invalid error)

/-- The result of a check, or the refusal it asks for. -/
def check {α : Type} : Except ModelError α → Build α
  | .ok result => pure result
  | .error error => refuse error

/-- The result of a request, or the fault that it has none. -/
def demand {α : Type} : Except Fault α → Build α
  | .ok result => pure result
  | .error fault => throw (.fault fault)

/-- Drops the network, if there is one. -/
def invalidate : Build Unit := do
  if (← model).isPrepared then
    report .modelModified
    update fun model => { model with network := none }

/-- The variable with the name. -/
def lookup (name : String) : Build VariableId := do
  match (← model).find? name with
  | some variableId => pure variableId
  | none => refuse (.unknownVariable name)

/-- Adds a variable in the given way, and gives its position. -/
def extend (add : Variables → Variables) : Build VariableId :=
  modifyGet fun workspace =>
    let model := workspace.model
    let variableId := model.vars.size
    (variableId, { workspace with model := { model with vars := add model.vars } })

/-- Adds a variable to the declared ones. -/
def push (entry : Variable) : Build VariableId :=
  extend fun vars => vars.push entry

/-- Adds a variable under a generated name. -/
def pushAnonymous (domain : Domain) : Build VariableId :=
  extend fun vars => vars.pushAnonymous domain

end Build

open Build

/-- The value, if variables can take it. -/
def checkValue (value : Int) : Except ModelError Int :=
  if valueFloor ≤ value ∧ value ≤ valueCeiling then .ok value else .error (.outOfBounds value)

/-- The domain between two bounds, if they are in order and variables can take them. -/
def checkRange (lower upper : Int) : Except ModelError Domain := do
  if upper < lower then
    throw (.invertedRange lower upper)
  return Domain.range (← checkValue lower) (← checkValue upper)

/-! ### Variables -/

/-- Declares a variable with a domain. The name must not be that of any variable, also not of one
that the network of a prepared model has added. -/
def addVariable (name : String) (domain : Domain) : Build VariableId := do
  check (checkName name)
  if ((← model).find? name).isSome then
    refuse (.duplicateVariable name)
  invalidate
  push { name, domain }

/-- Declares a variable with the values between two bounds. -/
def addRange (name : String) (lower upper : Int) : Build VariableId := do
  addVariable name (← check (checkRange lower upper))

/-- Declares a variable under a generated name. -/
def addAnonymous (domain : Domain) : Build VariableId := do
  invalidate
  pushAnonymous domain

/-- Declares a variable with the values between two bounds, under a generated name. -/
def addAnonymousRange (lower upper : Int) : Build VariableId := do
  addAnonymous (← check (checkRange lower upper))

/-- The variable that stands for a value which variables can take; every use of the value shares
it. -/
def constantFor (value : Int) : Build VariableId := do
  match (← model).constant? value with
  | some variableId => pure variableId
  | none =>
    let variableId ← pushAnonymous (.value value)
    update fun model => { model with constants := (value, variableId) :: model.constants }
    pure variableId

/-- Declares the variable that stands for a value. -/
def addConstant (value : Int) : Build VariableId := do
  let value ← check (checkValue value)
  invalidate
  constantFor value

/-! ### Constraints -/

/-- The variable that an operand is about. -/
def resolveOperand : Operand → Build VariableId
  | .named name => lookup name
  | .position variableId => do
    if variableId < (← model).vars.size then
      pure variableId
    else
      refuse (.unknownVariable variableId.text)
  | .literal value => do constantFor (← check (checkValue value))

/-- The variables that the operands of a modification are about. -/
def resolveOperands (operands : List Operand) : Build (List VariableId) := do
  invalidate
  operands.mapM resolveOperand

/-- Restricts a variable to 0 and 1; it is refused if it can be neither. -/
def restrictToTruth (variableId : VariableId) : Build Unit := do
  let domain := (← model).vars.domainOf variableId
  if let some value := domain.solvedValue? then
    if 1 < value then
      refuse (.nonBooleanResult value)
  let restricted := domain ∩ .range 0 1
  if restricted.isEmpty then
    refuse (.nonBooleanResult (← demand domain.minimum))
  update fun model =>
    { model with
      vars := model.vars.modify variableId ({ · with domain := restricted }) fun _ => rfl }

/-- The variable that a result is bound to. That of a reified comparison is restricted to the values
that tell whether the comparison holds. -/
def resolveResult (operator : Operator) (operand : Operand) : Build VariableId := do
  if !operator.isReified then
    resolveOperand operand
  else
    if let .literal value := operand then
      if value < 0 ∨ 1 < value then
        refuse (.nonBooleanResult value)
    let variableId ← resolveOperand operand
    restrictToTruth variableId
    pure variableId

/-- Refuses a number of operands that the operator does not take. -/
def checkArity (operator : Operator) (operands : List Operand) : Except ModelError Unit :=
  if operator.arity.accepts operands.length then
    .ok ()
  else
    .error (.invalidArity operator.name operator.arity operands.length)

/-- Adds a constraint to the declared ones. -/
def pushConstraint (constraint : Constraint) : Build Unit :=
  update fun model => { model with constraints := model.constraints.push constraint }

/-- Declares a comparison; the same one is not declared twice. -/
def addComparison (operator : Operator) (operands : List Operand) : Build Unit := do
  check (checkArity operator operands)
  let operands ← resolveOperands operands
  if ((← model).declared? operator operands).isNone then
    pushConstraint { operator, operands, result := none }

/-- Declares a constraint with a result, which is bound to the operand or else anonymous. If the
same operator was declared on the same operands before, the results of the two are made equal
instead. -/
def addValueConstraint (operator : Operator) (operands : List Operand) (result : Option Operand) :
    Build VariableId := do
  check (checkArity operator operands)
  let operands ← resolveOperands operands
  match ((← model).declared? operator operands).bind Constraint.result, result with
  | some existing, none => pure existing
  | some existing, some result =>
    let result ← resolveResult operator result
    if result ≠ existing then
      let vars := (← model).vars
      report (.resultsUnified operator.name (vars.nameOf existing) (vars.nameOf result))
      addComparison (.compare .eq) [.position existing, .position result]
    pure result
  | none, result =>
    let result ←
      match result with
      | none => pushAnonymous operator.resultDomain
      | some result => resolveResult operator result
    pushConstraint { operator, operands, result := some result }
    pure result

/-- Declares a constraint and gives the variable of its result, if its operator produces a value. -/
def addConstraint (operator : Operator) (operands : List Operand) (result : Option Operand) :
    Build (Option VariableId) := do
  if operator.producesValue then
    some <$> addValueConstraint operator operands result
  else if result.isNone then
    addComparison operator operands
    pure none
  else
    refuse (.unexpectedResult operator.name)

/-! ### Targets and strategies -/

/-- Sets the variables that a solution has to fix. -/
def setTargets (targets : Targets) : Build Unit := do
  invalidate
  update fun model => { model with targets }

/-- Sets the order in which variables are branched on. -/
def setOrder (order : VariableOrder String) : Build Unit := do
  invalidate
  update fun model => { model with order }

/-- Sets the strategy of every variable without one of its own. A Markov strategy weights the values
of one variable, so it is refused. -/
def setStrategy (strategy : ValueStrategy String) : Build Unit := do
  if strategy.isMarkov then
    refuse (.invalidStrategy "*" .markovForAll)
  invalidate
  update fun model => { model with strategy }

/-- Sets the strategy of one variable. -/
def setVariableStrategy (name : String) (strategy : ValueStrategy String) : Build Unit := do
  invalidate
  let variableId ← lookup name
  update fun model =>
    { model with
      vars := model.vars.modify variableId ({ · with strategy := some strategy }) fun _ => rfl }

end ConstraintSearch
