import ConstraintSearch.Model.Build

/-!
# Preparing a model

Preparing checks the strategies and targets, resolves the names in them to variables, and puts the
network on top of the model. A strategy is checked level by level of its fallbacks, and the rows of
a matrix one by one, so that the first flaw is the one that is reported.
-/

namespace ConstraintSearch

open Build

/-- Resolves the names that a criterion lists. -/
def Criterion.resolve : Criterion String → Build (Criterion VariableId)
  | .naive => pure .naive
  | .size => pure .size
  | .min => pure .min
  | .max => pure .max
  | .markov => pure .markov
  | .list names inverted => do
    if names.isEmpty then
      report .emptyPriorityList
    return .list (← names.mapM lookup) inverted

/-- Resolves the names that the criteria of an order list. -/
def VariableOrder.resolve (order : VariableOrder String) : Build (VariableOrder VariableId) := do
  let first ← order.first.resolve
  let ties ← order.ties.mapM Criterion.resolve
  return { first, ties }

/-- What is wrong with the weights of a row, if anything. -/
def MarkovMatrix.rowFlaw? {Guard : Type} (matrix : MarkovMatrix Guard) (row : MarkovRow Guard)
    (index : Nat) : Option StrategyFlaw :=
  if !row.weights.all isWeight then
    some (.rowWeight index)
  else if matrix.expansion.isNone && matrix.legend.length < row.weights.length then
    some (.rowTooLong index row.weights.length matrix.legend.length)
  else
    none

/-- Checks a row of the matrix of the named variable and resolves its guard. -/
def MarkovMatrix.resolveRow (matrix : MarkovMatrix String) (owner : String)
    (row : MarkovRow String) (index : Nat) : Build (MarkovRow VariableId) := do
  if let some flaw := matrix.rowFlaw? row index then
    refuse (.invalidStrategy owner flaw)
  if row.weights.all (· == 0.0) then
    report (.weightlessRow index owner)
  return { weights := row.weights, guard := ← row.guard.mapM lookup }

/-- Checks the matrix of the named variable and resolves the guards of its rows. -/
def MarkovMatrix.resolve (matrix : MarkovMatrix String) (owner : String) :
    Build (MarkovMatrix VariableId) := do
  if matrix.rows.isEmpty then
    refuse (.invalidStrategy owner .noRows)
  if let some weight := matrix.expansion then
    if !isWeight weight then
      refuse (.invalidStrategy owner (.expansionWeight weight.toBits))
  let rows ← matrix.rows.zipIdx.mapM fun (row, index) => matrix.resolveRow owner row index
  return { legend := matrix.legend, rows, expansion := matrix.expansion }

/-- Checks the strategy of the named variable and resolves the guards in it. -/
def ValueStrategy.resolve (owner : String) :
    ValueStrategy String → Build (ValueStrategy VariableId)
  | .min => pure .min
  | .max => pure .max
  | .mid => pure .mid
  | .splitMin => pure .splitMin
  | .splitMax => pure .splitMax
  | .minMaxCycle => pure .minMaxCycle
  | .list values fallback => do
    if fallback.isMarkov then
      refuse (.invalidStrategy owner .markovFallback)
    return .list values (← fallback.resolve owner)
  | .markov matrix => do return .markov (← matrix.resolve owner)

/-- Resolves the targeted names; nothing if all variables are targeted. -/
def Targets.resolve : Targets → Build (Option (List VariableId))
  | .all => pure none
  | .named names => do
    if names.isEmpty then
      report .noTargets
    return some (← names.mapM lookup)

/-- The network of the model, which is put on top of the model unless it is there already. -/
def prepare : Build Network := do
  let model ← Build.model
  match model.network with
  | some network => pure network
  | none =>
    let order ← model.order.resolve
    let strategy ← model.strategy.resolve "*"
    let strategies ← model.vars.toList.mapM fun entry =>
      entry.strategy.mapM (ValueStrategy.resolve entry.name)
    let targeted ← model.targets.resolve
    let network := Network.build model.vars model.constraints.toList targeted order strategy
      (.ofList strategies)
    report (.modelPrepared network.vars.size network.declared model.constraints.size
      network.propagators.size)
    update fun model => { model with network := some network }
    pure network

end ConstraintSearch
