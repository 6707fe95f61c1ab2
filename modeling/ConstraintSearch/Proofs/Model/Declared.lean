import ConstraintSearch.Proofs.Model.Reachable

/-!
# The effect of a declaration

A declaration of a constraint that names all its variables changes a model in one of a few ways,
which `Model.declare` writes down as a function of the model and the constraint: a truth value is
restricted, or refused if it cannot be one, and the constraint is added, or the results of two
constraints with the same operands are made equal.
-/

namespace ConstraintSearch

open Build

namespace Build

/-- From any workspace with the first model, the step has the outcome and leaves the second
model. -/
def Gives {α : Type} (step : Build α) (before : Model) (outcome : Except Refusal α)
    (after : Model) : Prop :=
  ∀ workspace : Workspace, workspace.model = before →
    (step.run workspace).1 = outcome ∧ (step.run workspace).2.model = after

/-- From any workspace with the first model, the step is refused and leaves the second model. -/
def Refuses {α : Type} (step : Build α) (before after : Model) : Prop :=
  ∃ refusal, step.Gives before (.error refusal) after

namespace Gives

variable {α β : Type} {before middle after : Model}

/-- A step that only returns a result gives that result. -/
theorem pure (result : α) : Gives (Pure.pure result) before (.ok result) before := by
  rintro workspace rfl
  exact ⟨rfl, rfl⟩

/-- Where the first step succeeds, the outcome is that of the second one from the model in
between. -/
theorem bind {step : Build α} {next : α → Build β} {result : α} {outcome : Except Refusal β}
    (first : Gives step before (.ok result) middle)
    (second : Gives (next result) middle outcome after) :
    Gives (step >>= next) before outcome after := by
  intro workspace start
  obtain ⟨succeeded, left⟩ := first workspace start
  rw [run_bind]
  rcases ran : step.run workspace with ⟨answer, rest⟩
  rw [ran] at succeeded left
  subst succeeded
  exact second rest left

/-- Where the first step is refused, the second one is not taken. -/
theorem bind_error {step : Build α} {next : α → Build β} {refusal : Refusal}
    (first : Gives step before (.error refusal) after) :
    Gives (step >>= next) before (.error refusal) after := by
  intro workspace start
  obtain ⟨failed, left⟩ := first workspace start
  rw [run_bind]
  rcases ran : step.run workspace with ⟨answer, rest⟩
  rw [ran] at failed left
  subst failed
  exact ⟨rfl, left⟩

/-- What becomes of the model does not depend on what is done with the result. -/
theorem discard {step : Build α} {outcome : Except Refusal α}
    (gives : Gives step before outcome after) (workspace : Workspace)
    (start : workspace.model = before) :
    ((Functor.discard step).run workspace).2.model = after := by
  rw [run_discard]
  exact (gives workspace start).2

/-- A step that only refuses gives that refusal and leaves the model. -/
theorem refuse (error : ModelError) :
    Gives (Build.refuse error : Build α) before (.error (.invalid error)) before := by
  rintro workspace rfl
  exact ⟨rfl, rfl⟩

/-- The model is read as it is. -/
theorem model : Gives Build.model before (.ok before) before := by
  rintro workspace rfl
  exact ⟨rfl, rfl⟩

/-- A change gives the changed model. -/
theorem update (change : Model → Model) :
    Gives (Build.update change) before (.ok ()) (change before) := by
  rintro workspace rfl
  exact ⟨rfl, rfl⟩

/-- Reporting an event leaves the model as it is. -/
theorem report (event : Event) : Gives (Build.report event) before (.ok ()) before := by
  rintro workspace rfl
  exact ⟨rfl, rfl⟩

/-- A check that passes gives its result and leaves the model. -/
theorem check {checked : Except ModelError α} {result : α} (passed : checked = .ok result) :
    Gives (Build.check checked) before (.ok result) before := by
  rw [passed]
  exact pure result

end Gives

namespace Refuses

variable {α β : Type} {before middle after : Model}

/-- Steps in a row are refused where the first one is. -/
theorem bind {step : Build α} {next : α → Build β} (refuses : Refuses step before after) :
    Refuses (step >>= next) before after := by
  obtain ⟨refusal, gives⟩ := refuses
  exact ⟨refusal, gives.bind_error⟩

/-- They are refused as well where the second one is, after the first one has succeeded. -/
theorem of_gives {step : Build α} {next : α → Build β} {result : α}
    (first : Gives step before (.ok result) middle) (refuses : Refuses (next result) middle after) :
    Refuses (step >>= next) before after := by
  obtain ⟨refusal, gives⟩ := refuses
  exact ⟨refusal, first.bind gives⟩

/-- Whatever becomes of a demand, what follows is refused. -/
theorem demand_bind (demanded : Except Fault α) (error : α → ModelError) (next : β → Build Unit) :
    Refuses (Build.demand demanded >>= fun result =>
      (Build.refuse (error result) : Build β) >>= next) before before := by
  cases demanded with
  | ok result => exact of_gives (Gives.pure result) ⟨_, (Gives.refuse (error result)).bind_error⟩
  | error fault =>
    refine ⟨.fault fault, Gives.bind_error ?_⟩
    rintro workspace rfl
    exact ⟨rfl, rfl⟩

end Refuses

end Build

namespace Model

/-- The model without its network, which every declaration drops. -/
def opened (model : Model) : Model :=
  { model with network := none }

/-- A model without a network is its own opened model. -/
theorem opened_of_unprepared {model : Model} (unprepared : model.network = none) :
    model.opened = model := by
  rw [opened, ← unprepared]

/-- The model with the truth variable of the constraint, if there is one, restricted to 0 and 1. -/
def restricted (model : Model) (constraint : Constraint) : Model :=
  match constraint.truthVariable? with
  | none => model
  | some result =>
    { model with
      vars := model.vars.modify result
        ({ · with domain := model.vars.domainOf result ∩ .range 0 1 }) fun _ => rfl }

/-- Whether the truth variable of the constraint, if there is one, can be 0 or 1. -/
def permits (model : Model) (constraint : Constraint) : Bool :=
  constraint.truthVariable?.all fun result => !(model.vars.domainOf result ∩ .range 0 1).isEmpty

/-- The model with the constraint, which is not added if its operator was declared on its operands
before. -/
def assert (model : Model) (constraint : Constraint) : Model :=
  if (model.declared? constraint.operator constraint.operands).isNone then
    { model with constraints := model.constraints.push constraint }
  else
    model

/-- The model with the constraint, or with its result made equal to that of an earlier
constraint. -/
def record (model : Model) (constraint : Constraint) : Model :=
  match (model.declared? constraint.operator constraint.operands).bind Constraint.result,
    constraint.result with
  | some existing, some result =>
    if result ≠ existing then
      model.assert { operator := .compare .eq, operands := [existing, result], result := none }
    else
      model
  | _, _ => model.assert constraint

/-- The model after the declaration of the constraint, which is refused if it asks for the truth of
a variable that has neither 0 nor 1. -/
def declare (model : Model) (constraint : Constraint) : Model :=
  if model.permits constraint then
    (model.opened.restricted constraint).record constraint
  else
    model.opened

end Model

/-- The variable that the operand stands for, if the model has declared it. -/
def Operand.referent? (model : Model) : Operand → Option VariableId
  | named name => model.vars.keyOf? name
  | position variableId => if variableId < model.vars.size then some variableId else none
  | literal value =>
    if valueFloor ≤ value ∧ value ≤ valueCeiling then model.constant? value else none

/-- How a constraint is declared. -/
structure Declaration where
  operator : Operator
  operands : List Operand
  result : Option Operand

namespace Declaration

/-- The request that makes the declaration. -/
def request (declaration : Declaration) : Request :=
  .declareConstraint declaration.operator declaration.operands declaration.result

/-- The declared constraint, if the model has all its variables. -/
def constraint? (declaration : Declaration) (model : Model) : Option Constraint := do
  return {
    operator := declaration.operator
    operands := ← declaration.operands.mapM (Operand.referent? model)
    result := ← declaration.result.mapM (Operand.referent? model) }

/-- The operator takes the operands and has the result, which is not a literal that cannot be a
truth value. -/
structure WellFormed (declaration : Declaration) : Prop where
  accepts : declaration.operator.arity.accepts declaration.operands.length
  result_isSome : declaration.result.isSome = declaration.operator.producesValue
  truth : declaration.operator.isReified → ∀ value, declaration.result = some (.literal value) →
    0 ≤ value ∧ value ≤ 1

/-- A well-formed declaration of a constraint over variables that the model has. -/
def Over (declaration : Declaration) (model : Model) : Prop :=
  declaration.WellFormed ∧ (declaration.constraint? model).isSome

end Declaration

namespace Model

variable {model : Model}

/-- A constraint that was declared before is the declared one with the operator and operands. -/
theorem mem_of_declared? {operator : Operator} {operands : List VariableId} {former : Constraint}
    (found : model.declared? operator operands = some former) :
    former ∈ model.constraints.toList ∧ former.operator = operator ∧
      former.operands = operands := by
  rw [declared?_eq_find?] at found
  refine ⟨Array.mem_toList_iff.mpr (Array.mem_of_find?_eq_some found), ?_⟩
  simpa using Array.find?_some found

/-- A declared constraint whose operator produces a value has a result. -/
theorem Sound.exists_result (sound : model.Sound) {operator : Operator} {operands : List VariableId}
    {former : Constraint} (found : model.declared? operator operands = some former)
    (productive : operator.producesValue = true) :
    ∃ existing, former.result = some existing ∧ existing < model.vars.size := by
  obtain ⟨inside, rfl, rfl⟩ := mem_of_declared? found
  have reads := sound.inside former inside
  cases sound.wellFormed former inside with
  | compare | distinct => cases productive
  | plus | minus | mul | div | sum | product | reify =>
    exact ⟨_, rfl, reads _ (by simp [Constraint.scope])⟩

end Model

/-! ### What a declaration leaves as it is -/

namespace Model

variable {model : Model} {constraint : Constraint}

/-- Restricting a truth value does not declare or remove any constraint. -/
theorem declared?_restricted (operator : Operator) (operands : List VariableId) :
    (model.restricted constraint).declared? operator operands =
      model.declared? operator operands := by
  rw [restricted]
  split <;> rfl

/-- The network is dropped before or after the restriction alike. -/
theorem opened_restricted :
    (model.restricted constraint).opened = model.opened.restricted constraint := by
  rw [restricted, restricted]
  split <;> rfl

/-- Restricting a truth value adds no variable. -/
theorem size_restricted : (model.restricted constraint).vars.size = model.vars.size := by
  rw [restricted]
  split
  · rfl
  · exact Table.size_modify _ _ _

/-- It renames no variable. -/
theorem keyOf?_restricted (name : String) :
    (model.restricted constraint).vars.keyOf? name = model.vars.keyOf? name := by
  rw [restricted]
  split <;> rfl

/-- It changes no literal. -/
theorem constants_restricted : (model.restricted constraint).constants = model.constants := by
  rw [restricted]
  split <;> rfl

/-- It changes no constraint. -/
theorem constraints_restricted : (model.restricted constraint).constraints = model.constraints := by
  rw [restricted]
  split <;> rfl

/-- It changes no strategy. -/
theorem strategy_restricted (variableId : VariableId) :
    ((model.restricted constraint).vars.get? variableId).bind Variable.strategy =
      (model.vars.get? variableId).bind Variable.strategy := by
  rw [restricted]
  split
  · rfl
  · rw [Directory.get?_modify]
    split
    · cases model.vars.get? variableId <;> rfl
    · rfl

/-- Only the domain of the truth value is restricted, and that to 0 and 1. -/
theorem mem_domainOf_restricted {variableId : VariableId} {value : Int} :
    value ∈ (model.restricted constraint).vars.domainOf variableId ↔
      value ∈ model.vars.domainOf variableId ∧
        (constraint.truthVariable? = some variableId → value ∈ Domain.range 0 1) := by
  rw [restricted]
  split
  · rename_i noTruth
    simp [noTruth]
  · rename_i result isTruth
    simp only [Directory.domainOf_modify, isTruth, Option.some.injEq]
    split
    · rename_i same
      subst same
      rw [Directory.domainOf]
      cases model.vars.get? result with
      | none => simp [Domain.not_mem_empty]
      | some entry => simp [Domain.mem_inter]
    · rename_i different
      simp [different]

/-- Adding a constraint changes nothing but the constraints. -/
theorem exists_assert :
    ∃ constraints, model.assert constraint = { model with constraints := constraints } := by
  rw [assert]
  split
  · exact ⟨_, rfl⟩
  · exact ⟨model.constraints, rfl⟩

/-- Recording a constraint changes nothing but the constraints. -/
theorem exists_record :
    ∃ constraints, model.record constraint = { model with constraints := constraints } := by
  rw [record]
  split
  · split
    · exact exists_assert
    · exact ⟨model.constraints, rfl⟩
  · exact exists_assert

/-- Recording a constraint leaves the variables as they are. -/
theorem vars_record : (model.record constraint).vars = model.vars := by
  obtain ⟨constraints, recorded⟩ := model.exists_record
  rw [recorded]

/-- It leaves the literals as they are. -/
theorem constants_record : (model.record constraint).constants = model.constants := by
  obtain ⟨constraints, recorded⟩ := model.exists_record
  rw [recorded]

/-- A constraint without a result is added as it is. -/
theorem record_of_no_result {model : Model} {constraint : Constraint}
    (noResult : constraint.result = none) : model.record constraint = model.assert constraint := by
  rw [record, noResult]
  cases (model.declared? constraint.operator constraint.operands).bind Constraint.result <;> rfl

/-- A constraint without a result is only added: it has no truth value to restrict and no result to
make equal to another. -/
theorem declare_of_no_result (noResult : constraint.result = none) :
    model.declare constraint = model.opened.assert constraint := by
  have noTruth : constraint.truthVariable? = none := by
    rw [Constraint.truthVariable?, noResult]
    exact ite_self _
  have restrictedEq : model.opened.restricted constraint = model.opened := by
    rw [restricted, noTruth]
  have permitted : model.permits constraint = true := by
    rw [permits, noTruth]
    rfl
  rw [declare, if_pos permitted, restrictedEq, record_of_no_result noResult]

end Model

/-! ### What the steps of a declaration give -/

namespace Build

variable {model : Model}

/-- Invalidating opens the model. -/
theorem gives_invalidate : Gives invalidate model (.ok ()) model.opened := by
  apply Gives.model.bind
  split
  · exact (Gives.report _).bind (Gives.update _)
  · rename_i unprepared
    rw [Model.opened_of_unprepared (by simpa [Model.isPrepared] using unprepared)]
    exact Gives.pure ()

/-- An operand that stands for a variable is resolved to it, and nothing is added. -/
theorem gives_resolveOperand {operand : Operand} {variableId : VariableId}
    (found : operand.referent? model.opened = some variableId) :
    Gives (resolveOperand operand) model.opened (.ok variableId) model.opened := by
  cases operand with
  | named name =>
    apply Gives.model.bind
    have known : model.opened.find? name = some variableId := found
    rw [known]
    exact Gives.pure variableId
  | position other =>
    simp only [Operand.referent?] at found
    split at found
    · rename_i inside
      cases found
      apply Gives.model.bind
      rw [if_pos inside]
      exact Gives.pure variableId
    · cases found
  | literal value =>
    simp only [Operand.referent?] at found
    split at found
    · rename_i inside
      refine (Gives.check (if_pos inside)).bind (Gives.model.bind ?_)
      rw [found]
      exact Gives.pure variableId
    · cases found

/-- The operands of a list are resolved one after the other. -/
theorem gives_mapM_resolveOperand {operands : List Operand} {variableIds : List VariableId}
    (found : operands.mapM (Operand.referent? model.opened) = some variableIds) :
    Gives (operands.mapM resolveOperand) model.opened (.ok variableIds) model.opened := by
  induction operands generalizing variableIds with
  | nil =>
    cases found
    exact Gives.pure []
  | cons first rest inductionHypothesis =>
    simp only [List.mapM_cons, Option.bind_eq_bind, Option.bind_eq_some_iff, Option.pure_def,
      Option.some.injEq] at found
    obtain ⟨variableId, firstFound, others, restFound, rfl⟩ := found
    rw [List.mapM_cons]
    refine (gives_resolveOperand firstFound).bind ((inductionHypothesis restFound).bind ?_)
    exact Gives.pure _

/-- Resolving operands that all stand for variables only opens the model. -/
theorem gives_resolveOperands {operands : List Operand} {variableIds : List VariableId}
    (found : operands.mapM (Operand.referent? model.opened) = some variableIds) :
    Gives (resolveOperands operands) model (.ok variableIds) model.opened :=
  gives_invalidate.bind (gives_mapM_resolveOperand found)

/-- A domain without 0 and 1 is refused, either for its only value or for its least one. -/
theorem refuses_restrictToTruth {variableId : VariableId}
    (empty : (model.vars.domainOf variableId ∩ .range 0 1).isEmpty = true) :
    Refuses (restrictToTruth variableId) model model := by
  apply Refuses.of_gives Gives.model
  dsimp only
  split
  · split
    · exact ⟨_, (Gives.refuse _).bind_error⟩
    · exact Refuses.demand_bind _ _ _
  · rw [if_pos empty]
    exact Refuses.demand_bind _ _ _

/-- A variable that can be a truth value is restricted to 0 and 1: both checks before that pass. -/
theorem gives_restrictToTruth {variableId : VariableId}
    (canBeTruth : (model.vars.domainOf variableId ∩ .range 0 1).isEmpty = false) :
    Gives (restrictToTruth variableId) model (.ok ())
      { model with
        vars := model.vars.modify variableId
          ({ · with domain := model.vars.domainOf variableId ∩ .range 0 1 }) fun _ => rfl } := by
  apply Gives.model.bind
  dsimp only
  split
  · rename_i value solved
    obtain ⟨member, inside⟩ := Domain.isEmpty_eq_false_iff.mp canBeTruth
    have only :=
      (Domain.solvedValue?_eq_some_iff.mp solved member).mp (Domain.mem_inter.mp inside).1
    have bounds := Domain.mem_range.mp (Domain.mem_inter.mp inside).2
    rw [if_neg (by omega), if_neg (Bool.eq_false_iff.mp canBeTruth)]
    exact Gives.update _
  · rw [if_neg (Bool.eq_false_iff.mp canBeTruth)]
    exact Gives.update _

variable {constraint : Constraint}

/-- A literal result passes the check that it is a truth value. -/
theorem resolveResult_eq {operator : Operator} {operand : Operand}
    (reified : operator.isReified = true)
    (truth : ∀ value, operand = .literal value → 0 ≤ value ∧ value ≤ 1) :
    resolveResult operator operand = (do
      let variableId ← resolveOperand operand
      restrictToTruth variableId
      Pure.pure variableId) := by
  rw [resolveResult, if_neg (by simp [reified])]
  cases operand with
  | literal value =>
    have bounds := truth value rfl
    dsimp only
    rw [if_neg (by omega)]
  | named name => rfl
  | position variableId => rfl

/-- A result that stands for a variable is resolved to it, and restricted where it is a truth
value. -/
theorem gives_resolveResult {operand : Operand} {result : VariableId}
    (isResult : constraint.result = some result)
    (found : operand.referent? model.opened = some result)
    (truth : constraint.operator.isReified → ∀ value, operand = .literal value →
      0 ≤ value ∧ value ≤ 1) (permitted : model.opened.permits constraint = true) :
    Gives (resolveResult constraint.operator operand) model.opened (.ok result)
      (model.opened.restricted constraint) := by
  by_cases reified : constraint.operator.isReified
  · have isTruth : constraint.truthVariable? = some result := (if_pos reified).trans isResult
    have canBeTruth : (model.opened.vars.domainOf result ∩ .range 0 1).isEmpty = false := by
      simpa [Model.permits, isTruth] using permitted
    rw [resolveResult_eq reified (truth reified), Model.restricted, isTruth]
    exact (gives_resolveOperand found).bind
      ((gives_restrictToTruth canBeTruth).bind (Gives.pure result))
  · have noTruth : constraint.truthVariable? = none := if_neg reified
    rw [resolveResult, if_pos (by simpa using reified), Model.restricted, noTruth]
    exact gives_resolveOperand found

/-- A result that cannot be a truth value is refused before anything is changed. -/
theorem refuses_resolveResult {operand : Operand} {result : VariableId}
    (isResult : constraint.result = some result)
    (found : operand.referent? model.opened = some result)
    (truth : constraint.operator.isReified → ∀ value, operand = .literal value →
      0 ≤ value ∧ value ≤ 1) (refused : model.opened.permits constraint = false) :
    Refuses (resolveResult constraint.operator operand) model.opened model.opened := by
  have reified : constraint.operator.isReified := by
    by_contra plain
    rw [Model.permits, Constraint.truthVariable?, if_neg plain] at refused
    cases refused
  have isTruth : constraint.truthVariable? = some result := (if_pos reified).trans isResult
  have empty : (model.opened.vars.domainOf result ∩ .range 0 1).isEmpty = true := by
    simpa [Model.permits, isTruth] using refused
  rw [resolveResult_eq reified (truth reified)]
  exact Refuses.of_gives (gives_resolveOperand found) (refuses_restrictToTruth empty).bind

/-- Declaring a comparison over variables of the model adds it, unless it was declared before. -/
theorem gives_addComparison {operator : Operator} {operands : List Operand}
    {variableIds : List VariableId} (accepts : operator.arity.accepts operands.length)
    (found : operands.mapM (Operand.referent? model.opened) = some variableIds) :
    Gives (addComparison operator operands) model (.ok ())
      (model.opened.assert ⟨operator, variableIds, none⟩) := by
  have passed : checkArity operator operands = .ok () := if_pos accepts
  refine (Gives.check passed).bind ((gives_resolveOperands found).bind (Gives.model.bind ?_))
  rw [Model.assert]
  split
  · exact Gives.update _
  · exact Gives.pure _

/-- The results of two constraints with the same operands are made equal. -/
theorem gives_unified {operator : Operator} {existing result : VariableId}
    (closed : model.opened = model) (existingInside : existing < model.vars.size)
    (resultInside : result < model.vars.size) : Gives (do
      let vars := (← Build.model).vars
      report (.resultsUnified operator.name (vars.nameOf existing) (vars.nameOf result))
      addComparison (.compare .eq) [.position existing, .position result]
      Pure.pure result) model (.ok result)
        (model.assert ⟨.compare .eq, [existing, result], none⟩) := by
  have found : [Operand.position existing, .position result].mapM (Operand.referent? model.opened) =
      some [existing, result] := by
    rw [closed]
    simp [Operand.referent?, existingInside, resultInside]
  have compared := gives_addComparison (show (Operator.compare .eq).arity.accepts 2 from rfl) found
  rw [closed] at compared
  exact Gives.model.bind ((Gives.report _).bind (compared.bind (Gives.pure result)))

/-- Declaring a constraint with a result over variables of the model restricts and records it. -/
theorem gives_addValueConstraint {operator : Operator} {operands : List Operand}
    {variableIds : List VariableId} {operand : Operand} {result : VariableId} (sound : model.Sound)
    (productive : operator.producesValue = true) (accepts : operator.arity.accepts operands.length)
    (found : operands.mapM (Operand.referent? model.opened) = some variableIds)
    (resultFound : operand.referent? model.opened = some result)
    (resultInside : result < model.vars.size)
    (truth : operator.isReified → ∀ value, operand = .literal value → 0 ≤ value ∧ value ≤ 1)
    (permitted : model.opened.permits ⟨operator, variableIds, some result⟩ = true) :
    Gives (addValueConstraint operator operands (some operand)) model (.ok result)
      ((model.opened.restricted ⟨operator, variableIds, some result⟩).record
        ⟨operator, variableIds, some result⟩) := by
  have passed : checkArity operator operands = .ok () := if_pos accepts
  refine (Gives.check passed).bind ((gives_resolveOperands found).bind (Gives.model.bind ?_))
  have resolved := gives_resolveResult rfl resultFound truth permitted
  have closed : (model.opened.restricted ⟨operator, variableIds, some result⟩).opened =
      model.opened.restricted ⟨operator, variableIds, some result⟩ := Model.opened_restricted
  simp only [Model.record, Model.declared?_restricted]
  cases former : model.opened.declared? operator variableIds with
  | none =>
    simp only [Option.bind_none, Model.assert, Model.declared?_restricted, former,
      Option.isNone_none, if_pos]
    exact resolved.bind ((Gives.update _).bind (Gives.pure result))
  | some earlier =>
    obtain ⟨existing, hasResult, inside⟩ := sound.withoutNetwork.exists_result former productive
    simp only [Option.bind_some, hasResult]
    apply resolved.bind
    split
    · apply gives_unified closed <;> rw [Model.size_restricted]
      · exact inside
      · exact resultInside
    · exact Gives.pure result

/-- It is refused if its result cannot be a truth value, with the network dropped by then. -/
theorem refuses_addValueConstraint {operator : Operator} {operands : List Operand}
    {variableIds : List VariableId} {operand : Operand} {result : VariableId}
    (accepts : operator.arity.accepts operands.length)
    (found : operands.mapM (Operand.referent? model.opened) = some variableIds)
    (resultFound : operand.referent? model.opened = some result)
    (truth : operator.isReified → ∀ value, operand = .literal value → 0 ≤ value ∧ value ≤ 1)
    (refused : model.opened.permits ⟨operator, variableIds, some result⟩ = false) :
    Refuses (addValueConstraint operator operands (some operand)) model model.opened := by
  have passed : checkArity operator operands = .ok () := if_pos accepts
  have refuses := refuses_resolveResult rfl resultFound truth refused
  refine Refuses.of_gives (Gives.check passed) (Refuses.of_gives (gives_resolveOperands found) ?_)
  apply Refuses.of_gives Gives.model
  cases (model.opened.declared? operator variableIds).bind Constraint.result with
  | none => exact refuses.bind
  | some existing => exact refuses.bind

end Build

/-! ### Declarations -/

/-- The results of a successful map belong to the entries one by one. -/
theorem forall₂_of_mapM {α β : Type} {image? : α → Option β} {entries : List α} {images : List β}
    (found : entries.mapM image? = some images) :
    List.Forall₂ (fun entry image => image? entry = some image) entries images := by
  induction entries generalizing images with
  | nil =>
    cases found
    exact .nil
  | cons first rest inductionHypothesis =>
    simp only [List.mapM_cons, Option.bind_eq_bind, Option.bind_eq_some_iff, Option.pure_def,
      Option.some.injEq] at found
    obtain ⟨image, firstFound, others, restFound, rfl⟩ := found
    exact .cons firstFound (inductionHypothesis restFound)

/-- A list whose entries all have images is mapped to the images. -/
theorem mapM_of_forall₂ {α β : Type} {image? : α → Option β} {entries : List α} {images : List β}
    (all : List.Forall₂ (fun entry image => image? entry = some image) entries images) :
    entries.mapM image? = some images := by
  induction all with
  | nil => rfl
  | cons found _ inductionHypothesis =>
    rw [List.mapM_cons, found, inductionHypothesis]
    rfl

/-- A result that is given has an image. -/
theorem optionMapM_some_iff {α β : Type} {image? : α → Option β} {entry : α} {result : Option β} :
    (some entry).mapM image? = some result ↔
      ∃ image, image? entry = some image ∧ some image = result := by
  change some <$> image? entry = some result ↔ _
  rw [Option.map_eq_map, Option.map_eq_some_iff]

/-- An operand stands for a variable that exists. -/
theorem Operand.lt_size_of_referent? {model : Model} (sound : model.Sound) {operand : Operand}
    {variableId : VariableId} (found : operand.referent? model = some variableId) :
    variableId < model.vars.size := by
  cases operand with
  | named name => exact Directory.lt_size_of_keyOf? found
  | position other =>
    simp only [referent?] at found
    split at found
    · rename_i inside
      cases found
      exact inside
    · cases found
  | literal value =>
    simp only [referent?] at found
    split at found
    · obtain ⟨before, after, constants, _⟩ := List.lookup_eq_some_iff.mp found
      exact sound.constants_lt value variableId (by rw [constants]; simp)
    · cases found

namespace Declaration

variable {declaration : Declaration} {constraint : Constraint}

/-- A declaration declares the constraint with its operator and with the variables that its operands
and its result stand for. -/
theorem constraint?_eq_some_iff {model : Model} : declaration.constraint? model = some constraint ↔
    declaration.operator = constraint.operator ∧
      declaration.operands.mapM (Operand.referent? model) = some constraint.operands ∧
        declaration.result.mapM (Operand.referent? model) = some constraint.result := by
  obtain ⟨operator, operands, result⟩ := constraint
  simp only [constraint?, Option.bind_eq_bind, Option.bind_eq_some_iff, Option.pure_def,
    Option.some.injEq, Constraint.mk.injEq]
  constructor
  · rintro ⟨variableIds, operandsFound, resultId, resultFound, rfl, rfl, rfl⟩
    exact ⟨rfl, operandsFound, resultFound⟩
  · rintro ⟨rfl, operandsFound, resultFound⟩
    exact ⟨operands, operandsFound, result, resultFound, rfl, rfl, rfl⟩

/-- The request of a declaration changes the model as its constraint tells. -/
theorem model_after {workspace : Workspace} (sound : workspace.model.Sound)
    (wellFormed : declaration.WellFormed)
    (found : declaration.constraint? workspace.model = some constraint) :
    (declaration.request.after workspace).model = workspace.model.declare constraint := by
  obtain ⟨operator, operands, result⟩ := declaration
  obtain ⟨_, variableIds, resultId⟩ := constraint
  obtain ⟨rfl, operandsFound, resultFound⟩ := constraint?_eq_some_iff.mp found
  obtain ⟨accepts, result_isSome, truth⟩ := wellFormed
  dsimp only at accepts result_isSome truth operandsFound resultFound ⊢
  suffices gives : ∃ outcome, Gives (addConstraint operator operands result) workspace.model outcome
      (workspace.model.declare ⟨operator, variableIds, resultId⟩) by
    obtain ⟨outcome, gives⟩ := gives
    exact gives.discard workspace rfl
  cases result with
  | none =>
    cases resultFound
    rw [addConstraint, if_neg (by simp [← result_isSome]), Model.declare_of_no_result rfl]
    exact ⟨_, (gives_addComparison accepts operandsFound).bind (Gives.pure _)⟩
  | some operand =>
    have productive : operator.producesValue = true := result_isSome.symm
    obtain ⟨variableId, operandFound, rfl⟩ := optionMapM_some_iff.mp resultFound
    rw [addConstraint, if_pos productive, map_eq_pure_bind, Model.declare]
    split
    · rename_i permitted
      have given := gives_addValueConstraint sound productive accepts operandsFound operandFound
        (operand.lt_size_of_referent? sound operandFound)
        (fun reified value isLiteral => truth reified value (congrArg some isLiteral))
        permitted
      exact ⟨_, given.bind (Gives.pure _)⟩
    · rename_i refused
      obtain ⟨refusal, gives⟩ := refuses_addValueConstraint accepts operandsFound operandFound
        (fun reified value isLiteral => truth reified value (congrArg some isLiteral))
        (Bool.eq_false_iff.mpr refused)
      exact ⟨_, gives.bind_error⟩

/-- A well-formed declaration declares a well-formed constraint. -/
theorem wellFormed_constraint {model : Model} (wellFormed : declaration.WellFormed)
    (found : declaration.constraint? model = some constraint) : constraint.WellFormed := by
  obtain ⟨sameOperator, operandsFound, resultFound⟩ := constraint?_eq_some_iff.mp found
  obtain ⟨operator, operands, result⟩ := constraint
  obtain rfl : declaration.operator = operator := sameOperator
  apply Constraint.wellFormed_of_accepts
  · rw [← (forall₂_of_mapM operandsFound).length_eq]
    exact wellFormed.accepts
  · rw [← wellFormed.result_isSome]
    cases declared : declaration.result with
    | none =>
      rw [declared] at resultFound
      cases resultFound
      rfl
    | some operand =>
      rw [declared, optionMapM_some_iff] at resultFound
      obtain ⟨_, _, rfl⟩ := resultFound
      rfl

/-- A declared constraint is about variables that exist. -/
theorem lt_size_of_mem_scope {model : Model} (sound : model.Sound)
    (found : declaration.constraint? model = some constraint) :
    ∀ variableId ∈ constraint.scope, variableId < model.vars.size := by
  obtain ⟨_, operandsFound, resultFound⟩ := constraint?_eq_some_iff.mp found
  intro variableId reads
  rcases List.mem_append.mp reads with isOperand | isResult
  · obtain ⟨operand, _, operandFound⟩ :=
      exists_of_forall₂_of_mem (forall₂_of_mapM operandsFound) isOperand
    exact Operand.lt_size_of_referent? sound operandFound
  · rw [Option.mem_toList] at isResult
    cases declared : declaration.result with
    | none =>
      rw [declared] at resultFound
      cases resultFound.trans (congrArg some isResult)
    | some operand =>
      rw [declared, optionMapM_some_iff] at resultFound
      obtain ⟨other, operandFound, same⟩ := resultFound
      cases same.trans isResult
      exact Operand.lt_size_of_referent? sound operandFound

end Declaration

end ConstraintSearch
