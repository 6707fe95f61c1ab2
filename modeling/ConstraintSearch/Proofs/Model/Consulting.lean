import ConstraintSearch.Proofs.Model.Declared

/-!
# What preparing reads

Strategies, orders and targets are resolved by looking names up; nothing else of the model matters
to the outcome, and the model stays as it is (`Build.Consults`). So preparing comes to the same on
two models with the same problem (`Build.coincides_prepare`), whatever literals they have and
whatever has been reported about them.
-/

namespace ConstraintSearch

open Build

/-- The models declare the same variables and constraints and have the same settings. -/
structure Model.SameProblem (left right : Model) : Prop where
  vars_eq : left.vars.table = right.vars.table
  constraints_eq : left.constraints.table = right.constraints.table
  targets_eq : left.targets = right.targets
  order_eq : left.order = right.order
  strategy_eq : left.strategy = right.strategy

/-- A model poses the same problem as itself. -/
theorem Model.SameProblem.refl (model : Model) : model.SameProblem model :=
  ⟨rfl, rfl, rfl, rfl, rfl⟩

namespace Build

/-- Both steps are refused for the same reason and leave their models as they are, or both have the
same result and change their models in the same way. -/
def Coincides {α : Type} (first : Build α) (left : Model) (second : Build α) (right : Model)
    (change : α → Model → Model) : Prop :=
  (∃ error, Gives first left (.error (.invalid error)) left ∧
    Gives second right (.error (.invalid error)) right) ∨ ∃ result,
      Gives first left (.ok result) (change result left) ∧
        Gives second right (.ok result) (change result right)

/-- The step comes to the same on models that have the same names, and leaves them as they are. -/
def Consults {α : Type} (step : Build α) : Prop :=
  ∀ left right : Model, (∀ name, left.find? name = right.find? name) →
    Coincides step left step right fun _ => id

variable {α β : Type}

/-- What follows steps that leave the models as they are. -/
theorem Coincides.bind {first second : Build α} {left right : Model} {next nextToo : α → Build β}
    {change : β → Model → Model} (coincides : Coincides first left second right fun _ => id)
    (later : ∀ result, Coincides (next result) left (nextToo result) right change) :
    Coincides (first >>= next) left (second >>= nextToo) right change := by
  rcases coincides with ⟨error, onLeft, onRight⟩ | ⟨result, onLeft, onRight⟩
  · exact .inl ⟨error, onLeft.bind_error, onRight.bind_error⟩
  · rcases later result with ⟨error, thenLeft, thenRight⟩ | ⟨final, thenLeft, thenRight⟩
    · exact .inl ⟨error, onLeft.bind thenLeft, onRight.bind thenRight⟩
    · exact .inr ⟨final, onLeft.bind thenLeft, onRight.bind thenRight⟩

/-- Steps coincide after reading the models if they do so for these models. -/
theorem Coincides.model_bind {left right : Model} {next nextToo : Model → Build β}
    {change : β → Model → Model}
    (coincides : Coincides (next left) left (nextToo right) right change) :
    Coincides (Build.model >>= next) left (Build.model >>= nextToo) right change := by
  rcases coincides with ⟨error, onLeft, onRight⟩ | ⟨result, onLeft, onRight⟩
  · exact .inl ⟨error, Gives.model.bind onLeft, Gives.model.bind onRight⟩
  · exact .inr ⟨result, Gives.model.bind onLeft, Gives.model.bind onRight⟩

/-- What is reported does not matter. -/
theorem Coincides.report (event other : Event) {left right : Model} :
    Coincides (Build.report event) left (Build.report other) right fun _ => id :=
  .inr ⟨(), Gives.report event, Gives.report other⟩

namespace Consults

/-- Returning a result consults nothing. -/
theorem pure (result : α) : Consults (Pure.pure result : Build α) :=
  fun _ _ _ => .inr ⟨result, Gives.pure result, Gives.pure result⟩

/-- Refusing consults nothing. -/
theorem refuse (error : ModelError) : Consults (Build.refuse error : Build α) :=
  fun _ _ _ => .inl ⟨_, Gives.refuse error, Gives.refuse error⟩

/-- Reporting an event consults nothing. -/
theorem report (event : Event) : Consults (Build.report event) :=
  fun _ _ _ => .report event event

/-- Steps in a row consult what each of them consults. -/
theorem bind {step : Build α} {next : α → Build β} (first : Consults step)
    (second : ∀ result, Consults (next result)) : Consults (step >>= next) :=
  fun left right same => (first left right same).bind fun result => second result left right same

/-- A step that is taken first under a condition. -/
theorem guarded {condition : Prop} [Decidable condition] {step : Build Unit} {rest : Build α}
    (first : Consults step) (second : Consults rest) :
    Consults (if condition then step >>= fun _ => rest else rest) := by
  split
  · exact bind first fun _ => second
  · exact second

/-- So do the steps for the entries of a list. -/
theorem mapM {step : α → Build β} (each : ∀ entry, Consults (step entry)) (entries : List α) :
    Consults (entries.mapM step) := by
  induction entries with
  | nil => exact pure []
  | cons first rest inductionHypothesis =>
    rw [List.mapM_cons]
    exact bind (each first) fun _ => bind inductionHypothesis fun _ => pure _

/-- So does the step for what may be missing. -/
theorem optionMapM {step : α → Build β} (each : ∀ entry, Consults (step entry)) (entry : Option α) :
    Consults (entry.mapM step) := by
  cases entry with
  | none => exact pure none
  | some present =>
    change Consults (some <$> step present)
    rw [map_eq_pure_bind]
    exact bind (each present) fun _ => pure _

/-- Looking a name up consults just the names. -/
theorem lookup (name : String) : Consults (Build.lookup name) := by
  intro left right same
  cases found : left.find? name with
  | none =>
    refine .inl ⟨.unknownVariable name, Gives.model.bind ?_, Gives.model.bind ?_⟩
    · rw [found]
      exact Gives.refuse _
    · rw [← same, found]
      exact Gives.refuse _
  | some variableId =>
    refine .inr ⟨variableId, Gives.model.bind ?_, Gives.model.bind ?_⟩
    · rw [found]
      exact Gives.pure _
    · rw [← same, found]
      exact Gives.pure _

/-- A criterion looks up the names that it lists, or reports that it lists none. -/
theorem resolveCriterion (criterion : Criterion String) : Consults criterion.resolve := by
  cases criterion with
  | list names inverted =>
    rw [Criterion.resolve]
    exact guarded (report _) (bind (mapM lookup _) fun _ => pure _)
  | naive | size | min | max | markov => exact pure _

/-- An order is resolved criterion by criterion. -/
theorem resolveOrder (order : VariableOrder String) : Consults order.resolve :=
  bind (resolveCriterion _) fun _ => bind (mapM resolveCriterion _) fun _ => pure _

/-- A row names its guard. -/
theorem resolveRow (matrix : MarkovMatrix String) (owner : String) (row : MarkovRow String)
    (index : Nat) : Consults (matrix.resolveRow owner row index) := by
  have weights : Consults (do
      if row.weights.all (· == 0.0) then
        Build.report (.weightlessRow index owner)
      return { weights := row.weights, guard := ← row.guard.mapM Build.lookup } :
        Build (MarkovRow VariableId)) :=
    guarded (report _) (bind (optionMapM lookup _) fun _ => pure _)
  rw [MarkovMatrix.resolveRow]
  dsimp only
  split
  · exact bind (refuse _) fun _ => weights
  · exact weights

/-- A matrix is resolved row by row. -/
theorem resolveMatrix (matrix : MarkovMatrix String) (owner : String) :
    Consults (matrix.resolve owner) := by
  have rows : ∀ entry : MarkovRow String × Nat,
      Consults (matrix.resolveRow owner entry.1 entry.2) :=
    fun entry => resolveRow matrix owner entry.1 entry.2
  rw [MarkovMatrix.resolve]
  dsimp only
  refine guarded (refuse _) ?_
  split
  · exact guarded (refuse _) (bind (mapM rows _) fun _ => pure _)
  · exact bind (mapM rows _) fun _ => pure _

/-- A strategy is resolved along its fallbacks. -/
theorem resolveStrategy (owner : String) (strategy : ValueStrategy String) :
    Consults (strategy.resolve owner) := by
  induction strategy with
  | min | max | mid | splitMin | splitMax | minMaxCycle => exact pure _
  | list values fallback inductionHypothesis =>
    rw [ValueStrategy.resolve]
    exact guarded (refuse _) (bind inductionHypothesis fun _ => pure _)
  | markov matrix => exact bind (resolveMatrix matrix owner) fun _ => pure _

/-- Targets are resolved name by name. -/
theorem resolveTargets (targets : Targets) : Consults targets.resolve := by
  cases targets with
  | all => exact pure _
  | named names =>
    rw [Targets.resolve]
    exact guarded (report _) (bind (mapM lookup _) fun _ => pure _)

end Consults

/-- A prepared model is not prepared again. -/
theorem gives_prepare_of_prepared {start : Model} {network : Network}
    (prepared : start.network = some network) : Gives prepare start (.ok network) start := by
  apply Gives.model.bind
  rw [prepared]
  exact Gives.pure network

/-- Two models with the same problem are given the same network, or are refused it for the same
reason. -/
theorem coincides_prepare {left right : Model} (same : left.SameProblem right)
    (sameVars : left.vars = right.vars) (unprepared : left.network = none)
    (unpreparedToo : right.network = none) :
    Coincides prepare left prepare right fun network model =>
      { model with network := some network } := by
  have sameNames : ∀ name, left.find? name = right.find? name := by
    intro name
    rw [Model.find?, Model.find?, Model.allVariables, Model.allVariables, unprepared, unpreparedToo,
      Option.elim_none, Option.elim_none, sameVars]
  have consults : ∀ {α : Type} {step : Build α}, Consults step →
      Coincides step left step right fun _ => id :=
    fun consults => consults left right sameNames
  have sameConstraints : left.constraints.toList = right.constraints.toList :=
    congrArg Table.toList same.constraints_eq
  have sameCount : left.constraints.size = right.constraints.size :=
    congrArg Table.size same.constraints_eq
  apply Coincides.model_bind
  rw [unprepared, unpreparedToo, ← same.order_eq, ← same.strategy_eq, ← same.targets_eq, ← sameVars,
    ← sameConstraints, ← sameCount]
  refine (consults (.resolveOrder left.order)).bind fun order => ?_
  refine (consults (.resolveStrategy "*" left.strategy)).bind fun strategy => ?_
  refine (consults (.mapM (fun entry => .optionMapM (.resolveStrategy entry.name) entry.strategy)
    left.vars.toList)).bind fun strategies => ?_
  refine (consults (.resolveTargets left.targets)).bind fun targeted =>
    (Coincides.report _ _).bind fun _ => ?_
  exact .inr ⟨_, (Gives.update _).bind (Gives.pure _), (Gives.update _).bind (Gives.pure _)⟩

end Build

end ConstraintSearch
