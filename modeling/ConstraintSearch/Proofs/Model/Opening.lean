import ConstraintSearch.Proofs.Model.Retaining

/-!
# Modifications of prepared models

A modification drops the network of a prepared model. It either is refused before it does so, and
then nothing has happened, or what follows is the same as without the network (`Build.Opens`). The
journal, which notes that a network was dropped, does not matter to what becomes of the model;
`Build.Maintains` says so of a step, and carries a property of models along.

The declaration of a named variable is the exception: the name is looked up before the network is
dropped, so one that the network has generated is taken for that of a declared variable
(`Request.Collides`).
-/

namespace ConstraintSearch

open Build

/-! ### Properties that modifications maintain -/

/-- A property of models that goes on to hold whatever a modification changes. -/
structure Model.Stable (holds : Model → Prop) : Prop where
  opened : ∀ {model : Model}, holds model → holds model.opened
  push : ∀ {model : Model}, holds model → ∀ entry,
    holds { model with vars := model.vars.push entry }
  modify : ∀ {model : Model}, holds model → ∀ key change keeps,
    holds { model with vars := model.vars.modify key change keeps }
  literals : ∀ {model : Model}, holds model → ∀ constants,
    holds { model with constants := constants }
  constrain : ∀ {model : Model}, holds model → ∀ constraint,
    holds { model with constraints := model.constraints.push constraint }
  set : ∀ {model : Model}, holds model → ∀ targets order strategy,
    holds { model with targets := targets, order := order, strategy := strategy }

/-- Only preparing puts a network on a model. -/
theorem Model.stable_unprepared : Stable fun model => model.network = none where
  opened _ := rfl
  push unprepared _ := unprepared
  modify unprepared _ _ _ := unprepared
  literals unprepared _ := unprepared
  constrain unprepared _ := unprepared
  set unprepared _ _ _ := unprepared

/-- The property that every model has is stable. -/
theorem Model.stable_true : Stable fun _ => True :=
  ⟨fun _ => trivial, fun _ _ => trivial, fun _ _ _ _ => trivial, fun _ _ => trivial, fun _ _ =>
    trivial, fun _ _ _ _ => trivial⟩

namespace Build

/-- Whatever the journal, the step comes to the same from a model with the property, and leaves one
with it. -/
def Maintains {α : Type} (holds : Model → Prop) (step : Build α) : Prop :=
  ∀ model, holds model → ∃ outcome after, Gives step model outcome after ∧ holds after

namespace Maintains

variable {α β : Type} {holds : Model → Prop}

/-- A step that only returns a result maintains every property. -/
theorem pure (result : α) : Maintains holds (Pure.pure result : Build α) :=
  fun model start => ⟨_, model, Gives.pure result, start⟩

/-- A step that only refuses maintains every property. -/
theorem refuse (error : ModelError) : Maintains holds (Build.refuse error : Build α) :=
  fun model start => ⟨_, model, Gives.refuse error, start⟩

/-- Reading the model maintains every property. -/
theorem model : Maintains holds Build.model :=
  fun model start => ⟨_, model, Gives.model, start⟩

/-- Reporting an event maintains every property. -/
theorem report (event : Event) : Maintains holds (Build.report event) :=
  fun model start => ⟨_, model, Gives.report event, start⟩

/-- A change that keeps the property maintains it. -/
theorem update {change : Model → Model} (keeps : ∀ model, holds model → holds (change model)) :
    Maintains holds (Build.update change) :=
  fun model start => ⟨_, change model, Gives.update change, keeps model start⟩

/-- A check maintains every property, whether it passes or not. -/
theorem check (checked : Except ModelError α) : Maintains holds (Build.check checked) := by
  cases checked with
  | ok result => exact pure result
  | error error => exact refuse error

/-- So does a demand, whether it is met or is a fault. -/
theorem demand (demanded : Except Fault α) : Maintains holds (Build.demand demanded) := by
  cases demanded with
  | ok result => exact pure result
  | error fault =>
    intro model start
    refine ⟨.error (.fault fault), model, ?_, start⟩
    rintro workspace rfl
    exact ⟨rfl, rfl⟩

/-- Steps in a row maintain a property that each of them maintains. -/
theorem bind {step : Build α} {next : α → Build β} (first : Maintains holds step)
    (second : ∀ result, Maintains holds (next result)) : Maintains holds (step >>= next) := by
  intro model start
  obtain ⟨outcome, middle, gives, between⟩ := first model start
  cases outcome with
  | error refusal => exact ⟨_, middle, gives.bind_error, between⟩
  | ok result =>
    obtain ⟨outcome, after, later, final⟩ := second result middle between
    exact ⟨outcome, after, gives.bind later, final⟩

/-- What becomes of the result does not matter to the model. -/
theorem map {step : Build α} (image : α → β) (maintains : Maintains holds step) :
    Maintains holds (image <$> step) := by
  rw [map_eq_pure_bind]
  exact maintains.bind fun _ => pure _

/-- A step that is taken first under a condition. -/
theorem guarded {condition : Prop} [Decidable condition] {step : Build β} {rest : Build α}
    (first : Maintains holds step) (second : Maintains holds rest) :
    Maintains holds (if condition then step >>= fun _ => rest else rest) := by
  split
  · exact bind first fun _ => second
  · exact second

/-- A step for each entry of a list maintains what the single steps maintain. -/
theorem mapM {step : α → Build β} (each : ∀ entry, Maintains holds (step entry))
    (entries : List α) : Maintains holds (entries.mapM step) := by
  induction entries with
  | nil => exact pure []
  | cons first rest inductionHypothesis =>
    rw [List.mapM_cons]
    exact bind (each first) fun _ => bind inductionHypothesis fun _ => pure _

/-- Looking a name up maintains every property. -/
theorem lookup (name : String) : Maintains holds (Build.lookup name) := by
  refine bind model fun seen => ?_
  split
  · exact pure _
  · exact refuse _

variable (stable : Model.Stable holds)

include stable

/-- Dropping the network maintains what is stable. -/
theorem invalidate : Maintains holds Build.invalidate :=
  fun model start => ⟨_, model.opened, gives_invalidate, stable.opened start⟩

/-- Adding a variable maintains what is stable. -/
theorem push (entry : Variable) : Maintains holds (Build.push entry) :=
  fun _ start => ⟨_, _, gives_push entry, stable.push start entry⟩

/-- Adding a variable without a name maintains what is stable. -/
theorem pushAnonymous (domain : Domain) : Maintains holds (Build.pushAnonymous domain) :=
  fun _ start => ⟨_, _, gives_pushAnonymous domain, stable.push start _⟩

/-- The variable of a literal is added by a push and a change of the literals. -/
theorem constantFor (value : Int) : Maintains holds (constantFor value) := by
  refine bind model fun seen => ?_
  split
  · exact pure _
  · exact bind (pushAnonymous stable _) fun _ =>
      bind (update fun _ start => stable.literals start _) fun _ => pure _

/-- An operand is resolved by looking it up, or by adding its literal. -/
theorem resolveOperand (operand : Operand) : Maintains holds (resolveOperand operand) := by
  cases operand with
  | named name => exact lookup name
  | position variableId =>
    refine bind model fun seen => ?_
    split
    · exact pure _
    · exact refuse _
  | literal value => exact bind (check _) (constantFor stable)

/-- Resolving all operands maintains what is stable, as resolving each of them does. -/
theorem resolveOperands (operands : List Operand) : Maintains holds (resolveOperands operands) :=
  bind (invalidate stable) fun _ => mapM (resolveOperand stable) operands

/-- Restricting a variable to truth values changes just its domain. -/
theorem restrictToTruth (variableId : VariableId) :
    Maintains holds (restrictToTruth variableId) := by
  refine bind model fun seen => ?_
  have restricts : Maintains holds (do
      if (seen.vars.domainOf variableId ∩ .range 0 1).isEmpty then
        Build.refuse (.nonBooleanResult (← Build.demand (seen.vars.domainOf variableId).minimum))
      Build.update fun model =>
        { model with
          vars := model.vars.modify variableId
            ({ · with domain := seen.vars.domainOf variableId ∩ .range 0 1 }) fun _ => rfl }) := by
    split
    · exact bind (demand _) fun _ => bind (refuse _) fun _ => update fun _ start =>
        stable.modify start _ _ _
    · exact update fun _ start => stable.modify start _ _ _
  dsimp only
  split
  · exact guarded (refuse _) restricts
  · exact restricts

/-- A result is resolved like an operand, and restricted if it is a truth value. -/
theorem resolveResult (operator : Operator) (operand : Operand) :
    Maintains holds (resolveResult operator operand) := by
  have truthful : Maintains holds (do
      let variableId ← ConstraintSearch.resolveOperand operand
      ConstraintSearch.restrictToTruth variableId
      Pure.pure variableId) :=
    bind (resolveOperand stable operand) fun _ => bind (restrictToTruth stable _) fun _ => pure _
  rw [ConstraintSearch.resolveResult]
  split
  · exact resolveOperand stable operand
  · dsimp only
    split
    · exact guarded (refuse _) truthful
    · exact truthful

/-- Adding a constraint maintains what is stable. -/
theorem pushConstraint (constraint : Constraint) : Maintains holds (pushConstraint constraint) :=
  update fun _ start => stable.constrain start constraint

/-- Declaring a comparison without a result maintains what is stable. -/
theorem addComparison (operator : Operator) (operands : List Operand) :
    Maintains holds (addComparison operator operands) := by
  refine bind (check _) fun _ => bind (resolveOperands stable operands) fun variableIds =>
    bind model fun seen => ?_
  split
  · exact pushConstraint stable _
  · exact pure _

/-- What a declaration with a result does once its operands are resolved. -/
theorem declareResult (operator : Operator) (variableIds : List VariableId)
    (result : Option Operand) : Maintains holds (do
      match ((← Build.model).declared? operator variableIds).bind Constraint.result, result with
      | some existing, none => Pure.pure existing
      | some existing, some result =>
        let result ← ConstraintSearch.resolveResult operator result
        if result ≠ existing then
          let vars := (← Build.model).vars
          Build.report (.resultsUnified operator.name (vars.nameOf existing) (vars.nameOf result))
          ConstraintSearch.addComparison (.compare .eq) [.position existing, .position result]
        Pure.pure result
      | none, result =>
        let result ←
          match result with
          | none => Build.pushAnonymous operator.resultDomain
          | some result => ConstraintSearch.resolveResult operator result
        ConstraintSearch.pushConstraint ⟨operator, variableIds, some result⟩
        Pure.pure result) := by
  refine bind model fun seen => ?_
  split
  · exact pure _
  · refine bind (resolveResult stable operator _) fun variableId => ?_
    dsimp only
    split
    · exact bind model fun _ => bind (report _) fun _ => bind (addComparison stable _ _) fun _ =>
        pure _
    · exact pure _
  · have pushes : ∀ result, Maintains holds (do
        ConstraintSearch.pushConstraint ⟨operator, variableIds, some result⟩
        Pure.pure result) := fun _ => bind (pushConstraint stable _) fun _ => pure _
    dsimp only
    split
    · exact bind (pushAnonymous stable _) pushes
    · exact bind (resolveResult stable operator _) pushes

/-- Changing a setting maintains what is stable, if the change keeps it. -/
theorem setting {change : Model → Model} (keeps : ∀ model, holds model → holds (change model)) :
    Maintains holds (do Build.invalidate; Build.update change) :=
  bind (invalidate stable) fun _ => update keeps

end Maintains

/-! ### Steps that drop the network -/

/-- The step comes to the same on the model and on the one without its network: either it is refused
and neither model changes, or both become the same, which has no network. -/
def Opens {α : Type} (step : Build α) (start : Model) : Prop :=
  (∃ refusal, Gives step start (.error refusal) start ∧
    Gives step start.opened (.error refusal) start.opened) ∨ ∃ outcome after,
      Gives step start outcome after ∧ Gives step start.opened outcome after ∧ after.network = none

namespace Opens

variable {α β : Type} {start : Model}

/-- A step that only refuses comes to the same with and without the network. -/
theorem refuse (error : ModelError) : Opens (Build.refuse error : Build α) start :=
  .inl ⟨_, Gives.refuse error, Gives.refuse error⟩

/-- What follows once the network is dropped. -/
theorem invalidate_bind {next : Build α}
    (maintains : Maintains (fun model => model.network = none) next) :
    Opens (do Build.invalidate; next) start := by
  obtain ⟨outcome, after, gives, unprepared⟩ := maintains start.opened rfl
  exact .inr ⟨outcome, after, gives_invalidate.bind gives, gives_invalidate.bind gives, unprepared⟩

/-- Once a step has dropped the network, or has been refused, the steps after it find the same model
either way. -/
theorem bind {step : Build α} {next : α → Build β} (opens : Opens step start)
    (later : ∀ result, Maintains (fun model => model.network = none) (next result)) :
    Opens (step >>= next) start := by
  rcases opens with ⟨refusal, left, right⟩ | ⟨outcome, middle, left, right, unprepared⟩
  · exact .inl ⟨refusal, left.bind_error, right.bind_error⟩
  · cases outcome with
    | error refusal => exact .inr ⟨_, middle, left.bind_error, right.bind_error, unprepared⟩
    | ok result =>
      obtain ⟨outcome, after, gives, final⟩ := later result middle unprepared
      exact .inr ⟨outcome, after, left.bind gives, right.bind gives, final⟩

/-- What becomes of the result does not matter to the model. -/
theorem map {step : Build α} (image : α → β) (opens : Opens step start) :
    Opens (image <$> step) start := by
  rw [map_eq_pure_bind]
  exact opens.bind fun _ => .pure _

/-- A check that both models pass or neither does. -/
theorem check_bind {checked : Except ModelError α} {next : α → Build β}
    (later : ∀ result, checked = .ok result → Opens (next result) start) :
    Opens (Build.check checked >>= next) start := by
  cases checked with
  | error error => exact .inl ⟨_, (Gives.refuse error).bind_error, (Gives.refuse error).bind_error⟩
  | ok result => exact later result rfl

/-- A name that only the network has is not looked up in the same way. -/
theorem addVariable {name : String} {domain : Domain}
    (sameName : (start.find? name).isSome = (start.opened.find? name).isSome) :
    Opens (addVariable name domain) start := by
  apply check_bind
  intro _ _
  by_cases known : (start.find? name).isSome
  · left
    refine ⟨.invalid (.duplicateVariable name), Gives.model.bind ?_, Gives.model.bind ?_⟩
    · rw [if_pos known]
      exact (Gives.refuse _).bind_error
    · rw [if_pos (sameName ▸ known)]
      exact (Gives.refuse _).bind_error
  · right
    refine ⟨.ok start.vars.size, { start.opened with vars := start.vars.push { name, domain } },
      Gives.model.bind ?_, Gives.model.bind ?_, rfl⟩
    · rw [if_neg known]
      exact gives_invalidate.bind (gives_push _)
    · rw [if_neg (sameName ▸ known)]
      exact gives_invalidate.bind (gives_push _)

/-- Declaring a variable without a name drops the network first. -/
theorem addAnonymous (domain : Domain) : Opens (addAnonymous domain) start :=
  invalidate_bind (.pushAnonymous Model.stable_unprepared domain)

/-- Declaring a literal drops the network once the value has been checked. -/
theorem addConstant (value : Int) : Opens (addConstant value) start :=
  check_bind fun value _ => invalidate_bind (.constantFor Model.stable_unprepared value)

/-- Declaring a comparison drops the network once the number of operands has been checked. -/
theorem addComparison (operator : Operator) (operands : List Operand) :
    Opens (addComparison operator operands) start := by
  refine check_bind fun _ _ => bind
    (invalidate_bind (.mapM (.resolveOperand Model.stable_unprepared) operands)) fun variableIds =>
      ?_
  refine .bind .model fun seen => ?_
  split
  · exact .pushConstraint Model.stable_unprepared _
  · exact .pure _

/-- So does declaring a constraint with a result. -/
theorem addValueConstraint (operator : Operator) (operands : List Operand)
    (result : Option Operand) : Opens (addValueConstraint operator operands result) start :=
  check_bind fun _ _ =>
    bind (invalidate_bind (.mapM (.resolveOperand Model.stable_unprepared) operands))
    fun variableIds => .declareResult Model.stable_unprepared operator variableIds result

/-- Every declaration of a constraint comes to the same with and without the network. -/
theorem addConstraint (operator : Operator) (operands : List Operand) (result : Option Operand) :
    Opens (addConstraint operator operands result) start := by
  rw [ConstraintSearch.addConstraint]
  split
  · exact (addValueConstraint operator operands result).map some
  · split
    · exact (addComparison operator operands).bind fun _ => .pure _
    · exact refuse _

/-- Changing a setting drops the network first. -/
theorem setting {change : Model → Model}
    (keeps : ∀ model : Model, model.network = none → (change model).network = none) :
    Opens (do Build.invalidate; Build.update change) start :=
  invalidate_bind (.update keeps)

/-- Setting the strategy drops the network, unless the strategy is refused. -/
theorem setStrategy (strategy : ValueStrategy String) : Opens (setStrategy strategy) start := by
  rw [ConstraintSearch.setStrategy]
  split
  · exact .inl ⟨_, (Gives.refuse _).bind_error, (Gives.refuse _).bind_error⟩
  · exact setting fun _ => id

/-- Setting the strategy of a variable drops the network before the name is looked up. -/
theorem setVariableStrategy (name : String) (strategy : ValueStrategy String) :
    Opens (setVariableStrategy name strategy) start :=
  invalidate_bind (.bind (.lookup name) fun _ => .update fun _ => id)

end Opens

end Build

/-! ### Requests -/

namespace Request

/-- The step of building that the request asks for, with the variable that it gives, if it gives
one. -/
def answer : Request → Build (Option VariableId)
  | declare name domain => some <$> addVariable name domain
  | declareRange name lower upper => some <$> addRange name lower upper
  | declareAnonymous domain => some <$> addAnonymous domain
  | declareAnonymousRange lower upper => some <$> addAnonymousRange lower upper
  | declareConstant value => some <$> addConstant value
  | declareConstraint operator operands result => addConstraint operator operands result
  | target targets => (fun _ => none) <$> setTargets targets
  | orderBy order => (fun _ => none) <$> setOrder order
  | divideBy strategy => (fun _ => none) <$> setStrategy strategy
  | divideVariableBy name strategy => (fun _ => none) <$> setVariableStrategy name strategy
  | prepare => (fun _ => none) <$> ConstraintSearch.prepare

/-- The request is answered by the step that it asks for. -/
theorem run_step (request : Request) (workspace : Workspace) :
    request.step.run workspace = (((fun _ => ()) <$> request.answer).run workspace) := by
  have twice : ∀ {α β : Type} (first : α → β) (step : Build α),
      ((fun _ => ()) <$> first <$> step).run workspace =
        ((fun _ => ()) <$> step).run workspace := by
    intro α β first step
    rw [map_eq_pure_bind, run_bind, map_eq_pure_bind, run_bind, map_eq_pure_bind, run_bind]
    rcases step.run workspace with ⟨refusal | result, after⟩ <;> rfl
  have unused : ∀ step : Build Unit, step.run workspace =
      ((fun _ => ()) <$> step).run workspace := by
    intro step
    rw [map_eq_pure_bind, run_bind]
    rcases step.run workspace with ⟨refusal | result, after⟩ <;> rfl
  cases request with
  | declareConstraint operator operands result => rfl
  | target | orderBy | divideBy | divideVariableBy => exact (unused _).trans (twice _ _).symm
  | _ => exact (twice _ _).symm

/-- The model after a request is the one that its step leaves, whatever the step returns. -/
theorem after_eq (request : Request) (workspace : Workspace) :
    request.after workspace = (request.answer.run workspace).2 := by
  rw [after, run_step, map_eq_pure_bind, run_bind]
  rcases request.answer.run workspace with ⟨refusal | result, after⟩ <;> rfl

/-- The name of the variable that the request declares, unless its domain is already refused. -/
def declares? : Request → Option String
  | declare name _ => some name
  | declareRange name lower upper => (checkRange lower upper).toOption.map fun _ => name
  | _ => none

/-- The request declares a variable by a name that the network has, but no declared variable. -/
def Collides (request : Request) (model : Model) : Prop :=
  ∃ name, request.declares? = some name ∧ (model.find? name).isSome ∧ model.vars.keyOf? name = none

/-- A modification maintains what is stable. -/
theorem maintains_answer {request : Request} (modifies : request ≠ .prepare) {holds : Model → Prop}
    (stable : Model.Stable holds) : Maintains holds request.answer := by
  have adds : ∀ name domain, Maintains holds (addVariable name domain) := fun name domain =>
    .bind (.check _) fun _ => .bind .model fun _ =>
      .guarded (.refuse _) (.bind (.invalidate stable) fun _ => .push stable _)
  have addsAnonymous : ∀ domain, Maintains holds (addAnonymous domain) := fun domain =>
    .bind (.invalidate stable) fun _ => .pushAnonymous stable domain
  cases request with
  | declare name domain => exact (adds name domain).map _
  | declareRange name lower upper => exact .map _ (.bind (.check _) fun domain => adds name domain)
  | declareAnonymous domain => exact (addsAnonymous domain).map _
  | declareAnonymousRange lower upper => exact .map _ (.bind (.check _) addsAnonymous)
  | declareConstant value =>
    exact .map _ (.bind (.check _) fun _ => .bind (.invalidate stable) fun _ =>
      .constantFor stable _)
  | declareConstraint operator operands result =>
    rw [answer, addConstraint]
    split
    · exact .map _ (.bind (.check _) fun _ =>
        .bind (.resolveOperands stable operands) fun variableIds =>
          .declareResult stable operator variableIds result)
    · split
      · exact .bind (.addComparison stable operator operands) fun _ => .pure _
      · exact .refuse _
  | target targets => exact .map _ (.setting stable fun _ start => stable.set start _ _ _)
  | orderBy order => exact .map _ (.setting stable fun _ start => stable.set start _ _ _)
  | divideBy strategy =>
    exact .map _ (.guarded (.refuse _) (.setting stable fun _ start => stable.set start _ _ _))
  | divideVariableBy name strategy =>
    exact .map _ (.bind (.invalidate stable) fun _ => .bind (.lookup name) fun _ =>
      .update fun _ start => stable.modify start _ _ _)
  | prepare => exact absurd rfl modifies

/-- A declared name is one of the network, too. -/
theorem isSome_find?_opened {start : Model} (sound : start.Sound) {name : String}
    (known : (start.find? name).isSome → start.vars.keyOf? name ≠ none) :
    (start.find? name).isSome = (start.opened.find? name).isSome := by
  rw [Bool.eq_iff_iff]
  constructor
  · exact fun found => Option.isSome_iff_ne_none.mpr (known found)
  · intro declared
    by_contra hidden
    rw [show start.opened.find? name = none from
      sound.keyOf?_eq_none_of_find? (Option.not_isSome_iff_eq_none.mp hidden)] at declared
    cases declared

/-- A modification that does not collide with the network drops it, if it is not refused at once. -/
theorem opens_answer {request : Request} {start : Model} (sound : start.Sound)
    (modifies : request ≠ .prepare) (apart : ¬ request.Collides start) :
    Opens request.answer start := by
  have sameName : ∀ name, request.declares? = some name →
      (start.find? name).isSome = (start.opened.find? name).isSome :=
    fun name declares => isSome_find?_opened sound fun found unknown =>
      apart ⟨name, declares, found, unknown⟩
  cases request with
  | declare name domain => exact .map _ (.addVariable (sameName name rfl))
  | declareRange name lower upper =>
    refine .map _ (.check_bind fun domain checked => .addVariable (sameName name ?_))
    rw [declares?, checked]
    rfl
  | declareAnonymous domain => exact .map _ (.addAnonymous domain)
  | declareAnonymousRange lower upper =>
    exact .map _ (.check_bind fun domain _ => .addAnonymous domain)
  | declareConstant value => exact .map _ (.addConstant value)
  | declareConstraint operator operands result => exact .addConstraint operator operands result
  | target targets => exact .map _ (.setting fun _ => id)
  | orderBy order => exact .map _ (.setting fun _ => id)
  | divideBy strategy => exact .map _ (.setStrategy strategy)
  | divideVariableBy name strategy => exact .map _ (.setVariableStrategy name strategy)
  | prepare => exact absurd rfl modifies

end Request

/-! ### Generated names that are declared -/

/-- Every generated name starts with two underscores. -/
theorem generatedName_eq_append (position attempt : Nat) :
    ∃ rest, generatedName position attempt = "__" ++ rest := by
  cases attempt with
  | zero => exact ⟨_, rfl⟩
  | succ attempt => exact ⟨_, (generatedName_succ position attempt).trans String.append_assoc⟩

/-- A generated name is one that variables may be declared with. -/
theorem checkName_generatedName (position attempt : Nat) :
    checkName (generatedName position attempt) = .ok () := by
  obtain ⟨rest, named⟩ := generatedName_eq_append position attempt
  have letters : (generatedName position attempt).toList = '_' :: '_' :: rest.toList := by
    rw [named, String.toList_append]
    rfl
  have nonempty : (generatedName position attempt).isEmpty = false := by
    rw [Bool.eq_false_iff, Ne, String.isEmpty_iff, named]
    intro none
    cases letters.symm.trans (congrArg String.toList (named.trans none))
  have plain : isNumericName (generatedName position attempt) = false := by
    rw [isNumericName, letters]
    simp
  rw [checkName, nonempty, plain]
  rfl

namespace Model

variable {start : Model}

/-- Names that only the network has were generated. -/
theorem Sound.exists_generatedName (sound : start.Sound) {name : String}
    (known : (start.find? name).isSome) (unknown : start.vars.keyOf? name = none) :
    ∃ position attempt, name = generatedName position attempt := by
  obtain ⟨variableId, found⟩ := Option.isSome_iff_exists.mp known
  obtain ⟨entry, isEntry, named⟩ := Directory.exists_get?_of_keyOf? found
  cases prepared : start.network with
  | none =>
    rw [find?, allVariables, prepared] at found
    cases found.symm.trans unknown
  | some network =>
    rw [allVariables, prepared] at isEntry
    change network.vars.get? variableId = some entry at isEntry
    have built := sound.built network prepared
    have inside : variableId < network.vars.size :=
      (network.vars.table.get?_isSome_iff variableId).mp (Option.isSome_of_mem isEntry)
    by_cases declared : variableId < start.vars.size
    · have visible := Directory.keyOf?_isSome_of_get? ((built.get?_eq declared).symm.trans isEntry)
      rw [named, unknown] at visible
      cases visible
    · obtain ⟨attempt, generated⟩ := built.generated (Nat.le_of_not_lt declared) inside
      cases isEntry.symm.trans generated
      exact ⟨variableId, attempt, named.symm⟩

end Model

namespace Request

variable {request : Request} {start : Model} {name : String}

/-- A declared name is checked and looked up before anything happens. -/
theorem exists_addVariable (declares : request.declares? = some name) :
    ∃ domain, ∀ model outcome after, Gives (addVariable name domain) model outcome after →
      Gives request.answer model (outcome.map some) after := by
  have answered : ∀ {step : Build VariableId} {model outcome after},
      Gives step model outcome after → Gives (some <$> step) model (outcome.map some) after := by
    intro step model outcome after gives
    rw [map_eq_pure_bind]
    cases outcome with
    | error refusal => exact gives.bind_error
    | ok result => exact gives.bind (Gives.pure _)
  cases request with
  | declare other domain =>
    cases declares
    exact ⟨domain, fun _ _ _ gives => answered gives⟩
  | declareRange other lower upper =>
    cases checked : checkRange lower upper with
    | error error =>
      rw [declares?, checked] at declares
      cases declares
    | ok domain =>
      rw [declares?, checked] at declares
      cases declares
      exact ⟨domain, fun _ _ _ gives => answered ((Gives.check checked).bind gives)⟩
  | _ => cases declares

/-- A name of the network is refused as that of a declared variable, although it could be declared
without the network. -/
theorem gives_of_collides (sound : start.Sound) (declares : request.declares? = some name)
    (known : (start.find? name).isSome) (unknown : start.vars.keyOf? name = none) :
    Gives request.answer start (.error (.invalid (.duplicateVariable name))) start ∧
      ∃ domain, Gives request.answer start.opened (.ok (some start.vars.size))
        { start.opened with vars := start.vars.push { name, domain } } := by
  obtain ⟨domain, answers⟩ := exists_addVariable declares
  obtain ⟨position, attempt, rfl⟩ := sound.exists_generatedName known unknown
  have checked := checkName_generatedName position attempt
  constructor
  · apply answers start (.error _)
    refine (Gives.check checked).bind (Gives.model.bind ?_)
    rw [if_pos known]
    exact (Gives.refuse _).bind_error
  · refine ⟨domain, answers start.opened (.ok _) _ ?_⟩
    refine (Gives.check checked).bind (Gives.model.bind ?_)
    rw [if_neg (by rw [show start.opened.find? _ = none from unknown]; simp)]
    exact gives_invalidate.bind (gives_push _)

end Request

/-- Whether a model has a network makes no difference to a modification, except for the declaration
of a variable by a name that only the network has: it is refused as if the name were declared, and
the model is left as it was. -/
theorem Workspace.Reachable.modifies_alike {prepared bare : Workspace}
    (reachable : prepared.Reachable) (same : bare.model = prepared.model.opened) {request : Request}
    (modifies : request ≠ .prepare) :
    (¬ request.Collides prepared.model →
      (request.answer.run prepared).1 = (request.answer.run bare).1 ∧
        (request.after bare).model = (request.after prepared).model.opened) ∧
    ∀ name, request.declares? = some name → (prepared.model.find? name).isSome →
      prepared.model.vars.keyOf? name = none →
        (request.answer.run prepared).1 = .error (.invalid (.duplicateVariable name)) ∧
      (request.after prepared).model = prepared.model ∧
      (request.answer.run bare).1 = .ok (some prepared.model.vars.size) ∧
      (request.after bare).model.vars.keyOf? name = some prepared.model.vars.size := by
  rw [Request.after_eq, Request.after_eq]
  constructor
  · intro apart
    rcases Request.opens_answer reachable.sound modifies apart
      with ⟨refusal, left, right⟩ | ⟨outcome, after, left, right, unprepared⟩
    · obtain ⟨failed, unchanged⟩ := left prepared rfl
      obtain ⟨failedToo, unchangedToo⟩ := right bare same
      exact ⟨failed.trans failedToo.symm, by rw [unchanged, unchangedToo]⟩
    · obtain ⟨given, changed⟩ := left prepared rfl
      obtain ⟨givenToo, changedToo⟩ := right bare same
      refine ⟨given.trans givenToo.symm, ?_⟩
      rw [changed, changedToo, Model.opened_of_unprepared unprepared]
  · intro name declares known unknown
    obtain ⟨refused, domain, declared⟩ :=
      Request.gives_of_collides reachable.sound declares known unknown
    obtain ⟨failed, unchanged⟩ := refused prepared rfl
    obtain ⟨given, changed⟩ := declared bare same
    refine ⟨failed, unchanged, given, ?_⟩
    rw [changed, Directory.keyOf?_eq_findKey?]
    change (prepared.model.vars.table.push _).findKey? _ = _
    rw [Table.findKey?_push, ← Directory.keyOf?_eq_findKey?, unknown]
    simp [Directory.size]

/-- A sum of three variables, whose result is the variable 3. Once it is prepared, the variable 4 is
the inner sum. -/
def Workspace.sumOfThree : Workspace :=
  .ofRequests
    [.declareRange "A" 0 9, .declareRange "B" 0 9, .declareRange "C" 0 9,
      .declareConstraint .sum [.named "A", .named "B", .named "C"] none]

/-- The sum of three variables is declared from the empty model. -/
theorem Workspace.reachable_sumOfThree : sumOfThree.Reachable :=
  reachable_ofRequests _

/-- The name of the inner sum is taken only if the sum is prepared, while that of the result is
taken anyway. -/
theorem Workspace.modifies_alike_sumOfThree :
    ((Request.declareRange "__4" 0 5).answer.run (Request.prepare.after sumOfThree)).1 =
        .error (.invalid (.duplicateVariable "__4")) ∧
      ((Request.declareRange "__4" 0 5).answer.run
        { model := (Request.prepare.after sumOfThree).model.opened }).1 = .ok (some 4) ∧
      ((Request.declareRange "__3" 0 5).answer.run (Request.prepare.after sumOfThree)).1 =
        ((Request.declareRange "__3" 0 5).answer.run
          { model := (Request.prepare.after sumOfThree).model.opened }).1 := by
  have alike := fun name => @Reachable.modifies_alike (Request.prepare.after sumOfThree)
    { model := (Request.prepare.after sumOfThree).model.opened }
    (reachable_sumOfThree.request .prepare) rfl
    (.declareRange name 0 5) nofun
  have four : (Request.prepare.after sumOfThree).model.vars.size = 4 := by decide +kernel
  obtain ⟨taken, _, free, _⟩ := (alike "__4").2 "__4" rfl (by decide +kernel) (by decide +kernel)
  refine ⟨taken, four ▸ free, ((alike "__3").1 ?_).1⟩
  rintro ⟨_, ⟨rfl⟩, _, unknown⟩
  exact absurd unknown (by decide +kernel)

end ConstraintSearch
