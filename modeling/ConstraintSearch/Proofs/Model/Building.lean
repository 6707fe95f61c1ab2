import ConstraintSearch.Model.Build
import ConstraintSearch.Proofs.Network.Built

/-!
# Models that are built soundly

`Model.Sound` holds of every model that is built step by step: its constraints are well-formed and
about declared variables, results of reified comparisons are truth values, and a network, if there
is one, was built for the model. The steps keep this whether they succeed or are refused, which
`Build.Ensures` builds into the specification of a step.
-/

namespace ConstraintSearch

/-- What holds of every model that was built step by step. -/
structure Model.Sound (model : Model) : Prop where
  wellFormed : ∀ constraint ∈ model.constraints.toList, constraint.WellFormed
  inside : ∀ constraint ∈ model.constraints.toList, ∀ variableId ∈ constraint.scope,
    variableId < model.vars.size
  truth : ∀ constraint ∈ model.constraints.toList, ∀ result,
    constraint.truthVariable? = some result → model.vars.domainOf result ⊆ .range 0 1
  constants_lt : ∀ value variableId, (value, variableId) ∈ model.constants →
    variableId < model.vars.size
  strategy_plain : model.strategy.isMarkov = false
  built : ∀ network, model.network = some network → network.BuiltFor model

/-- The model has no network and at least as many variables as given. -/
def Model.Open (count : Nat) (model : Model) : Prop :=
  model.network = none ∧ count ≤ model.vars.size

namespace Directory

/-- A pushed variable goes to the first free position. -/
theorem get?_push (vars : Variables) (entry : Variable) (variableId : VariableId) :
    (vars.push entry).get? variableId = if variableId = vars.size then some entry
      else vars.get? variableId :=
  Table.get?_push ..

theorem size_push (vars : Variables) (entry : Variable) : (vars.push entry).size = vars.size + 1 :=
  Table.size_push ..

/-- The variables that are there keep their domains. -/
theorem domainOf_push_of_lt {vars : Variables} (entry : Variable) {variableId : VariableId}
    (inside : variableId < vars.size) :
    (vars.push entry).domainOf variableId = vars.domainOf variableId := by
  rw [domainOf, get?_push, if_neg (Nat.ne_of_lt inside), domainOf]

/-- The new variable has the given domain. -/
theorem domainOf_pushAnonymous_size (vars : Variables) (domain : Domain) :
    (vars.pushAnonymous domain).domainOf vars.size = domain := by
  rw [domainOf, pushAnonymous, get?_push, if_pos rfl]
  rfl

theorem size_modify (vars : Variables) (key : Nat) (change : Variable → Variable)
    (keeps : ∀ entry, (change entry).name = entry.name) :
    (vars.modify key change keeps).size = vars.size :=
  Table.size_modify ..

/-- A change reaches just the variable at its position. -/
theorem get?_modify (vars : Variables) (key : Nat) (change : Variable → Variable)
    (keeps : ∀ entry, (change entry).name = entry.name) (variableId : VariableId) :
    (vars.modify key change keeps).get? variableId =
      if key = variableId then (vars.get? variableId).map change else vars.get? variableId :=
  Table.get?_modify ..

/-- Only the changed variable may have another domain. -/
theorem domainOf_modify (vars : Variables) (key : Nat) (change : Variable → Variable)
    (keeps : ∀ entry, (change entry).name = entry.name) (variableId : VariableId) :
    (vars.modify key change keeps).domainOf variableId =
      if key = variableId then ((vars.get? variableId).map fun entry =>
        (change entry).domain).getD ∅
      else vars.domainOf variableId := by
  rw [domainOf, get?_modify]
  split
  · rw [Option.map_map]
    rfl
  · rfl

/-- Only the domains of variables have values. -/
theorem exists_get?_of_mem_domainOf {vars : Variables} {variableId : VariableId} {value : Int}
    (member : value ∈ vars.domainOf variableId) :
    ∃ entry, vars.get? variableId = some entry ∧ vars.domainOf variableId = entry.domain := by
  cases found : vars.get? variableId with
  | none =>
    rw [domainOf, found] at member
    exact absurd member Domain.not_mem_empty
  | some entry => exact ⟨entry, rfl, by rw [domainOf, found]; rfl⟩

/-- A variable that was found by its name exists. -/
theorem lt_size_of_keyOf? {vars : Variables} {name : String} {variableId : VariableId}
    (found : vars.keyOf? name = some variableId) : variableId < vars.size := by
  rw [keyOf?_eq_findKey?, Table.findKey?, Array.findIdx?_eq_some_iff_getElem] at found
  exact found.1

/-- A pushed entry comes last. -/
theorem toList_push {α κ : Type} [Ord κ] [DecidableEq κ] [Std.TransOrd κ] [Std.LawfulEqOrd κ]
    {label : α → κ} (directory : Directory α label) (entry : α) :
    (directory.push entry).toList = directory.toList ++ [entry] :=
  Array.toList_push

end Directory

namespace Model.Sound

variable {model : Model}

/-- Dropping the network keeps a model sound. -/
theorem withoutNetwork (sound : model.Sound) : ({ model with network := none } : Model).Sound where
  wellFormed := sound.wellFormed
  inside := sound.inside
  truth := sound.truth
  constants_lt := sound.constants_lt
  strategy_plain := sound.strategy_plain
  built _ found := by cases found

/-- A further variable is not part of any constraint yet. -/
theorem push (sound : model.Sound) (unprepared : model.network = none) (entry : Variable) :
    ({ model with vars := model.vars.push entry } : Model).Sound where
  wellFormed := sound.wellFormed
  inside constraint member variableId reads := by
    rw [Directory.size_push]
    exact Nat.lt_succ_of_lt (sound.inside constraint member variableId reads)
  truth constraint member result isTruth := by
    have reads := Constraint.mem_scope_of_truthVariable? isTruth
    rw [Directory.domainOf_push_of_lt entry (sound.inside constraint member result reads)]
    exact sound.truth constraint member result isTruth
  constants_lt value variableId member := by
    rw [Directory.size_push]
    exact Nat.lt_succ_of_lt (sound.constants_lt value variableId member)
  strategy_plain := sound.strategy_plain
  built network found := by
    rw [unprepared] at found
    cases found

/-- A variable may be changed as long as its domain does not grow. -/
theorem modify (sound : model.Sound) (unprepared : model.network = none) (key : Nat)
    (change : Variable → Variable) (keeps : ∀ entry, (change entry).name = entry.name)
    (subset : ∀ entry, model.vars.get? key = some entry → (change entry).domain ⊆ entry.domain) :
    ({ model with vars := model.vars.modify key change keeps } : Model).Sound where
  wellFormed := sound.wellFormed
  inside constraint member variableId reads := by
    rw [Directory.size_modify]
    exact sound.inside constraint member variableId reads
  truth constraint member result isTruth := by
    refine Domain.Subset.trans ?_ (sound.truth constraint member result isTruth)
    rw [Directory.domainOf_modify]
    split
    · rename_i same
      subst same
      rw [Directory.domainOf]
      cases found : model.vars.get? key with
      | none => exact Domain.Subset.refl _
      | some entry => exact subset entry found
    · exact Domain.Subset.refl _
  constants_lt value variableId member := by
    rw [Directory.size_modify]
    exact sound.constants_lt value variableId member
  strategy_plain := sound.strategy_plain
  built network found := by
    rw [unprepared] at found
    cases found

/-- A well-formed constraint over variables of the model keeps it sound, unless the model is
prepared. -/
theorem pushConstraint (sound : model.Sound) (unprepared : model.network = none)
    {constraint : Constraint} (wellFormed : constraint.WellFormed)
    (inside : ∀ variableId ∈ constraint.scope, variableId < model.vars.size)
    (truth : ∀ result, constraint.truthVariable? = some result →
      model.vars.domainOf result ⊆ .range 0 1) :
        ({ model with constraints := model.constraints.push constraint } : Model).Sound := by
  have members : ∀ {property : Constraint → Prop}, property constraint →
      (∀ other ∈ model.constraints.toList, property other) →
        ∀ other ∈ (model.constraints.push constraint).toList, property other := by
    intro property new former other member
    rw [Directory.toList_push] at member
    rcases List.mem_append.mp member with before | added
    · exact former other before
    · rwa [List.mem_singleton.mp added]
  refine ⟨members wellFormed sound.wellFormed, members inside sound.inside,
    members truth sound.truth, sound.constants_lt, sound.strategy_plain, fun network found => ?_⟩
  rw [unprepared] at found
  cases found

end Model.Sound

/-! ### Specifications of steps -/

namespace Build

/-- What a sequence of two steps comes to. -/
theorem run_bind {α β : Type} (step : Build α) (next : α → Build β) (workspace : Workspace) :
    (step >>= next).run workspace =
      match step.run workspace with
      | (.ok result, middle) => (next result).run middle
      | (.error refusal, middle) => (.error refusal, middle) := by
  change ExceptT.bindCont next (step.run workspace).1 (step.run workspace).2 = _
  rcases step.run workspace with ⟨refusal | result, middle⟩ <;> rfl

/-- A result that is not used makes no difference. -/
theorem run_discard {α : Type} (step : Build α) (workspace : Workspace) :
    ((Functor.discard step).run workspace).2 = (step.run workspace).2 := by
  change ((Functor.map (Function.const α ()) step : Build Unit).run workspace).2 = _
  rw [map_eq_pure_bind, run_bind]
  rcases step.run workspace with ⟨refusal | result, after⟩ <;> rfl

/-- From a sound model with the first property, the step leaves a sound model, and if it succeeds,
its result and the model have the second property. -/
def Ensures {α : Type} (before : Model → Prop) (step : Build α) (after : α → Model → Prop) : Prop :=
  ∀ workspace : Workspace, workspace.model.Sound → before workspace.model →
    (step.run workspace).2.model.Sound ∧
      ∀ result, (step.run workspace).1 = .ok result → after result (step.run workspace).2.model

namespace Ensures

variable {α β : Type} {before : Model → Prop}

/-- A result may be returned if the condition on it holds. -/
theorem pure {after : α → Model → Prop} (result : α)
    (holds : ∀ model, before model → after result model) :
    Ensures before (Pure.pure result : Build α) after := by
  intro workspace sound start
  refine ⟨sound, ?_⟩
  rintro _ ⟨rfl⟩
  exact holds _ start

/-- What the first step ensures is what the second one starts from. -/
theorem bind {step : Build α} {next : α → Build β} {between : α → Model → Prop}
    {after : β → Model → Prop} (first : Ensures before step between)
    (second : ∀ result, Ensures (between result) (next result) after) :
    Ensures before (step >>= next) after := by
  intro workspace sound start
  obtain ⟨middleSound, middle⟩ := first workspace sound start
  rw [run_bind]
  rcases ran : step.run workspace with ⟨refusal | result, rest⟩ <;> rw [ran] at middleSound middle
  · exact ⟨middleSound, fun _ failed => by cases failed⟩
  · exact second result rest middleSound (middle result rfl)

/-- A specification may start from more and end in less. -/
theorem imp {step : Build α} {stronger : Model → Prop} {after weaker : α → Model → Prop}
    (ensures : Ensures before step after) (pre : ∀ model, stronger model → before model)
    (post : ∀ result model, after result model → weaker result model) :
    Ensures stronger step weaker := by
  intro workspace sound start
  obtain ⟨finalSound, holds⟩ := ensures workspace sound (pre _ start)
  exact ⟨finalSound, fun result succeeded => post _ _ (holds result succeeded)⟩

/-- A refusal ensures anything, since there is no result. -/
theorem throw {after : α → Model → Prop} (refusal : Refusal) :
    Ensures before (MonadExcept.throw refusal : Build α) after := by
  intro workspace sound _
  exact ⟨sound, fun _ failed => by cases failed⟩

/-- So does a refusal by an error of the model. -/
theorem refuse {after : α → Model → Prop} (error : ModelError) :
    Ensures before (Build.refuse error : Build α) after :=
  throw _

/-- Nothing happens behind a refusal. -/
theorem refuse_bind {after : β → Model → Prop} (error : ModelError) (next : α → Build β) :
    Ensures before (Build.refuse error >>= next) after := by
  have never : Ensures before (Build.refuse error : Build α) fun _ _ => False := refuse error
  exact never.bind fun _ _ _ impossible => impossible.elim

/-- Reading the model ensures that it is the one at hand. -/
theorem model : Ensures before Build.model fun seen model => seen = model ∧ before model := by
  intro workspace sound start
  refine ⟨sound, ?_⟩
  rintro _ ⟨rfl⟩
  exact ⟨rfl, start⟩

/-- A change ensures what holds of the changed model, if it keeps models sound. -/
theorem update {change : Model → Model} {after : Model → Prop}
    (sound : ∀ model, model.Sound → before model → (change model).Sound)
    (holds : ∀ model, model.Sound → before model → after (change model)) :
    Ensures before (Build.update change) fun _ => after := by
  intro workspace start starts
  exact ⟨sound _ start starts, fun _ _ => holds _ start starts⟩

/-- Reporting an event ensures what held before. -/
theorem report (event : Event) : Ensures before (Build.report event) fun _ => before := by
  intro workspace sound start
  exact ⟨sound, fun _ _ => start⟩

/-- A check that passes ensures that its result is the checked one. -/
theorem check (checked : Except ModelError α) :
    Ensures before (Build.check checked) fun result model =>
      checked = .ok result ∧ before model := by
  cases checked with
  | ok result => exact pure result fun _ holds => ⟨rfl, holds⟩
  | error error => exact refuse error

/-- A demand that is met ensures what held before. -/
theorem demand (demanded : Except Fault α) :
    Ensures before (Build.demand demanded) fun _ => before := by
  cases demanded with
  | ok result => exact pure result fun _ holds => holds
  | error fault => exact throw _

/-- Assumptions that do not depend on the model can be used for the step. -/
theorem assume {step : Build α} {after : α → Model → Prop} {fact : Prop}
    (ensures : fact → Ensures before step after) :
    Ensures (fun model => fact ∧ before model) step after := by
  rintro workspace sound ⟨holds, start⟩
  exact ensures holds workspace sound start

/-- What a step starts from may be given by a witness. -/
theorem assumeExists {ι : Type} {step : Build α} {starts : ι → Model → Prop}
    {after : α → Model → Prop} (ensures : ∀ witness, Ensures (starts witness) step after) :
    Ensures (fun model => ∃ witness, starts witness model) step after := by
  rintro workspace sound ⟨witness, start⟩
  exact ensures witness workspace sound start

end Ensures

end Build

end ConstraintSearch
