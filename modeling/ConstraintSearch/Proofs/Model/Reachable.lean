import ConstraintSearch.Proofs.Model.Preparing

/-!
# Reachable models

Models are built by requests, each of which succeeds or is refused and in both cases leaves the
workspace as far as it came. Whatever the requests and their order, the model is sound; in
particular the network of a prepared model was built for it.
-/

namespace ConstraintSearch

open Build

/-- A request to the builder of a model. -/
inductive Request
  | declare (name : String) (domain : Domain)
  | declareRange (name : String) (lower upper : Int)
  | declareAnonymous (domain : Domain)
  | declareAnonymousRange (lower upper : Int)
  | declareConstant (value : Int)
  | declareConstraint (operator : Operator) (operands : List Operand) (result : Option Operand)
  | target (targets : Targets)
  | orderBy (order : VariableOrder String)
  | divideBy (strategy : ValueStrategy String)
  | divideVariableBy (name : String) (strategy : ValueStrategy String)
  | prepare

namespace Request

/-- The step of building that the request asks for; its result does not matter here. -/
def step : Request → Build Unit
  | declare name domain => discard (addVariable name domain)
  | declareRange name lower upper => discard (addRange name lower upper)
  | declareAnonymous domain => discard (addAnonymous domain)
  | declareAnonymousRange lower upper => discard (addAnonymousRange lower upper)
  | declareConstant value => discard (addConstant value)
  | declareConstraint operator operands result => discard (addConstraint operator operands result)
  | target targets => setTargets targets
  | orderBy order => setOrder order
  | divideBy strategy => setStrategy strategy
  | divideVariableBy name strategy => setVariableStrategy name strategy
  | prepare => discard ConstraintSearch.prepare

/-- The workspace after the request, whether it was refused or not. -/
def after (request : Request) (workspace : Workspace) : Workspace :=
  (request.step.run workspace).2

end Request

/-- The workspaces that can be reached from an empty one. -/
inductive Workspace.Reachable : Workspace → Prop
  | empty (journal : Journal) : Reachable { journal }
  | request {workspace : Workspace} (reachable : workspace.Reachable) (request : Request) :
    Reachable (request.after workspace)

/-- The workspace after all requests of a list, made one after the other from an empty one. -/
def Workspace.ofRequests (requests : List Request) : Workspace :=
  requests.foldl (fun workspace request => request.after workspace) {}

/-- Requests lead from the empty model to reachable workspaces. -/
theorem Workspace.reachable_ofRequests (requests : List Request) :
    (ofRequests requests).Reachable := by
  have reaches : ∀ (requests : List Request) (workspace : Workspace), workspace.Reachable →
      (requests.foldl (fun workspace request => request.after workspace) workspace).Reachable := by
    intro requests
    induction requests with
    | nil => exact fun workspace reachable => reachable
    | cons first rest inductionHypothesis =>
      exact fun workspace reachable =>
        inductionHypothesis (first.after workspace) (.request reachable first)
  exact reaches requests {} (.empty {})

/-- The empty model is sound. -/
theorem Model.sound_empty : ({} : Model).Sound where
  wellFormed _ inside := by cases inside
  inside _ inside := by cases inside
  truth _ inside := by cases inside
  constants_lt _ _ inside := by cases inside
  strategy_plain := rfl
  built _ found := by cases found

/-- A step whose result is not used keeps models sound. -/
theorem ensures_discard {α : Type} {before : Model → Prop} {step : Build α}
    {after : α → Model → Prop} (ensures : Ensures before step after) :
    Ensures before (discard step) fun _ _ => True := by
  change Ensures before (Functor.map (Function.const α ()) step) _
  rw [map_eq_pure_bind]
  exact ensures.bind fun _ => Ensures.pure _ fun _ _ => trivial

/-- A setting that is not part of any constraint. -/
theorem ensures_setting {change : Model → Model}
    (keeps : ∀ model : Model, model.Sound → model.network = none → (change model).Sound) :
    Ensures (fun _ => True) (do invalidate; update change) fun _ _ => True :=
  ensures_invalidate.bind fun _ =>
    Ensures.update (fun model sound unprepared => keeps model sound unprepared.1) fun _ _ _ =>
      trivial

/-- Every request keeps the model sound. -/
theorem ensures_step (request : Request) :
    Ensures (fun _ => True) request.step fun _ _ => True := by
  cases request with
  | declare name domain => exact ensures_discard (ensures_addVariable name domain)
  | declareRange name lower upper => exact ensures_discard (ensures_addRange name lower upper)
  | declareAnonymous domain => exact ensures_discard (ensures_addAnonymous domain)
  | declareAnonymousRange lower upper =>
    exact ensures_discard (ensures_addAnonymousRange lower upper)
  | declareConstant value => exact ensures_discard (ensures_addConstant value)
  | declareConstraint operator operands result =>
    exact ensures_discard (ensures_addConstraint operator operands result)
  -- Of the settings only the strategies matter to soundness; the prepared network was dropped
  -- before they are written.
  | target targets =>
    apply ensures_setting
    intro model sound unprepared
    refine ⟨sound.wellFormed, sound.inside, sound.truth, sound.constants_lt, sound.strategy_plain,
      fun network found => ?_⟩
    exact absurd found (by simp [unprepared])
  | orderBy order =>
    apply ensures_setting
    intro model sound unprepared
    refine ⟨sound.wellFormed, sound.inside, sound.truth, sound.constants_lt, sound.strategy_plain,
      fun network found => ?_⟩
    exact absurd found (by simp [unprepared])
  | divideBy strategy =>
    rw [Request.step, setStrategy]
    dsimp only
    split
    · exact Ensures.refuse_bind _ _
    · rename_i plain
      apply ensures_setting
      intro model sound unprepared
      refine ⟨sound.wellFormed, sound.inside, sound.truth, sound.constants_lt,
        Bool.eq_false_iff.mpr plain, fun network found => ?_⟩
      exact absurd found (by simp [unprepared])
  | divideVariableBy name strategy =>
    refine ensures_invalidate.bind fun _ =>
      (ensures_lookup (fun _ => True) name).imp ?_ (fun _ _ => id) |>.bind fun variableId => ?_
    · exact fun _ unprepared => ⟨unprepared.1, trivial⟩
    · refine Ensures.update ?_ fun _ _ _ => trivial
      rintro model sound ⟨_, unprepared, _⟩
      exact sound.modify unprepared variableId ({ · with strategy := some strategy }) (fun _ => rfl)
        fun _ _ => Domain.Subset.refl _
  | prepare =>
    intro workspace sound _
    have prepares := (ensures_prepare workspace.model).imp (fun _ => id) fun _ _ _ => trivial
    exact ensures_discard prepares workspace sound rfl

/-- Every reachable model is sound. -/
theorem Workspace.Reachable.sound {workspace : Workspace} (reachable : workspace.Reachable) :
    workspace.model.Sound := by
  induction reachable with
  | empty journal => exact Model.sound_empty
  | request _ request inductionHypothesis =>
    exact (ensures_step request _ inductionHypothesis trivial).1

/-- The network of a prepared model was built for it. -/
theorem Workspace.Reachable.builtFor {workspace : Workspace} {network : Network}
    (reachable : workspace.Reachable) (prepared : workspace.model.network = some network) :
    network.BuiltFor workspace.model :=
  reachable.sound.built network prepared

/-- The network that preparing gives was built for the model. -/
theorem Workspace.Reachable.builtFor_of_prepare {workspace : Workspace} {network : Network}
    (reachable : workspace.Reachable) (prepared : (prepare.run workspace).1 = .ok network) :
    network.BuiltFor workspace.model := by
  obtain ⟨sound, outcome⟩ := ensures_prepare workspace.model workspace reachable.sound rfl
  rw [outcome network prepared] at sound
  exact (sound.built network rfl).onTop workspace.model.network

/-- Without Markov strategies, preparing gives a network without any. -/
theorem Workspace.Reachable.isMarkov_eq_false {workspace : Workspace} {network : Network}
    (reachable : workspace.Reachable) (prepared : (prepare.run workspace).1 = .ok network)
    (unweighted : ∀ variableId, workspace.model.isMarkov variableId = false)
    (variableId : VariableId) : network.isMarkov variableId = false := by
  rw [(reachable.builtFor_of_prepare prepared).isMarkov_eq]
  cases former : workspace.model.network with
  | none =>
    have plain := unweighted variableId
    rwa [Model.isMarkov, Model.allVariables, former] at plain
  | some other =>
    have built := reachable.builtFor former
    rw [← built.isMarkov_eq]
    exact built.isMarkov_eq_false former unweighted variableId

end ConstraintSearch
