import ConstraintSearch.Proofs.Model.Deciding
import ConstraintSearch.Proofs.Model.Representation
import ConstraintSearch.Proofs.Network.Favours
import ConstraintSearch.Proofs.Network.Sorted

/-!
# Models that can be prepared

A reachable model can be prepared exactly if it is well posed (`Model.WellPosed`): the names in its
order, its strategies and its targets are declared, no list of values falls back to a matrix, and
the matrices have weights that can be drawn from. Its network is then made of the same declarations,
in which every name has become the variable with that name. The strategies that variables have of
their own are independent of one another, so they may be resolved in any order (`prepareAlong`).
-/

namespace ConstraintSearch

open Build

/-! ### What preparing asks for -/

namespace Model

/-- The variable is declared with the name. -/
def HasName (model : Model) (name : String) (variableId : VariableId) : Prop :=
  ∃ entry, model.vars.get? variableId = some entry ∧ entry.name = name

/-- Some variable is declared with the name. -/
def Knows (model : Model) (name : String) : Prop :=
  ∃ variableId, model.HasName name variableId

/-- The strategy that a declared variable has of its own, if there is one. -/
def ownStrategy? (model : Model) (variableId : VariableId) : Option (ValueStrategy String) :=
  (model.vars.get? variableId).bind Variable.strategy

/-- The declared variables that have a strategy of their own. -/
def owners (model : Model) : List VariableId :=
  model.vars.table.keys.filter fun variableId => (model.ownStrategy? variableId).isSome

/-- The strategies that variables have of their own are well posed, with declared names for
guards. -/
def StrategiesPosed (model : Model) : Prop :=
  ∀ variableId own, model.ownStrategy? variableId = some own → own.WellPosed model.Knows

/-- Every listed, guarding and targeted name is declared, no list of values falls back to a matrix,
and every matrix can be drawn from. -/
structure WellPosed (model : Model) : Prop where
  listed : ∀ names inverted, .list names inverted ∈ model.order.criteria → ∀ name ∈ names,
    model.Knows name
  fallbacks : ∀ values fallback, .list values fallback ∈ model.strategy.levels →
    fallback.isMarkov = false
  strategies : model.StrategiesPosed
  targeted : ∀ names, model.targets = .named names → ∀ name ∈ names, model.Knows name

/-- The variable with the name; any variable if there is none. -/
def variableNamed (model : Model) (name : String) : VariableId :=
  (model.find? name).getD 0

/-- The strategy that a declared variable has of its own, with the variables of the names in it. -/
def ownResolved? (model : Model) (variableId : VariableId) : Option (ValueStrategy VariableId) :=
  (model.ownStrategy? variableId).map (ValueStrategy.map model.variableNamed)

/-- The strategies of the declared variables, with the variables of the names in them. -/
def resolvedStrategies (model : Model) : Table (Option (ValueStrategy VariableId)) :=
  .ofList (model.vars.table.keys.map model.ownResolved?)

/-- The network of the declarations, with the variables of the names in them. -/
def compiled (model : Model) : Network :=
  .build model.vars model.constraints.toList (model.targets.variables model.variableNamed)
    (model.order.map model.variableNamed) (model.strategy.map model.variableNamed)
    model.resolvedStrategies

end Model

/-! ### Preparing in another order -/

namespace Model

/-- The network of the model, with the strategies that variables have of their own, and their
propagators, resolved in the given way. -/
def assemble (model : Model)
    (resolveOwn : Build (Table (Option (ValueStrategy VariableId)) × List Propagator)) :
    Build Network := do
      let order ← model.order.resolve
      let strategy ← model.strategy.resolve "*"
      let (strategies, weighted) ← resolveOwn
      let targeted ← model.targets.resolve
      return (Network.build model.vars model.constraints.toList targeted order strategy ∅).weigh
        strategies weighted

/-- Resolves the strategies of the declared variables one after the other. -/
def resolveInOrder (model : Model) :
    Build (Table (Option (ValueStrategy VariableId)) × List Propagator) := do
      let strategies ← model.vars.toList.mapM fun entry =>
          entry.strategy.mapM (ValueStrategy.resolve entry.name)
      return (.ofList strategies, Network.markovPropagators (.ofList strategies))

/-- Resolves the strategy of a variable. -/
def resolveOwn (model : Model) (variableId : VariableId) :
    Build (VariableId × Option (ValueStrategy VariableId)) := do
      return (variableId, ← (model.ownStrategy? variableId).mapM
        (ValueStrategy.resolve (model.vars.nameOf variableId)))

/-- Resolves the strategies of the visited variables. The table looks them up, and the propagators
are sorted. -/
def resolveAlong (visits : List VariableId) (model : Model) :
    Build (Table (Option (ValueStrategy VariableId)) × List Propagator) := do
  let entries ← visits.mapM model.resolveOwn
  let strategies :=
    .ofList (model.vars.table.keys.map fun variableId => (entries.lookup variableId).join)
  return (strategies, Network.sortedPropagators entries)

end Model

/-- Prepares a model, with the strategies that variables have of their own resolved in the given
way. -/
def prepareBy (resolveOwn : Model →
    Build (Table (Option (ValueStrategy VariableId)) × List Propagator)) : Build Network := do
      let model ← Build.model
      match model.network with
      | some network => pure network
      | none =>
        let network ← model.assemble (resolveOwn model)
        report (.modelPrepared network.vars.size network.declared model.constraints.size
          network.propagators.size)
        update fun model => { model with network := some network }
        pure network

/-- Prepares a model, with the variables that have a strategy of their own visited in the given
order. -/
def prepareAlong (visits : List VariableId) : Build Network :=
  prepareBy (Model.resolveAlong visits)

/-- Preparing is preparing with the strategies resolved in order. -/
theorem prepare_eq : prepare = prepareBy Model.resolveInOrder := by
  refine bind_congr fun model => ?_
  cases model.network with
  | some network => rfl
  | none =>
    simp only [Model.assemble, Model.resolveInOrder, bind_assoc, pure_bind,
      ← Network.build_eq_weigh]

/-! ### Names -/

namespace Model

variable {model : Model}

/-- Without a network the declared variables are the ones that names are looked up among. -/
theorem find?_eq_keyOf? (unprepared : model.network = none) (name : String) :
    model.find? name = model.vars.keyOf? name := by
  rw [find?, allVariables, unprepared, Option.elim_none]

/-- A name is found just if it is that of some variable. -/
theorem find?_isSome_iff (unprepared : model.network = none) (name : String) :
    (model.find? name).isSome ↔ model.Knows name := by
  rw [find?_eq_keyOf? unprepared]
  constructor
  · intro found
    obtain ⟨variableId, isKey⟩ := Option.isSome_iff_exists.mp found
    exact ⟨variableId, Directory.exists_get?_of_keyOf? isKey⟩
  · rintro ⟨variableId, entry, found, rfl⟩
    exact Directory.keyOf?_isSome_of_get? found

/-- A known name is that of the variable which is found by it. -/
theorem hasName_variableNamed (unprepared : model.network = none) {name : String}
    (known : model.Knows name) : model.HasName name (model.variableNamed name) := by
  obtain ⟨variableId, found⟩ :=
    Option.isSome_iff_exists.mp ((find?_isSome_iff unprepared name).mpr known)
  rw [variableNamed, found]
  exact Directory.exists_get?_of_keyOf? (find?_eq_keyOf? unprepared name ▸ found)

/-- Names are looked up among the declared ones. -/
theorem decides_lookup (unprepared : model.network = none) (name : String) :
    Decides model (lookup name) (model.Knows name) (model.variableNamed name) :=
  (Decides.lookup name).imp (find?_isSome_iff unprepared name)

/-! ### Strategies of single variables -/

/-- The strategies in the order of the variables. -/
theorem map_ownStrategy? {α : Type} (image : Option (ValueStrategy String) → α) :
    (model.vars.table.keys.map fun variableId => image (model.ownStrategy? variableId)) =
      model.vars.toList.map fun entry => image entry.strategy := by
  apply List.ext_getElem?
  intro place
  have placed : model.vars.toList[place]? = model.vars.get? place := Array.getElem?_toList
  rw [List.getElem?_map, List.getElem?_map, placed, Table.keys]
  cases found : model.vars.get? place with
  | none =>
    rw [List.getElem?_eq_none (by simpa using (Table.get?_eq_none_iff _ _).mp found)]
    rfl
  | some entry =>
    rw [List.getElem?_range ((Table.get?_isSome_iff _ _).mp (Option.isSome_of_mem found)),
      Option.map_some, ownStrategy?, found]
    rfl

/-- Resolving the strategies in order is refused just if one of them is not well posed. -/
theorem decides_resolveInOrder (unprepared : model.network = none) :
    Decides model model.resolveInOrder model.StrategiesPosed
      (model.resolvedStrategies, Network.markovPropagators model.resolvedStrategies) := by
  have each := Decides.mapM model.vars.toList fun entry _ =>
    Decides.optionMapM entry.strategy
      (Decides.resolveStrategy (decides_lookup unprepared) entry.name)
  rw [← map_ownStrategy? (Option.map (ValueStrategy.map model.variableNamed))] at each
  refine (each.map fun strategies =>
    (Table.ofList strategies, Network.markovPropagators (.ofList strategies))).imp ?_
  refine ⟨fun all variableId own isOwn => ?_, fun all entry inside own isOwn => ?_⟩
  · obtain ⟨entry, found, isStrategy⟩ := Option.bind_eq_some_iff.mp isOwn
    exact all entry (Table.mem_toList_iff.mpr ⟨variableId, found⟩) own isStrategy
  · obtain ⟨variableId, found⟩ := Table.mem_toList_iff.mp inside
    exact all variableId own (Option.bind_eq_some_iff.mpr ⟨entry, found, isOwn⟩)

/-- The owners are the variables that have a strategy of their own. -/
theorem mem_owners {variableId : VariableId} :
    variableId ∈ model.owners ↔ (model.ownStrategy? variableId).isSome := by
  rw [owners, List.mem_filter, and_iff_right_iff_imp]
  intro owns
  obtain ⟨own, isOwn⟩ := Option.isSome_iff_exists.mp owns
  obtain ⟨entry, found, -⟩ := Option.bind_eq_some_iff.mp isOwn
  exact List.mem_range.mpr ((Table.get?_isSome_iff _ _).mp (Option.isSome_of_mem found))

/-- Looking the variables up among visited ones finds the strategies of all, if none with a strategy
was left out. -/
theorem map_lookup_eq {visits : List VariableId} (every : visits.Perm model.owners) :
    (model.vars.table.keys.map fun variableId =>
      ((visits.map fun visit => (visit, model.ownResolved? visit)).lookup variableId).join) =
        model.vars.table.keys.map model.ownResolved? := by
  refine List.map_congr_left fun variableId _ => ?_
  by_cases visit : variableId ∈ visits
  · rw [List.lookup_graph model.ownResolved? visit, Option.join_some]
  · have unvisited : (visits.map fun visit => (visit, model.ownResolved? visit)).lookup variableId =
        none := by
      rw [List.lookup_eq_none_iff]
      rintro _ inside
      obtain ⟨other, isVisit, rfl⟩ := List.mem_map.mp inside
      exact bne_iff_ne.mpr fun (same : variableId = other) => visit (same ▸ isVisit)
    have unowned : model.ownStrategy? variableId = none := by
      simpa using mt (every.mem_iff.trans mem_owners).mpr visit
    rw [unvisited, ownResolved?, unowned]
    rfl

/-- The order in which the strategies are resolved does not matter. -/
theorem decides_resolveAlong (unprepared : model.network = none) {visits : List VariableId}
    (every : visits.Perm model.owners) :
    Decides model (model.resolveAlong visits) model.StrategiesPosed
      (model.resolvedStrategies, Network.markovPropagators model.resolvedStrategies) := by
  have sorted : Network.sortedPropagators (visits.map fun visit =>
      (visit, model.ownResolved? visit)) = Network.markovPropagators model.resolvedStrategies := by
    apply Network.sortedPropagators_eq
    simp only [ownResolved?, Option.isSome_map]
    exact every
  have each := Decides.mapM visits fun variableId _ =>
    (Decides.optionMapM (model.ownStrategy? variableId)
      (Decides.resolveStrategy (decides_lookup unprepared) (model.vars.nameOf variableId))).map
      (Prod.mk variableId)
  have posed : (∀ variableId ∈ visits, ∀ own, model.ownStrategy? variableId = some own →
      own.WellPosed model.Knows) ↔ model.StrategiesPosed := by
    refine ⟨fun all variableId own isOwn => ?_, fun all variableId _ => all variableId⟩
    exact all variableId (every.mem_iff.mpr (mem_owners.mpr (Option.isSome_of_mem isOwn))) own isOwn
  rw [← sorted, resolvedStrategies, ← map_lookup_eq every]
  exact (each.map fun entries =>
    (Table.ofList (model.vars.table.keys.map fun variableId => (entries.lookup variableId).join),
      Network.sortedPropagators entries)).imp posed

/-! ### Networks -/

/-- The step gives the model its network if the model is well posed, and otherwise is refused and
leaves the model as it is. -/
def PreparedBy (model : Model) (step : Build Network) : Prop :=
  (model.WellPosed ∧ Gives step model (.ok model.compiled)
    { model with network := some model.compiled }) ∨ ¬ model.WellPosed ∧ ∃ error,
      Gives step model (.error (.invalid error)) model

/-- However the strategies are resolved, preparing is refused just if the model is not well posed,
and otherwise comes to the same network. -/
theorem preparedBy_prepareBy (unprepared : model.network = none)
    (plain : model.strategy.isMarkov = false)
    {resolveOwn : Model → Build (Table (Option (ValueStrategy VariableId)) × List Propagator)}
    (own : Decides model (resolveOwn model) model.StrategiesPosed
      (model.resolvedStrategies, Network.markovPropagators model.resolvedStrategies)) :
    model.PreparedBy (prepareBy resolveOwn) := by
  have names := decides_lookup unprepared
  have assembled : Decides model (model.assemble (resolveOwn model)) model.WellPosed
      model.compiled := by
    rw [compiled, Network.build_eq_weigh]
    refine ((Decides.resolveOrder names model.order).bind
      ((Decides.resolveStrategy names "*" model.strategy).bind
        (own.bind ((Decides.resolveTargets names model.targets).map _)))).imp ?_
    constructor
    · rintro ⟨listed, strategy, strategies, targeted⟩
      exact ⟨listed, strategy.fallbacks, strategies, targeted⟩
    · rintro ⟨listed, fallbacks, strategies, targeted⟩
      refine ⟨listed, ⟨fallbacks, ?_⟩, strategies, targeted⟩
      rintro matrix isMarkov
      rw [isMarkov] at plain
      cases plain
  have start : ∀ {outcome : Except Refusal Network} {after : Model}, Gives (do
      let network ← model.assemble (resolveOwn model)
      report (.modelPrepared network.vars.size network.declared model.constraints.size
        network.propagators.size)
      update fun model => { model with network := some network }
      pure network) model outcome after → Gives (prepareBy resolveOwn) model outcome after := by
    intro outcome after gives
    apply Gives.model.bind
    rw [unprepared]
    exact gives
  rcases assembled with ⟨posed, gives⟩ | ⟨flawed, error, gives⟩
  · exact .inl ⟨posed,
      start (gives.bind ((Gives.report _).bind ((Gives.update _).bind (Gives.pure _))))⟩
  · exact .inr ⟨flawed, error, start gives.bind_error⟩

/-- This is so if the strategies are resolved in the order of the variables. -/
theorem preparedBy_prepare (unprepared : model.network = none)
    (plain : model.strategy.isMarkov = false) : model.PreparedBy prepare :=
  prepare_eq ▸ preparedBy_prepareBy unprepared plain (decides_resolveInOrder unprepared)

/-- It is so as well if the owners are visited in any other order. -/
theorem preparedBy_prepareAlong (unprepared : model.network = none)
    (plain : model.strategy.isMarkov = false) {visits : List VariableId}
    (every : visits.Perm model.owners) : model.PreparedBy (prepareAlong visits) :=
  preparedBy_prepareBy unprepared plain (decides_resolveAlong unprepared every)

end Model

/-! ### What the names refer to -/

/-- If no list falls back to a matrix, then a strategy with a matrix is the matrix itself. -/
theorem ValueStrategy.eq_markov_of_mem_levels {Guard : Type} {strategy : ValueStrategy Guard}
    {matrix : MarkovMatrix Guard}
    (fallbacks : ∀ values fallback, .list values fallback ∈ strategy.levels →
      fallback.isMarkov = false) (inside : .markov matrix ∈ strategy.levels) :
        strategy = .markov matrix := by
  induction strategy with
  | list values fallback inductionHypothesis =>
    rcases List.mem_cons.mp inside with isFirst | isLater
    · cases isFirst
    · have isMatrix := inductionHypothesis (fun others next later =>
        fallbacks others next (List.mem_cons_of_mem _ later)) isLater
      have plain := fallbacks values fallback List.mem_cons_self
      rw [isMatrix] at plain
      cases plain
  | min | max | mid | splitMin | splitMax | minMaxCycle | markov =>
    exact (List.mem_singleton.mp inside).symm

/-- Matrices of the network, by which variables are divided and weighed, are those of the model, row
by row, with guards that are declared variables with the names of the guards. A list of variables in
its order is that of the names, and a variable has the first place of its name. -/
structure Network.RefersTo (network : Network) (model : Model) : Prop where
  guards : ∀ variableId matrix, .markov matrix ∈ (network.strategyOf variableId).levels →
    ∃ declaration, model.ownStrategy? variableId = some (.markov declaration) ∧
      List.Forall₂ (fun row resolved => resolved.weights = row.weights ∧
        Option.Rel model.HasName row.guard resolved.guard) declaration.rows matrix.rows
  propagators : ∀ weighted matrix, .markov weighted matrix ∈ network.propagators.toList ↔
    network.strategyOf weighted = .markov matrix
  listed : ∀ (place : Nat) listed inverted, network.order.criteria[place]? =
    some (Criterion.list listed inverted) → ∃ names,
      model.order.criteria[place]? = some (Criterion.list names inverted) ∧
        List.Forall₂ model.HasName names listed ∧ ∀ name variableId, model.HasName name variableId →
          listed.idxOf? variableId = names.idxOf? name

namespace Model

variable {model : Model}

/-- With distinct names, a name leads to a variable exactly if it is the name of the variable. -/
theorem variableNamed_eq_iff (unprepared : model.network = none) (distinct : model.vars.Distinct)
    {other name : String} {variableId : VariableId} (known : model.Knows other)
    (isNamed : model.HasName name variableId) :
    model.variableNamed other = variableId ↔ other = name := by
  obtain ⟨entry, found, rfl⟩ := isNamed
  obtain ⟨namesake, foundOther, rfl⟩ := hasName_variableNamed unprepared known
  constructor
  · intro same
    rw [same, found] at foundOther
    cases foundOther
    rfl
  · exact distinct foundOther found

/-- The place of a variable is the first one of its name. -/
theorem idxOf?_map_variableNamed (unprepared : model.network = none)
    (distinct : model.vars.Distinct) {names : List String}
    (known : ∀ name ∈ names, model.Knows name) {name : String} {variableId : VariableId}
    (isNamed : model.HasName name variableId) :
    (names.map model.variableNamed).idxOf? variableId = names.idxOf? name := by
  induction names with
  | nil => rfl
  | cons first rest inductionHypothesis =>
    have same := variableNamed_eq_iff unprepared distinct (known first List.mem_cons_self) isNamed
    rw [List.map_cons, List.idxOf?_cons, List.idxOf?_cons,
      inductionHypothesis fun other inside => known other (List.mem_cons_of_mem _ inside)]
    simp only [beq_iff_eq, same]

/-- A variable has the strategy that is resolved for it. -/
theorem getD_resolvedStrategies (variableId : VariableId) :
    model.resolvedStrategies.getD variableId none = model.ownResolved? variableId := by
  have placed : model.resolvedStrategies.get? variableId =
      (model.vars.table.keys.map model.ownResolved?)[variableId]? :=
    List.getElem?_toArray
  rw [Table.getD, placed, List.getElem?_map, Table.keys]
  by_cases inside : variableId < model.vars.table.size
  · rw [List.getElem?_range inside, Option.map_some, Option.getD_some]
  · have absent : model.vars.get? variableId = none :=
      (Table.get?_eq_none_iff _ _).mpr (Nat.le_of_not_lt inside)
    rw [List.getElem?_eq_none (by simpa using inside), ownResolved?, ownStrategy?, absent]
    rfl

/-- In the network it has its own strategy, or else the one for all. -/
theorem strategyOf_compiled (variableId : VariableId) :
    model.compiled.strategyOf variableId =
      ((model.ownStrategy? variableId).getD model.strategy).map model.variableNamed := by
  change (model.resolvedStrategies.getD variableId none).getD
    (model.strategy.map model.variableNamed) = _
  rw [getD_resolvedStrategies, ownResolved?]
  cases model.ownStrategy? variableId <;> rfl

/-- Every name of the declarations has become the variable with that name. -/
theorem refersTo_compiled (unprepared : model.network = none)
    (plain : model.strategy.isMarkov = false) (distinct : model.vars.Distinct)
    (posed : model.WellPosed) (built : model.compiled.BuiltFor model) :
    model.compiled.RefersTo model where
  guards variableId matrix inside := by
    rw [strategyOf_compiled, ValueStrategy.levels_map] at inside
    obtain ⟨level, isLevel, isMatrix⟩ := List.mem_map.mp inside
    cases level with
    | markov declaration =>
      cases isMatrix
      cases own : model.ownStrategy? variableId with
      | none =>
        rw [own, Option.getD_none] at isLevel
        rw [ValueStrategy.eq_markov_of_mem_levels posed.fallbacks isLevel] at plain
        cases plain
      | some strategy =>
        rw [own, Option.getD_some] at isLevel
        have wellPosed := posed.strategies variableId strategy own
        have isOwn := ValueStrategy.eq_markov_of_mem_levels wellPosed.fallbacks isLevel
        refine ⟨declaration, congrArg some isOwn,
          List.forall₂_map_right_iff.mpr (List.forall₂_same.mpr fun row inRows => ?_)⟩
        have known := (wellPosed.matrix declaration isOwn).guards row inRows
        refine ⟨rfl, ?_⟩
        rw [MarkovRow.map]
        cases guard : row.guard with
        | none => exact .none
        | some name => exact .some (hasName_variableNamed unprepared (known name guard))
    | min | max | mid | splitMin | splitMax | minMaxCycle | list => cases isMatrix
  propagators weighted matrix := by
    refine ⟨built.strategyOf_eq_of_mem, fun isStrategy => ?_⟩
    obtain ⟨other, isOther, inside⟩ := built.exists_markov (built.isMarkov_of_strategyOf isStrategy)
    cases isOther.symm.trans isStrategy
    exact inside
  listed place listed inverted found := by
    change (model.order.map model.variableNamed).criteria[place]? = _ at found
    rw [VariableOrder.criteria_map, List.getElem?_map] at found
    obtain ⟨criterion, isCriterion, isList⟩ := Option.map_eq_some_iff.mp found
    cases criterion with
    | list names =>
      cases isList
      have known := posed.listed names inverted (List.mem_of_getElem? isCriterion)
      refine ⟨names, isCriterion, List.forall₂_map_right_iff.mpr
        (List.forall₂_same.mpr fun name inside => ?_), ?_⟩
      · exact hasName_variableNamed unprepared (known name inside)
      · exact fun name variableId => idxOf?_map_variableNamed unprepared distinct known
    | naive | size | min | max | markov => cases isList

end Model

/-- **Preparing is exact.** A reachable model without a network is given one exactly if it is well
posed, and the names in the network refer to declared variables. It is refused elsewhere for a flaw
that it has, and stays as it is, without a network and variables that a network has added. Visiting
the variables that have a strategy of their own in another order comes to the same network and
model. -/
theorem Workspace.Reachable.prepare_exactly {workspace : Workspace}
    (reachable : workspace.Reachable) (unprepared : workspace.model.network = none) :
    ((∃ network, (prepare.run workspace).1 = .ok network) ↔ workspace.model.WellPosed) ∧
      (∀ network, (prepare.run workspace).1 = .ok network →
        (prepare.run workspace).2.model = { workspace.model with network := some network } ∧
          network.RefersTo workspace.model) ∧
      (∀ refusal, (prepare.run workspace).1 = .error refusal →
        (∃ error, refusal = .invalid error) ∧ (prepare.run workspace).2.model = workspace.model ∧
          (prepare.run workspace).2.model.isPrepared = false ∧
            (prepare.run workspace).2.model.allVariables = workspace.model.vars) ∧
      ∀ visits, visits.Perm workspace.model.owners →
        (∀ network, ((prepareAlong visits).run workspace).1 = .ok network ↔
          (prepare.run workspace).1 = .ok network) ∧
            ((prepareAlong visits).run workspace).2.model = (prepare.run workspace).2.model := by
  have plain := reachable.sound.strategy_plain
  -- A well-posed model is prepared and a flawed one refused along every order, so both orders end
  -- in the same way.
  rcases Model.preparedBy_prepare unprepared plain with ⟨posed, gives⟩ | ⟨flawed, error, gives⟩
  · obtain ⟨answer, left⟩ := gives workspace rfl
    have refers := Model.refersTo_compiled unprepared plain reachable.orderly.names posed
      (reachable.builtFor_of_prepare answer)
    rw [answer, left]
    refine ⟨⟨fun _ => posed, fun _ => ⟨_, rfl⟩⟩, ?_, by rintro _ ⟨⟩, fun visits every => ?_⟩
    · rintro network ⟨rfl⟩
      exact ⟨rfl, refers⟩
    · rcases Model.preparedBy_prepareAlong unprepared plain every with ⟨_, givesToo⟩ | ⟨flawed, _⟩
      · obtain ⟨answerToo, leftToo⟩ := givesToo workspace rfl
        rw [answerToo, leftToo]
        exact ⟨fun _ => Iff.rfl, rfl⟩
      · exact absurd posed flawed
  · obtain ⟨answer, left⟩ := gives workspace rfl
    have stays : workspace.model.allVariables = workspace.model.vars := by
      rw [Model.allVariables, unprepared, Option.elim_none]
    rw [answer, left]
    refine ⟨⟨by rintro ⟨_, ⟨⟩⟩, fun posed => absurd posed flawed⟩, by rintro _ ⟨⟩, ?_,
      fun visits every => ?_⟩
    · rintro _ ⟨rfl⟩
      exact ⟨⟨error, rfl⟩, rfl, by rw [Model.isPrepared, unprepared]; rfl, stays⟩
    · rcases Model.preparedBy_prepareAlong unprepared plain every
        with ⟨posed, _⟩ | ⟨_, errorToo, givesToo⟩
      · exact absurd posed flawed
      · obtain ⟨answerToo, leftToo⟩ := givesToo workspace rfl
        rw [answerToo, leftToo]
        exact ⟨fun _ => ⟨by rintro ⟨⟩, by rintro ⟨⟩⟩, rfl⟩

/-- A variable whose values are weighed by a boolean, both of which are listed, one of them
twice. -/
def Workspace.guarded : Workspace :=
  .ofRequests
    [.declareRange "B" 0 1, .declareRange "X" 1 2,
      .orderBy ⟨.list ["X", "B", "X"] true, [.size]⟩,
      .divideVariableBy "B" (.list [1] (.list [0] .max)),
      .divideVariableBy "X" (.markov ⟨[1, 2], [⟨[1.0, 0.0], some "B"⟩, ⟨[0.0, 1.0], none⟩], none⟩),
      .target (.named ["X"])]

/-- The same variable, for which a later row is guarded by a name that is not declared. -/
def Workspace.misguided : Workspace :=
  .ofRequests
    [.declareRange "B" 0 1, .declareRange "X" 1 2,
      .divideVariableBy "X"
      (.markov ⟨[1, 2], [⟨[1.0, 0.0], some "B"⟩, ⟨[0.0, 1.0], some "C"⟩], none⟩)]

/-- The first of the two is prepared, in any order of its variables, and the second one is
refused. -/
theorem Workspace.prepare_exactly_guarded :
    (guarded.Reachable ∧ guarded.model.network = none ∧ guarded.model.WellPosed ∧
      ∃ network, (prepare.run guarded).1 = .ok network ∧ network.RefersTo guarded.model ∧
        network.order = ⟨.list [1, 0, 1] true, [.size]⟩ ∧
          ((prepareAlong [1, 0]).run guarded).1 = .ok network) ∧
      misguided.Reachable ∧ misguided.model.network = none ∧ ¬ misguided.model.WellPosed := by
  have ordered : (prepare.run guarded).1.toOption.map Network.order =
      some ⟨.list [1, 0, 1] true, [.size]⟩ := by
    decide +kernel
  have refused : (prepare.run misguided).1.toOption.isNone := by
    decide +kernel
  have owners : guarded.model.owners = [0, 1] := by
    decide +kernel
  have unprepared : guarded.model.network = none := rfl
  have unpreparedToo : misguided.model.network = none := rfl
  have reachable : guarded.Reachable := reachable_ofRequests _
  have reachableToo : misguided.Reachable := reachable_ofRequests _
  obtain ⟨posed, refers, -, along⟩ := reachable.prepare_exactly unprepared
  refine ⟨⟨reachable, unprepared, ?_⟩, reachableToo, unpreparedToo, fun wellPosed => ?_⟩
  · rcases answer : (prepare.run guarded).1 with refusal | network
    · rw [answer] at ordered
      cases ordered
    · rw [answer] at ordered
      refine ⟨posed.mp ⟨network, answer⟩, network, rfl, (refers network answer).2,
        Option.some.inj ordered, ?_⟩
      exact ((along [1, 0] (owners ▸ List.Perm.swap 0 1 [])).1 network).mpr answer
  · obtain ⟨network, answer⟩ := (reachableToo.prepare_exactly unpreparedToo).1.mpr wellPosed
    rw [answer] at refused
    cases refused

end ConstraintSearch
