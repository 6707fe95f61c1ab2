import ConstraintSearch.Model.Prepare
import ConstraintSearch.Proofs.Model.Declaring
import Mathlib.Data.List.Forall2

/-!
# Preparing keeps a model sound

Resolving names leaves the model as it is, and the network that preparing puts on top is built for
the model: guards and targets exist, and a strategy draws values only if the declared one does.
-/

namespace ConstraintSearch

open Build

/-- Every entry of the second list is related to one of the first. -/
theorem exists_of_forall₂_of_mem {α β : Type} {related : α → β → Prop} {first : List α}
    {second : List β} (all : List.Forall₂ related first second) {entry : β}
    (inside : entry ∈ second) : ∃ other ∈ first, related other entry := by
  induction all with
  | nil => cases inside
  | cons holds _ inductionHypothesis =>
    rcases List.mem_cons.mp inside with rfl | inRest
    · exact ⟨_, List.mem_cons_self, holds⟩
    · obtain ⟨other, otherInside, otherHolds⟩ := inductionHypothesis inRest
      exact ⟨other, List.mem_cons_of_mem _ otherInside, otherHolds⟩

namespace Build

/-- The step leaves the model as it is, and its result has the property. -/
def Resolves {α : Type} (current : Model) (step : Build α) (property : α → Prop) : Prop :=
  Ensures (· = current) step fun result model => property result ∧ model = current

namespace Resolves

variable {α β : Type} {current : Model}

/-- A result with the property may be returned. -/
theorem pure {property : α → Prop} {result : α} (holds : property result) :
    Resolves current (Pure.pure result : Build α) property :=
  Ensures.pure result fun _ same => ⟨holds, same⟩

/-- Resolving one thing after another leaves the model to each of them. -/
theorem bind {step : Build α} {next : α → Build β} {property : α → Prop} {final : β → Prop}
    (first : Resolves current step property)
    (second : ∀ result, property result → Resolves current (next result) final) :
    Resolves current (step >>= next) final :=
  Ensures.bind first fun result => Ensures.assume (second result)

/-- Reporting an event leaves the model as it is. -/
theorem report (event : Event) : Resolves current (Build.report event) fun _ => True :=
  (Ensures.report event).imp (fun _ => id) fun _ _ same => ⟨trivial, same⟩

/-- A refusal has no result that could lack the property. -/
theorem refuse_bind {final : β → Prop} (error : ModelError) (next : α → Build β) :
    Resolves current (Build.refuse error >>= next) final :=
  Ensures.refuse_bind error next

/-- The results of a step for every entry. -/
theorem mapM {step : α → Build β} {related : α → β → Prop} {entries : List α}
    (each : ∀ entry ∈ entries, Resolves current (step entry) (related entry)) :
    Resolves current (entries.mapM step) (List.Forall₂ related entries) := by
  induction entries with
  | nil => exact pure .nil
  | cons first rest inductionHypothesis =>
    rw [List.mapM_cons]
    apply (each first List.mem_cons_self).bind
    intro result holds
    apply (inductionHypothesis fun entry inside => each entry (List.mem_cons_of_mem _ inside)).bind
    intro results related
    exact pure (.cons holds related)

/-- What may be missing is resolved if it is there. -/
theorem optionMapM {step : α → Build β} {related : α → β → Prop} {entry : Option α}
    (each : ∀ present, entry = some present → Resolves current (step present) (related present)) :
    Resolves current (entry.mapM step) (Option.Rel related entry) := by
  cases entry with
  | none => exact pure .none
  | some present =>
    change Resolves current (some <$> step present) _
    rw [map_eq_pure_bind]
    exact (each present rfl).bind fun result holds => pure (.some holds)

/-- A name that is found is that of a variable of the model. -/
theorem lookup (unprepared : current.network = none) (name : String) :
    Resolves current (Build.lookup name) fun variableId => variableId < current.vars.size := by
  refine (ensures_lookup (· = current) name).imp ?_ ?_
  · rintro _ rfl
    exact ⟨unprepared, rfl⟩
  · rintro variableId _ ⟨inside, _, rfl⟩
    exact ⟨inside, rfl⟩

end Resolves

end Build

/-! ### Strategies -/

/-- What the guards, weights and fallbacks of a resolved strategy owe to the declared one. -/
structure ValueStrategy.ResolvedFrom (resolved : ValueStrategy VariableId) (count : Nat)
    (declared : ValueStrategy String) : Prop where
  isMarkov_eq : resolved.isMarkov = declared.isMarkov
  deterministic : declared.isMarkov = false → resolved.Deterministic
  guard_lt : ∀ matrix, resolved = .markov matrix →
    ∀ guard ∈ matrix.rows.filterMap MarkovRow.guard, guard < count
  isWeighted : ∀ matrix, resolved = .markov matrix → matrix.IsWeighted

variable {current : Model} (unprepared : current.network = none)

include unprepared

/-- The guard of a resolved row exists, and its weights are finite and not negative. -/
theorem resolves_row (matrix : MarkovMatrix String) (owner : String) (row : MarkovRow String)
    (index : Nat) : Resolves current (matrix.resolveRow owner row index) fun resolved =>
      (∀ guard, resolved.guard = some guard → guard < current.vars.size) ∧
        ∀ weight ∈ resolved.weights, isWeight weight := by
  have resolveGuard : (∀ weight ∈ row.weights, isWeight weight) → Resolves current (do
      return { weights := row.weights, guard := ← row.guard.mapM lookup } :
        Build (MarkovRow VariableId)) fun resolved =>
          (∀ guard, resolved.guard = some guard → guard < current.vars.size) ∧
              ∀ weight ∈ resolved.weights, isWeight weight := by
    intro weights
    refine (Resolves.optionMapM fun name _ => Resolves.lookup unprepared name).bind
      fun guard related => Resolves.pure ?_
    refine ⟨fun variableId isGuard => ?_, weights⟩
    simp only at isGuard
    rw [isGuard] at related
    cases guarded : row.guard with
    | none =>
      rw [guarded] at related
      cases related
    | some name =>
      rw [guarded] at related
      cases related with
      | some inside => exact inside
  rw [MarkovMatrix.resolveRow]
  dsimp only
  split
  · exact Resolves.refuse_bind _ _
  · rename_i flawless
    have weights : ∀ weight ∈ row.weights, isWeight weight := by
      rw [← List.all_eq_true]
      by_contra other
      have flawed : matrix.rowFlaw? row index = some (.rowWeight index) := by
        rw [MarkovMatrix.rowFlaw?, Bool.eq_false_iff.mpr other]
        rfl
      exact flawless _ flawed
    split
    · exact (Resolves.report _).bind fun _ _ => resolveGuard weights
    · exact resolveGuard weights

/-- So do all guards of a matrix, whose rows are resolved one by one. -/
theorem resolves_matrix (matrix : MarkovMatrix String) (owner : String) :
    Resolves current (matrix.resolve owner) fun resolved =>
      (∀ guard ∈ resolved.rows.filterMap MarkovRow.guard, guard < current.vars.size) ∧
        resolved.IsWeighted := by
  have resolveRows : (∀ weight, matrix.expansion = some weight → isWeight weight) →
      Resolves current (do
      let rows ← matrix.rows.zipIdx.mapM fun placed => matrix.resolveRow owner placed.1 placed.2
      return { legend := matrix.legend, rows, expansion := matrix.expansion } :
        Build (MarkovMatrix VariableId)) fun resolved =>
          (∀ guard ∈ resolved.rows.filterMap MarkovRow.guard, guard < current.vars.size) ∧
              resolved.IsWeighted := by
    intro expansion
    apply (Resolves.mapM fun placed _ =>
      resolves_row unprepared matrix owner placed.1 placed.2).bind
    intro rows related
    apply Resolves.pure
    refine ⟨fun guard inside => ?_, fun row inRows => ?_, expansion⟩
    · obtain ⟨row, inRows, isGuard⟩ := List.mem_filterMap.mp inside
      obtain ⟨_, _, guarded, _⟩ := exists_of_forall₂_of_mem related inRows
      exact guarded guard isGuard
    · obtain ⟨_, _, _, weights⟩ := exists_of_forall₂_of_mem related inRows
      exact weights
  rw [MarkovMatrix.resolve]
  dsimp only
  split
  · exact Resolves.refuse_bind _ _
  · split
    · rename_i weight expanded
      split
      · exact Resolves.refuse_bind _ _
      · rename_i isWeight
        refine resolveRows fun other same => ?_
        cases expanded.symm.trans same
        simpa using isWeight
    · rename_i unexpanded
      exact resolveRows fun weight expanded => absurd expanded (unexpanded weight)

/-- Resolving a strategy keeps its kind, and what it refers to exists. -/
theorem resolves_strategy (owner : String) (strategy : ValueStrategy String) :
    Resolves current (strategy.resolve owner) fun resolved =>
      resolved.ResolvedFrom current.vars.size strategy := by
  induction strategy with
  | list values fallback inductionHypothesis =>
    rw [ValueStrategy.resolve]
    split
    · exact Resolves.refuse_bind _ _
    · rename_i plain
      refine inductionHypothesis.bind fun resolved origin => Resolves.pure ?_
      exact ⟨rfl, fun _ => origin.deterministic (Bool.eq_false_iff.mpr plain), by rintro _ ⟨⟩,
        by rintro _ ⟨⟩⟩
  | markov matrix =>
    refine (resolves_matrix unprepared matrix owner).bind fun resolved sound => Resolves.pure ?_
    exact ⟨rfl, by rintro ⟨⟩, by rintro _ ⟨rfl⟩; exact sound.1, by rintro _ ⟨rfl⟩; exact sound.2⟩
  | _ => exact Resolves.pure ⟨rfl, fun _ => trivial, by rintro _ ⟨⟩, by rintro _ ⟨⟩⟩

/-! ### Orders and targets -/

/-- Resolving a criterion leaves the model as it is. -/
theorem resolves_criterion (criterion : Criterion String) :
    Resolves current criterion.resolve fun _ => True := by
  cases criterion with
  | list names inverted =>
    have resolveNames : Resolves current
        (do return .list (← names.mapM lookup) inverted : Build (Criterion VariableId)) fun _ =>
          True :=
      (Resolves.mapM fun name _ => Resolves.lookup unprepared name).bind fun _ _ =>
        Resolves.pure trivial
    rw [Criterion.resolve]
    dsimp only
    split
    · exact (Resolves.report _).bind fun _ _ => resolveNames
    · exact resolveNames
  | _ => exact Resolves.pure trivial

/-- So does resolving an order. -/
theorem resolves_order (order : VariableOrder String) :
    Resolves current order.resolve fun _ => True :=
  (resolves_criterion unprepared order.first).bind fun _ _ =>
    (Resolves.mapM fun criterion _ => resolves_criterion unprepared criterion).bind fun _ _ =>
      Resolves.pure trivial

/-- The targets that are resolved exist. -/
theorem resolves_targets (targets : Targets) :
    Resolves current targets.resolve fun targeted =>
      (∀ variableIds, targeted = some variableIds → ∀ variableId ∈ variableIds,
        variableId < current.vars.size) ∧ (targets = .all → targeted = none) := by
  cases targets with
  | all => exact Resolves.pure ⟨by simp, fun _ => rfl⟩
  | named names =>
    have resolveNames : Resolves current
        (do return some (← names.mapM lookup) : Build (Option (List VariableId))) fun targeted =>
          (∀ variableIds, targeted = some variableIds → ∀ variableId ∈ variableIds,
            variableId < current.vars.size) ∧ (Targets.named names = .all → targeted = none) := by
      refine (Resolves.mapM fun name _ => Resolves.lookup unprepared name).bind
        fun variableIds related => Resolves.pure ?_
      refine ⟨?_, by rintro ⟨⟩⟩
      rintro _ ⟨rfl⟩ variableId inside
      obtain ⟨_, _, early⟩ := exists_of_forall₂_of_mem related inside
      exact early
    rw [Targets.resolve]
    dsimp only
    split
    · exact (Resolves.report _).bind fun _ _ => resolveNames
    · exact resolveNames

omit unprepared in
/-- Lists that are related entry by entry are so at each place, also beyond their ends. -/
theorem optionRel_getElem? {α β : Type} {related : α → β → Prop} {first : List α} {second : List β}
    (all : List.Forall₂ related first second) (place : Nat) :
    Option.Rel related first[place]? second[place]? := by
  induction all generalizing place with
  | nil => exact .none
  | cons holds _ inductionHypothesis =>
    cases place with
    | zero => exact .some holds
    | succ place => exact inductionHypothesis place

/-! ### Networks -/

/-- The strategies that the variables of a model have been given, resolved one by one. -/
def ResolvedStrategies (model : Model) (strategies : List (Option (ValueStrategy VariableId))) :
    Prop :=
  List.Forall₂ (fun entry resolved => Option.Rel (fun declared resolved =>
    ValueStrategy.ResolvedFrom resolved model.vars.size declared) entry.strategy resolved)
      model.vars.toList strategies

section Strategies

omit unprepared

variable {strategies : List (Option (ValueStrategy VariableId))}
  (resolved : ResolvedStrategies current strategies)

include resolved

/-- Each variable either has no strategy of its own, or one that was resolved from the declared
one. -/
theorem strategy_cases (variableId : VariableId) :
    ((Table.ofList strategies).getD variableId none = none ∧
        (current.vars.get? variableId).bind Variable.strategy = none) ∨
      ∃ declared strategy, (Table.ofList strategies).get? variableId = some (some strategy) ∧
        (current.vars.get? variableId).bind Variable.strategy = some declared ∧
          strategy.ResolvedFrom current.vars.size declared := by
  have placed := optionRel_getElem? resolved variableId
  have lookup : (Table.ofList strategies).get? variableId = strategies[variableId]? := by
    simp [Table.get?, Table.ofList]
  have declaredLookup : current.vars.get? variableId = current.vars.toList[variableId]? := by
    rw [Directory.get?, Directory.toList, Table.get?, Table.toList, Array.getElem?_toList]
  rw [declaredLookup, Table.getD, lookup]
  revert placed
  cases current.vars.toList[variableId]? <;> cases strategies[variableId]? <;> intro placed
  · exact .inl ⟨rfl, rfl⟩
  · cases placed
  · cases placed
  · rename_i entry own
    have related : Option.Rel (fun declared resolved =>
        ValueStrategy.ResolvedFrom resolved current.vars.size declared) entry.strategy own := by
      cases placed with
      | some related => exact related
    simp only [Option.bind_some, Option.getD_some]
    generalize entry.strategy = declaredOwn at related ⊢
    cases related with
    | none => exact .inl ⟨rfl, rfl⟩
    | some origin => exact .inr ⟨_, _, rfl, rfl, origin⟩

/-- A variable has a weighted propagator because of the strategy that it was given. -/
theorem exists_declared_of_markov {weighted : VariableId} {matrix : MarkovMatrix VariableId}
    (inside : .markov weighted matrix ∈ Network.markovPropagators (.ofList strategies)) :
    ∃ declared, (current.vars.get? weighted).bind Variable.strategy = some declared ∧
      (ValueStrategy.markov matrix).ResolvedFrom current.vars.size declared := by
  obtain ⟨_, _, found, ⟨rfl, rfl⟩⟩ := Network.mem_markovPropagators.mp inside
  rcases strategy_cases resolved weighted
    with ⟨missing, _⟩ | ⟨declared, strategy, foundStrategy, own, origin⟩
  · rw [Table.getD, found] at missing
    cases missing
  · cases found.symm.trans foundStrategy
    exact ⟨declared, own, origin⟩

/-- The weighted variables and their guards exist. -/
theorem markov_lt_of_resolved :
    ∀ propagator ∈ Network.markovPropagators (.ofList strategies), ∀ variableId ∈ propagator.scope,
      variableId < current.vars.size := by
  intro propagator inside variableId reads
  obtain ⟨weighted, matrix, _, rfl⟩ := Network.mem_markovPropagators.mp inside
  obtain ⟨declared, own, origin⟩ := exists_declared_of_markov resolved inside
  rcases Propagator.mem_scope_markov.mp reads with rfl | isGuard
  · refine (Table.get?_isSome_iff current.vars.table variableId).mp ?_
    cases entry : current.vars.get? variableId with
    | none => simp [entry] at own
    | some _ => exact congrArg Option.isSome entry
  · exact origin.guard_lt matrix rfl variableId isGuard

/-- The matrix of every weighted variable has sound weights. -/
theorem isWeighted_of_resolved {weighted : VariableId} {matrix : MarkovMatrix VariableId}
    (inside : .markov weighted matrix ∈ Network.markovPropagators (.ofList strategies)) :
    matrix.IsWeighted := by
  obtain ⟨_, _, origin⟩ := exists_declared_of_markov resolved inside
  exact origin.isWeighted matrix rfl

/-- A variable draws its values just if it was declared to. -/
theorem isMarkov_eq_of_resolved (variableId : VariableId) :
    ((Table.ofList strategies).getD variableId none).any ValueStrategy.isMarkov =
      ((current.vars.get? variableId).bind Variable.strategy).any ValueStrategy.isMarkov := by
  rcases strategy_cases resolved variableId
    with ⟨missing, none⟩ | ⟨declared, strategy, found, own, origin⟩
  · rw [missing, none]
    rfl
  · rw [Table.getD, found, own]
    exact origin.isMarkov_eq

/-- A variable that does not draw its values has a deterministic strategy, be it its own or the one
for all. -/
theorem deterministic_of_resolved {strategy : ValueStrategy VariableId}
    (plain : strategy.Deterministic) (variableId : VariableId)
    (unweighted : ((Table.ofList strategies).getD variableId none).any ValueStrategy.isMarkov =
      false) : (((Table.ofList strategies).getD variableId none).getD strategy).Deterministic := by
  rcases strategy_cases resolved variableId with ⟨missing, _⟩ | ⟨declared, own, found, _, origin⟩
  · rw [missing]
    exact plain
  · rw [Table.getD, found] at unweighted ⊢
    exact origin.deterministic (origin.isMarkov_eq.symm.trans unweighted)

/-- There is an entry for the strategy of each variable. -/
theorem size_of_resolved : (Table.ofList strategies).size = current.vars.size :=
  resolved.length_eq.symm

end Strategies

omit unprepared in
/-- Preparing changes nothing but the network. -/
theorem ensures_prepare (current : Model) :
    Ensures (· = current) prepare fun network model =>
      model = { current with network := some network } := by
  apply Ensures.model.bind
  intro seen
  split
  · rename_i network prepared
    apply Ensures.pure _
    rintro model ⟨rfl, rfl⟩
    rw [← prepared]
  · rename_i unprepared
    have start : ∀ model, seen = model ∧ model = current → model = seen ∧ seen = current := by
      rintro model ⟨rfl, same⟩
      exact ⟨rfl, same⟩
    refine Ensures.imp ?_ (fun model same => (start model same).symm) fun _ _ => id
    apply Ensures.assume
    rintro rfl
    refine Ensures.bind (resolves_order unprepared seen.order) fun order => Ensures.assume fun _ =>
      ?_
    refine Ensures.bind (resolves_strategy unprepared "*" seen.strategy) fun strategy =>
      Ensures.assume fun origin => ?_
    have each : Resolves seen (seen.vars.toList.mapM fun entry =>
        entry.strategy.mapM (ValueStrategy.resolve entry.name)) (ResolvedStrategies seen) :=
      Resolves.mapM fun entry _ => Resolves.optionMapM fun declared _ =>
        resolves_strategy unprepared entry.name declared
    refine Ensures.bind each fun strategies => Ensures.assume fun resolved => ?_
    refine Ensures.bind (resolves_targets unprepared seen.targets) fun targeted => Ensures.assume ?_
    rintro ⟨targeted_lt, targeted_all⟩
    apply Ensures.bind (Ensures.report _)
    intro _
    refine Ensures.bind (Ensures.update ?_ fun model _ same => by rw [same]) fun _ =>
      Ensures.pure _ fun _ => id
    rintro model sound rfl
    refine ⟨sound.wellFormed, sound.inside, sound.truth, sound.constants_lt,
      sound.strategy_plain, ?_⟩
    rintro network ⟨rfl⟩
    have built :=
      @Network.builtFor_build model targeted order strategy _ sound.wellFormed sound.inside
        (markov_lt_of_resolved resolved) (fun _ _ => isWeighted_of_resolved resolved)
        targeted_lt targeted_all
      (isMarkov_eq_of_resolved resolved)
        (deterministic_of_resolved resolved (origin.deterministic sound.strategy_plain))
      (size_of_resolved resolved)
    exact built.onTop _

end ConstraintSearch
