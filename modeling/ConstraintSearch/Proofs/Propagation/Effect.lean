import ConstraintSearch.Proofs.Propagation.Consistency
import ConstraintSearch.Search.Potential

/-!
# What propagators do to domains

A propagator reads only the domains of the variables that it mentions and replaces only these. So on
two states which agree on them it does the same (`Propagator.exists_effect`): it replaces the same
domains, one after the other, notes the same variables as changed, and fails with the same variable
if it fails.
-/

namespace ConstraintSearch

open Narrow Rule

/-! ### Scopes -/

namespace Propagator

/-- The variable is an operand or the result of the propagator, has its values weighed, or guards
one of its rows. -/
def Mentions : Propagator → VariableId → Prop
  | relation _ left right, variableId => variableId = left ∨ variableId = right
  | reified _ left right result, variableId =>
    variableId = left ∨ variableId = right ∨ variableId = result
  | ring _ left right result, variableId =>
    variableId = left ∨ variableId = right ∨ variableId = result
  | markov weighted matrix, variableId =>
    variableId = weighted ∨ ∃ row ∈ matrix.rows, row.guard = some variableId

/-- The scope of a propagator has the variables that it mentions. -/
theorem mem_scope_iff_mentions {propagator : Propagator} {variableId : VariableId} :
    variableId ∈ propagator.scope ↔ propagator.Mentions variableId := by
  cases propagator with
  | relation comparison left right => exact mem_scope_relation
  | reified comparison left right result => exact mem_scope_reified
  | ring operation left right result => exact mem_scope_ring
  | markov weighted matrix => rw [mem_scope_markov, List.mem_filterMap, Mentions]

end Propagator

/-! ### Effects -/

namespace Narrowing

/-- The states have the same domains for the variables. -/
def AgreeOn (scope : List VariableId) (first second : Narrowing) : Prop :=
  ∀ variableId ∈ scope, first.domainOf variableId = second.domainOf variableId

/-- The state with another domain for the variable, which is noted as changed. -/
def replaced (state : Narrowing) (variableId : VariableId) (domain : Domain) : Narrowing :=
  { state with domains := state.domains.set variableId domain,
               changes := state.changes.record variableId }

/-- The state with no value left for the variable. -/
def emptied (state : Narrowing) (variableId : VariableId) : Narrowing :=
  { state with domains := state.domains.set variableId ∅ }

end Narrowing

/-- Domains that replace others one after the other, where the last step may leave a variable
without a value. -/
inductive Effect
  | done
  | fail (variableId : VariableId)
  | replace (variableId : VariableId) (domain : Domain) (next : Effect)

namespace Effect

/-- The variables whose domains are replaced. -/
def touched : Effect → List VariableId
  | done => []
  | fail variableId => [variableId]
  | replace variableId _ next => variableId :: next.touched

/-- The step that has the effect. -/
def run : Effect → Narrow Unit
  | done => fun state => .ok () state
  | fail variableId => fun state => .error variableId (state.emptied variableId)
  | replace variableId domain next => fun state => next.run (state.replaced variableId domain)

/-- On both states the step has the effect, which touches only the given variables, leaves states
that agree on them, and leaves all other domains as they are. -/
structure Arises (effect : Effect) (scope : List VariableId) (step : Narrow Unit)
    (first second : Narrowing) : Prop where
  touched_mem : ∀ variableId ∈ effect.touched, variableId ∈ scope
  first_eq : step first = effect.run first
  second_eq : step second = effect.run second
  agree : (step.after first).AgreeOn scope (step.after second)
  elsewhere : ∀ variableId, variableId ∉ scope →
    (step.after first).domainOf variableId = first.domainOf variableId

end Effect

/-! ### Domains that were replaced -/

namespace Table

variable {α : Type} {table : Table α} {key : Nat}

/-- Setting an entry leaves the others. -/
theorem getD_set_of_ne {other : Nat} (entry substitute : α) (different : other ≠ key) :
    (table.set key entry).getD other substitute = table.getD other substitute := by
  rw [getD, get?_set, if_neg (Ne.symm different), getD]

/-- The substitute for missing entries is found where it was put, also if there is no such place. -/
theorem getD_set_substitute (substitute : α) :
    (table.set key substitute).getD key substitute = substitute := by
  by_cases inside : key < table.size
  · rw [getD_set key substitute substitute inside, if_pos rfl]
  · rw [set_of_size_le substitute (Nat.le_of_not_lt inside),
      getD_of_size_le substitute (Nat.le_of_not_lt inside)]

end Table

namespace Narrowing

variable {scope : List VariableId} {first second : Narrowing} {variableId other : VariableId}

/-- Replacing a domain leaves those of other variables. -/
theorem domainOf_replaced_of_ne (state : Narrowing) (domain : Domain)
    (different : other ≠ variableId) :
    (state.replaced variableId domain).domainOf other = state.domainOf other :=
  Table.getD_set_of_ne domain ∅ different

/-- So does emptying one. -/
theorem domainOf_emptied_of_ne (state : Narrowing) (different : other ≠ variableId) :
    (state.emptied variableId).domainOf other = state.domainOf other :=
  Table.getD_set_of_ne ∅ ∅ different

/-- Agreeing states with a value for a variable agree when that gets another domain. -/
theorem AgreeOn.replaced (agree : first.AgreeOn scope second) (domain : Domain)
    (firstNonempty : (first.domainOf variableId).Nonempty)
    (secondNonempty : (second.domainOf variableId).Nonempty) :
    (first.replaced variableId domain).AgreeOn scope (second.replaced variableId domain) := by
  intro other read
  by_cases same : other = variableId
  · rw [same]
    have atFirst := Table.getD_set variableId domain ∅ (Table.lt_size_of_nonempty firstNonempty)
    have atSecond := Table.getD_set variableId domain ∅ (Table.lt_size_of_nonempty secondNonempty)
    rw [if_pos rfl] at atFirst atSecond
    exact atFirst.trans atSecond.symm
  · rw [domainOf_replaced_of_ne _ _ same, domainOf_replaced_of_ne _ _ same]
    exact agree other read

/-- States that agree do so after the same domain is emptied. -/
theorem AgreeOn.emptied (agree : first.AgreeOn scope second) (variableId : VariableId) :
    (first.emptied variableId).AgreeOn scope (second.emptied variableId) := by
  intro other read
  by_cases same : other = variableId
  · rw [same]
    exact (Table.getD_set_substitute ∅).trans (Table.getD_set_substitute ∅).symm
  · rw [domainOf_emptied_of_ne _ same, domainOf_emptied_of_ne _ same]
    exact agree other read

end Narrowing

namespace Effect.Arises

variable {scope : List VariableId} {step rest : Narrow Unit} {first second : Narrowing}
  {variableId : VariableId}

/-- A step that does nothing to either state has no effect. -/
theorem done (agree : first.AgreeOn scope second) (firstStep : step first = .ok () first)
    (secondStep : step second = .ok () second) : Effect.done.Arises scope step first second where
  touched_mem := by simp [touched]
  first_eq := firstStep
  second_eq := secondStep
  agree := by
    rw [after_of_ok firstStep, after_of_ok secondStep]
    exact agree
  elsewhere _ _ := by rw [after_of_ok firstStep]

/-- A step that fails at the same variable of both states has that effect. -/
theorem fail (agree : first.AgreeOn scope second) (inside : variableId ∈ scope)
    (firstStep : step first = .error variableId (first.emptied variableId))
    (secondStep : step second = .error variableId (second.emptied variableId)) :
    (Effect.fail variableId).Arises scope step first second where
  touched_mem other member := by
    rw [List.mem_singleton.mp member]
    exact inside
  first_eq := firstStep
  second_eq := secondStep
  agree := by
    rw [after_of_error firstStep, after_of_error secondStep]
    exact agree.emptied variableId
  elsewhere other outside := by
    rw [after_of_error firstStep]
    exact first.domainOf_emptied_of_ne fun same => outside (same ▸ inside)

/-- A step that only passes on to another one has the effect of that. -/
theorem pass {effect : Effect} (arises : effect.Arises scope rest first second)
    (firstStep : step first = rest first) (secondStep : step second = rest second) :
    effect.Arises scope step first second where
  touched_mem := arises.touched_mem
  first_eq := firstStep.trans arises.first_eq
  second_eq := secondStep.trans arises.second_eq
  agree := by
    rw [after, firstStep, after, secondStep]
    exact arises.agree
  elsewhere := by
    rw [after, firstStep]
    exact arises.elsewhere

/-- A step that replaces a domain before it passes on to another one has the effect of both. -/
theorem replace {effect : Effect} {domain : Domain} (inside : variableId ∈ scope)
    (arises : effect.Arises scope rest (first.replaced variableId domain)
      (second.replaced variableId domain))
    (firstStep : step first = rest (first.replaced variableId domain))
    (secondStep : step second = rest (second.replaced variableId domain)) :
    (Effect.replace variableId domain effect).Arises scope step first second where
  touched_mem other member := by
    rcases List.mem_cons.mp member with rfl | inRest
    · exact inside
    · exact arises.touched_mem other inRest
  first_eq := firstStep.trans arises.first_eq
  second_eq := secondStep.trans arises.second_eq
  agree := by
    rw [after, firstStep, after, secondStep]
    exact arises.agree
  elsewhere other outside := by
    rw [after, firstStep]
    exact (arises.elsewhere other outside).trans
      (first.domainOf_replaced_of_ne domain fun same => outside (same ▸ inside))

end Effect.Arises

/-! ### Rules -/

namespace Rule

variable {scope : List VariableId} {first second : Narrowing}

/-- On agreeing states a restriction of a variable in the scope does nothing, fails, or replaces the
domain by the same one. -/
theorem restrict_on_agreeing {target : VariableId} (supported : Domain)
    (agree : first.AgreeOn scope second) (inside : target ∈ scope) :
    (restrict target supported first = .ok () first ∧
      restrict target supported second = .ok () second) ∨
    (restrict target supported first = .error target (first.emptied target) ∧
      restrict target supported second = .error target (second.emptied target)) ∨
    ∃ domain, restrict target supported first = .ok () (first.replaced target domain) ∧
      restrict target supported second = .ok () (second.replaced target domain) ∧
      (first.replaced target domain).AgreeOn scope (second.replaced target domain) := by
  have same := agree target inside
  simp only [restrict, ← same]
  generalize isNew : first.domainOf target ∩ supported = new
  by_cases empty : new.isEmpty
  · have isEmpty : new = ∅ :=
      Domain.ext fun value => iff_of_false (Domain.isEmpty_iff.mp empty value) Domain.not_mem_empty
    rw [if_pos empty, if_pos empty, isEmpty]
    exact .inr (.inl ⟨rfl, rfl⟩)
  · rw [if_neg empty, if_neg empty]
    by_cases unchanged : new = first.domainOf target
    · rw [if_pos unchanged, if_pos unchanged]
      exact .inl ⟨rfl, rfl⟩
    · rw [if_neg unchanged, if_neg unchanged]
      have left : new.Nonempty := Domain.isEmpty_eq_false_iff.mp (Bool.not_eq_true _ ▸ empty)
      have nonempty : (first.domainOf target).Nonempty :=
        left.of_subset (isNew ▸ Domain.inter_subset_left _ _)
      exact .inr (.inr ⟨new, rfl, rfl, agree.replaced new nonempty (same ▸ nonempty)⟩)

/-- Rules whose targets and supports depend on some variables only have the same effect on states
that agree on these. -/
theorem exists_effect_followAll {rules : List Rule} (targets : ∀ rule ∈ rules, rule.target ∈ scope)
    (supports : ∀ rule ∈ rules, ∀ {former latter : Narrowing}, former.AgreeOn scope latter →
      rule.support former.domainOf = rule.support latter.domainOf)
    (agree : first.AgreeOn scope second) :
    ∃ effect : Effect, effect.Arises scope (followAll rules) first second := by
  induction rules generalizing first second with
  | nil => exact ⟨.done, .done agree rfl rfl⟩
  | cons rule rest inductionHypothesis =>
    have inside := targets rule List.mem_cons_self
    have sameSupport := supports rule List.mem_cons_self agree
    have restEffect : ∀ {former latter : Narrowing}, former.AgreeOn scope latter →
        ∃ effect : Effect, effect.Arises scope (followAll rest) former latter :=
      inductionHypothesis (fun other member => targets other (List.mem_cons_of_mem _ member))
        fun other member => supports other (List.mem_cons_of_mem _ member)
    cases support : rule.support first.domainOf with
    | none =>
      have firstSkips : rule.follow first = .ok () first := by rw [follow, support]
      have secondSkips : rule.follow second = .ok () second := by
        rw [follow, ← sameSupport, support]
      obtain ⟨effect, arises⟩ := restEffect agree
      exact ⟨effect, arises.pass (followAll_cons_of_ok firstSkips)
        (followAll_cons_of_ok secondSkips)⟩
    | some supported =>
      have followFirst : rule.follow first = restrict rule.target supported first := by
        rw [follow, support]
      have followSecond : rule.follow second = restrict rule.target supported second := by
        rw [follow, ← sameSupport, support]
      -- A rule whose restriction goes through leaves two states that agree again, so the induction
      -- goes on from these.
      rcases restrict_on_agreeing supported agree inside with
        ⟨firstSkips, secondSkips⟩ | ⟨firstFails, secondFails⟩ | ⟨domain, firstPasses,
          secondPasses, stillAgree⟩
      · obtain ⟨effect, arises⟩ := restEffect agree
        exact ⟨effect, arises.pass (followAll_cons_of_ok (followFirst.trans firstSkips))
          (followAll_cons_of_ok (followSecond.trans secondSkips))⟩
      · exact ⟨.fail rule.target, .fail agree inside
          (followAll_cons_of_error (followFirst.trans firstFails))
          (followAll_cons_of_error (followSecond.trans secondFails))⟩
      · obtain ⟨effect, arises⟩ := restEffect stillAgree
        exact ⟨.replace rule.target domain effect, arises.replace inside
          (followAll_cons_of_ok (followFirst.trans firstPasses))
          (followAll_cons_of_ok (followSecond.trans secondPasses))⟩

end Rule

/-! ### Propagators -/

/-- A propagator has the same effect on states that agree on its scope. -/
theorem Propagator.exists_effect (propagator : Propagator) {first second : Narrowing}
    (agree : first.AgreeOn propagator.scope second) :
    ∃ effect : Effect, effect.Arises propagator.scope propagator.propagate first second := by
  obtain ⟨effect, arises⟩ := @Rule.exists_effect_followAll _ _ _ (propagator.rules first.domainOf)
    (fun rule inside => target_mem_scope inside)
    (fun rule inside _ _ stillAgree => support_congr stillAgree inside) agree
  refine ⟨effect, arises.pass (propagator.propagate_eq_followAll first) ?_⟩
  rw [propagator.propagate_eq_followAll second, rules_congr agree]

end ConstraintSearch
