import ConstraintSearch.Proofs.Model.Declared
import Mathlib.Data.List.Induction

/-!
# Declarations in any order

What a model demands of the domains of its variables after a sequence of declarations depends only
on which constraints were accepted: each of them has to be consistent, and constraints with the same
operator and operands have to agree about their results. Which one came first decides only about how
this is written down.
-/

namespace ConstraintSearch

/-! ### Constraints that differ in their results -/

/-- Reified comparisons of the same operands keep the same families if their results have the same
domain. -/
theorem Propagator.keeps_reified_congr {comparison : Comparison}
    {left right result other : VariableId} {family : Family} (leftNonempty : (family left).Nonempty)
    (rightNonempty : (family right).Nonempty) (same : family result = family other) :
    (reified comparison left right result).Keeps family ↔
      (reified comparison left right other).Keeps family := by
  by_cases one : (family other).isValue 1
  · rw [keeps_reified_of_one leftNonempty rightNonempty one,
      keeps_reified_of_one leftNonempty rightNonempty (same ▸ one)]
  by_cases zero : (family other).isValue 0
  · rw [keeps_reified_of_zero leftNonempty rightNonempty zero,
      keeps_reified_of_zero leftNonempty rightNonempty (same ▸ zero)]
  · rw [keeps_reified_of_open one zero, keeps_reified_of_open (same ▸ one) (same ▸ zero), same]

namespace Constraint

/-- The results of the constraints, if both have one, have the same domain. -/
def Agrees (first second : Constraint) (family : Family) : Prop :=
  ∀ result other, first.result = some result → second.result = some other →
    family result = family other

/-- A well-formed constraint has a result just if its operator produces a value. -/
theorem WellFormed.producesValue_eq {constraint : Constraint} (wellFormed : constraint.WellFormed) :
    constraint.operator.producesValue = constraint.result.isSome := by
  cases wellFormed <;> rfl

/-- The operator of a well-formed constraint with a result produces a value. -/
theorem WellFormed.producesValue_of_result {constraint : Constraint} {result : VariableId}
    (wellFormed : constraint.WellFormed) (isResult : constraint.result = some result) :
    constraint.operator.producesValue = true := by
  rw [wellFormed.producesValue_eq, isResult]
  rfl

variable {first second : Constraint} {family : Family}

/-- A constraint agrees with itself. -/
theorem Agrees.refl (constraint : Constraint) (family : Family) :
    constraint.Agrees constraint family := by
  intro result other isResult isOther
  cases isResult.symm.trans isOther
  rfl

/-- Without a result there is nothing to agree on. -/
theorem WellFormed.agrees_of_unproductive (wellFormed : second.WellFormed)
    (unproductive : second.operator.producesValue = false) : first.Agrees second family := by
  intro result other _ isOther
  cases unproductive.symm.trans (wellFormed.producesValue_of_result isOther)

theorem Agrees.symm (agrees : first.Agrees second family) : second.Agrees first family :=
  fun _ _ isSecond isFirst => (agrees _ _ isFirst isSecond).symm

/-- Agreement passes through a constraint that has a result; one without would agree with any
two. -/
theorem Agrees.trans {third : Constraint} {middle : VariableId} (has : second.result = some middle)
    (left : first.Agrees second family) (right : second.Agrees third family) :
    first.Agrees third family :=
  fun _ _ isFirst isThird => (left _ _ isFirst has).trans (right _ _ has isThird)

/-- Constraints that say the same about results of the same domain are consistent together. -/
theorem Consistent.of_agrees (consistent : first.Consistent family) (firstFormed : first.WellFormed)
    (secondFormed : second.WellFormed) (sameOperator : first.operator = second.operator)
    (sameOperands : first.operands = second.operands) (agrees : first.Agrees second family)
    (nonempty : ∀ variableId ∈ second.operands, (family variableId).Nonempty) :
    second.Consistent family := by
  cases secondFormed with
  | compare | distinct =>
    cases firstFormed <;> cases sameOperator
    cases sameOperands
    exact consistent
  | plus | minus | mul | div | sum | product =>
    cases firstFormed <;> cases sameOperator
    cases sameOperands
    simpa only [Consistent, agrees _ _ rfl rfl] using consistent
  | reify comparison left right result =>
    cases firstFormed <;> cases sameOperator
    cases sameOperands
    have leftNonempty := nonempty left List.mem_cons_self
    have rightNonempty := nonempty right (List.mem_cons_of_mem _ List.mem_cons_self)
    have same := agrees _ _ rfl rfl
    cases comparison with
    | gt | gte =>
      exact (Propagator.keeps_reified_congr rightNonempty leftNonempty same).mp consistent
    | eq | neq | lt | lte =>
      exact (Propagator.keeps_reified_congr leftNonempty rightNonempty same).mp consistent

/-- Two variables are equal just when they have the same values left. -/
theorem consistent_eq_iff {left right : VariableId} (leftNonempty : (family left).Nonempty)
    (rightNonempty : (family right).Nonempty) :
    Consistent ⟨.compare .eq, [left, right], none⟩ family ↔ family left = family right := by
  change (Propagator.relation .eq left right).Keeps family ↔ _
  rw [Propagator.keeps_relation_iff leftNonempty rightNonempty]
  constructor
  · rintro ⟨leftSupported, rightSupported⟩
    apply Domain.ext
    intro value
    constructor
    · intro inside
      obtain ⟨other, otherInside, rfl⟩ := leftSupported value inside
      exact otherInside
    · intro inside
      obtain ⟨other, otherInside, rfl⟩ := rightSupported value inside
      exact otherInside
  · intro same
    rw [same]
    exact ⟨fun value inside => ⟨value, inside, rfl⟩, fun value inside => ⟨value, inside, rfl⟩⟩

end Constraint

namespace Model

/-- The family is consistent with every declared constraint. -/
def Consistent (model : Model) (family : Family) : Prop :=
  ∀ constraint ∈ model.constraints.toList, constraint.Consistent family

/-- Some declared constraint orders a variable before itself. -/
def OrdersItself (model : Model) : Prop :=
  ∃ constraint ∈ model.constraints.toList, constraint.OrdersItself

/-! ### What one declaration demands -/

variable {model : Model} {constraint : Constraint} {family : Family}

/-- A constraint without a result can only have been declared as it is. -/
theorem Sound.eq_of_declared? (sound : model.Sound) (wellFormed : constraint.WellFormed)
    (noResult : constraint.result = none) {former : Constraint}
    (found : model.declared? constraint.operator constraint.operands = some former) :
    former = constraint := by
  obtain ⟨inside, sameOperator, sameOperands⟩ := mem_of_declared? found
  have formerFormed := sound.wellFormed former inside
  cases wellFormed with
  | compare | distinct =>
    cases formerFormed <;> cases sameOperator
    cases sameOperands
    rfl
  | plus | minus | mul | div | sum | product | reify => cases noResult

section Recorded

variable {valid : Constraint → Prop}

/-- A property of all constraints is one of the former ones and of the new one. -/
theorem forall_push_iff : (∀ other ∈ (model.constraints.push constraint).toList, valid other) ↔
    (∀ other ∈ model.constraints.toList, valid other) ∧ valid constraint := by
  simp only [Directory.toList_push, List.forall_mem_append, List.forall_mem_singleton]

/-- A constraint that was not pushed was declared before. -/
theorem Sound.forall_assert_iff (sound : model.Sound) (wellFormed : constraint.WellFormed)
    (new : constraint.result = none ∨
      model.declared? constraint.operator constraint.operands = none) :
    (∀ other ∈ (model.assert constraint).constraints.toList, valid other) ↔
      (∀ other ∈ model.constraints.toList, valid other) ∧ valid constraint := by
  rw [assert]
  split
  · exact forall_push_iff
  · rename_i declared
    cases found : model.declared? constraint.operator constraint.operands with
    | none => exact absurd (congrArg Option.isNone found) declared
    | some former =>
      have noResult : constraint.result = none := new.resolve_right (by simp [found])
      cases sound.eq_of_declared? wellFormed noResult found
      exact ⟨fun all => ⟨all, all _ (mem_of_declared? found).1⟩, And.left⟩

/-- All constraints after one was recorded are valid if they were before, the new one is, and its
result is that of the one that was declared before on the same operands. -/
theorem Sound.forall_record_iff {γ : Type} {valueOf : VariableId → γ} (sound : model.Sound)
    (wellFormed : constraint.WellFormed)
    (equal : ∀ existing < model.vars.size, ∀ result, constraint.result = some result →
      (valid ⟨.compare .eq, [existing, result], none⟩ ↔ valueOf existing = valueOf result))
    (follows : ∀ former ∈ model.constraints.toList, valid former →
      former.operator = constraint.operator → former.operands = constraint.operands →
        (∀ existing result, former.result = some existing → constraint.result = some result →
          valueOf existing = valueOf result) → valid constraint) :
    (∀ other ∈ (model.record constraint).constraints.toList, valid other) ↔
      (∀ other ∈ model.constraints.toList, valid other) ∧ valid constraint ∧
        ∀ former, model.declared? constraint.operator constraint.operands = some former →
          ∀ existing result, former.result = some existing → constraint.result = some result →
            valueOf existing = valueOf result := by
  cases found : model.declared? constraint.operator constraint.operands with
  | none =>
    have asserted : model.record constraint = model.assert constraint := by
      rw [record, found]
      rfl
    rw [asserted, sound.forall_assert_iff wellFormed (.inr found)]
    simp
  | some former =>
    cases isResult : constraint.result with
    | none =>
      rw [record_of_no_result isResult, sound.forall_assert_iff wellFormed (.inl isResult)]
      simp
    | some result =>
      obtain ⟨existing, formerResult, existingInside⟩ :=
        sound.exists_result found (wellFormed.producesValue_of_result isResult)
      obtain ⟨formerInside, sameOperator, sameOperands⟩ := mem_of_declared? found
      -- Only the equality of the two results is asserted, or nothing when they are the same
      -- variable.
      have recorded : (∀ other ∈ (model.record constraint).constraints.toList, valid other) ↔
          (∀ other ∈ model.constraints.toList, valid other) ∧
            valueOf existing = valueOf result := by
        simp only [record, found, Option.bind_some, formerResult, isResult]
        split
        · rw [sound.forall_assert_iff (.compare .eq existing result) (.inl rfl),
            equal existing existingInside result isResult]
        · rename_i same
          rw [Decidable.not_not.mp same]
          simp
      rw [recorded]
      constructor
      · rintro ⟨all, same⟩
        have agrees : ∀ other another, former.result = some other → some result = some another →
            valueOf other = valueOf another := by
          rw [formerResult]
          rintro _ _ ⟨rfl⟩ ⟨rfl⟩
          exact same
        have new := follows former formerInside (all former formerInside) sameOperator sameOperands
          (isResult ▸ agrees)
        refine ⟨all, new, ?_⟩
        rintro _ ⟨rfl⟩
        exact agrees
      · rintro ⟨all, _, agrees⟩
        exact ⟨all, agrees former rfl existing result formerResult rfl⟩

end Recorded

/-- A recorded constraint has to be consistent, and to agree with the one that was declared before
on the same operands. -/
theorem Sound.consistent_record_iff (sound : model.Sound) (wellFormed : constraint.WellFormed)
    (inside : ∀ variableId ∈ constraint.scope, variableId < model.vars.size)
    (nonempty : ∀ variableId < model.vars.size, (family variableId).Nonempty) :
    (model.record constraint).Consistent family ↔
      model.Consistent family ∧ constraint.Consistent family ∧ ∀ former,
        model.declared? constraint.operator constraint.operands = some former →
          former.Agrees constraint family := by
  apply sound.forall_record_iff wellFormed
  · intro existing existingInside result isResult
    have resultInside : result < model.vars.size :=
      inside result (by simp [Constraint.scope, isResult])
    exact Constraint.consistent_eq_iff (nonempty existing existingInside)
      (nonempty result resultInside)
  · intro former formerInside consistent sameOperator sameOperands agrees
    apply consistent.of_agrees (sound.wellFormed former formerInside) wellFormed sameOperator
      sameOperands agrees
    intro variableId isOperand
    exact nonempty variableId (inside variableId (List.mem_append_left _ isOperand))

/-- Restricting a truth value to 0 and 1 keeps a model sound. -/
theorem Sound.restricted (sound : model.Sound) (unprepared : model.network = none) :
    (model.restricted constraint).Sound := by
  rw [Model.restricted]
  split
  · exact sound
  · rename_i result isTruth
    apply sound.modify unprepared
    intro entry found
    rw [Directory.domainOf, found]
    exact Domain.inter_subset_left _ _

/-- What a model demands after a declaration that was accepted. -/
theorem Sound.consistent_declare_iff (sound : model.Sound) (wellFormed : constraint.WellFormed)
    (inside : ∀ variableId ∈ constraint.scope, variableId < model.vars.size)
    (nonempty : ∀ variableId < model.vars.size, (family variableId).Nonempty)
    (permitted : model.permits constraint = true) :
    (model.declare constraint).Consistent family ↔
      model.Consistent family ∧ constraint.Consistent family ∧ ∀ former,
        model.declared? constraint.operator constraint.operands = some former →
          former.Agrees constraint family := by
  have sameSize : (model.opened.restricted constraint).vars.size = model.vars.size :=
    size_restricted
  have sameDeclared : (model.opened.restricted constraint).declared? constraint.operator
      constraint.operands = model.declared? constraint.operator constraint.operands :=
        declared?_restricted ..
  have sameConsistent : (model.opened.restricted constraint).Consistent family ↔
      model.Consistent family := by
    rw [Consistent, constraints_restricted]
    rfl
  have soundRestricted : (model.opened.restricted constraint).Sound :=
    sound.withoutNetwork.restricted rfl
  rw [declare, if_pos permitted,
    soundRestricted.consistent_record_iff wellFormed (sameSize ▸ inside) (sameSize ▸ nonempty),
    sameConsistent, sameDeclared]

/-! ### What was declared before -/

/-- A pushed constraint is found only where no former one is. -/
theorem declared?_push (operator : Operator) (operands : List VariableId) :
    declared? { model with constraints := model.constraints.push constraint } operator operands =
      (model.declared? operator operands).or
        (if constraint.operator = operator ∧ constraint.operands = operands then some constraint
          else none) := by
  rw [declared?_eq_find?, declared?_eq_find?]
  simp only [Directory.push, Table.find?, Table.push, Array.find?_push, decide_eq_true_eq]

/-- Adding a constraint that may be declared already makes it found, and changes nothing else that
is found. -/
theorem declared?_assert (operator : Operator) (operands : List VariableId) :
    (model.assert constraint).declared? operator operands = (model.declared? operator operands).or
      (if constraint.operator = operator ∧ constraint.operands = operands then some constraint
        else none) := by
  rw [assert]
  split
  · exact declared?_push operator operands
  · rename_i declared
    split
    · rename_i same
      obtain ⟨rfl, rfl⟩ := same
      cases found : model.declared? constraint.operator constraint.operands with
      | none => exact absurd (congrArg Option.isNone found) declared
      | some former => rfl
    · rw [Option.or_none]

/-- The first constraint with an operator and operands stays the first. -/
theorem declared?_record_of_some {operator : Operator} {operands : List VariableId}
    {former : Constraint} (found : model.declared? operator operands = some former) :
    (model.record constraint).declared? operator operands = some former := by
  rw [record]
  split
  · split
    · rw [declared?_assert, found]
      rfl
    · exact found
  · rw [declared?_assert, found]
    rfl

/-- A constraint on new operands is the first one on them. -/
theorem declared?_record_of_none
    (new : model.declared? constraint.operator constraint.operands = none) :
    (model.record constraint).declared? constraint.operator constraint.operands =
      some constraint := by
  rw [record, new]
  simp only [Option.bind_none]
  rw [declared?_assert, new, if_pos ⟨rfl, rfl⟩]
  rfl

/-- Once a constraint is recorded, one with its operator and operands is declared. -/
theorem exists_declared?_record :
    ∃ former, (model.record constraint).declared? constraint.operator constraint.operands =
      some former := by
  cases found : model.declared? constraint.operator constraint.operands with
  | some former => exact ⟨former, declared?_record_of_some found⟩
  | none => exact ⟨constraint, declared?_record_of_none found⟩

/-- Recording a constraint declares no other one with a result. -/
theorem declared?_record_cases {operator : Operator} {operands : List VariableId}
    {former : Constraint} (productive : operator.producesValue = true)
    (found : (model.record constraint).declared? operator operands = some former) :
    model.declared? operator operands = some former ∨ former = constraint := by
  rw [record] at found
  split at found
  · split at found
    · rw [declared?_assert, if_neg (by rintro ⟨rfl, _⟩; cases productive), Option.or_none] at found
      exact .inl found
    · exact .inl found
  · rw [declared?_assert, Option.or_eq_some_iff] at found
    rcases found with before | ⟨_, added⟩
    · exact .inl before
    · split at added
      · cases added
        exact .inr rfl
      · cases added

/-! ### Variables that are ordered before themselves -/

/-- Whether a constraint orders a variable before itself does not depend on its result. -/
theorem ordersItself_of_declared? {operator : Operator} {operands : List VariableId}
    {former : Constraint} (found : model.declared? operator operands = some former)
    (sameOperator : constraint.operator = operator) (sameOperands : constraint.operands = operands)
    (ordersItself : constraint.OrdersItself) : model.OrdersItself := by
  obtain ⟨inside, formerOperator, formerOperands⟩ := mem_of_declared? found
  refine ⟨former, inside, ?_⟩
  rw [Constraint.OrdersItself, sameOperator, sameOperands] at ordersItself
  rw [Constraint.OrdersItself, formerOperator, formerOperands]
  exact ordersItself

/-- Adding a constraint adds just its own order, also if it was declared before. -/
theorem ordersItself_assert_iff :
    (model.assert constraint).OrdersItself ↔ model.OrdersItself ∨ constraint.OrdersItself := by
  rw [assert]
  split
  · simp only [OrdersItself, Directory.toList_push, List.mem_append, List.mem_singleton,
      or_and_right, exists_or, exists_eq_left]
  · rename_i declared
    refine ⟨.inl, fun either => either.elim id fun ordersItself => ?_⟩
    cases found : model.declared? constraint.operator constraint.operands with
    | none => exact absurd (congrArg Option.isNone found) declared
    | some former => exact ordersItself_of_declared? found rfl rfl ordersItself

/-- So does recording it: making two results equal orders nothing. -/
theorem ordersItself_record_iff :
    (model.record constraint).OrdersItself ↔ model.OrdersItself ∨ constraint.OrdersItself := by
  rw [record]
  split
  · rename_i existing result earlier _
    obtain ⟨former, found, _⟩ := Option.bind_eq_some_iff.mp earlier
    have declared : constraint.OrdersItself → model.OrdersItself :=
      ordersItself_of_declared? found rfl rfl
    have lax : ¬ Constraint.OrdersItself ⟨.compare .eq, [existing, result], none⟩ := by
      simp [Constraint.OrdersItself, Comparison.isStrict]
    split
    · rw [ordersItself_assert_iff, or_iff_left lax, or_iff_left_of_imp declared]
    · rw [or_iff_left_of_imp declared]
  · exact ordersItself_assert_iff

/-! ### What many declarations demand -/

/-- What is demanded of a family by a model in which further constraints were accepted, in whatever
order. -/
structure Demands (base : Model) (accepted : Constraint → Prop) (family : Family) : Prop where
  base_consistent : base.Consistent family
  consistent : ∀ constraint, accepted constraint → constraint.Consistent family
  agrees_former : ∀ constraint former, accepted constraint →
    base.declared? constraint.operator constraint.operands = some former →
      former.Agrees constraint family
  agrees : ∀ first second, accepted first → accepted second → first.operator = second.operator →
    first.operands = second.operands → first.Agrees second family

/-- The model is what the first one has become after further constraints were accepted, in whatever
order. -/
structure Declares (base : Model) (accepted : Constraint → Prop) (model : Model) : Prop where
  size_eq : model.vars.size = base.vars.size
  keyOf?_eq : ∀ name, model.vars.keyOf? name = base.vars.keyOf? name
  constants_eq : model.constants = base.constants
  strategy_eq : ∀ variableId,
    (model.vars.get? variableId).bind Variable.strategy =
      (base.vars.get? variableId).bind Variable.strategy
  mem_domainOf_iff : ∀ {variableId : VariableId} {value : Int},
    value ∈ model.vars.domainOf variableId ↔ value ∈ base.vars.domainOf variableId ∧
      ∀ constraint, accepted constraint → constraint.truthVariable? = some variableId →
        value ∈ Domain.range 0 1
  consistent_iff : ∀ {family : Family},
    (∀ variableId < base.vars.size, (family variableId).Nonempty) →
      (model.Consistent family ↔ base.Demands accepted family)
  declared?_of_base : ∀ {operator : Operator} {operands : List VariableId} {former : Constraint},
    base.declared? operator operands = some former → model.declared? operator operands = some former
  exists_declared? : ∀ {constraint : Constraint}, accepted constraint →
    ∃ former, model.declared? constraint.operator constraint.operands = some former
  declared?_cases : ∀ {operator : Operator} {operands : List VariableId} {former : Constraint},
    operator.producesValue = true → model.declared? operator operands = some former →
      base.declared? operator operands = some former ∨ accepted former
  ordersItself_iff : model.OrdersItself ↔
    base.OrdersItself ∨ ∃ constraint, accepted constraint ∧ constraint.OrdersItself

namespace Declares

variable {base : Model} {accepted : Constraint → Prop}

/-- A model declares nothing beyond itself. -/
theorem refl (base : Model) : base.Declares (fun _ => False) base where
  size_eq := rfl
  keyOf?_eq _ := rfl
  constants_eq := rfl
  strategy_eq _ := rfl
  mem_domainOf_iff := by simp
  consistent_iff _ := ⟨fun consistent => ⟨consistent, nofun, nofun, nofun⟩, Demands.base_consistent⟩
  declared?_of_base := id
  exists_declared? := nofun
  declared?_cases _ := .inl
  ordersItself_iff := by simp

/-- Operands stand for the same variables after any declarations over the model. -/
theorem referent?_eq (declares : base.Declares accepted model) :
    Operand.referent? model = Operand.referent? base := by
  funext operand
  cases operand with
  | named name => exact declares.keyOf?_eq name
  | position variableId => rw [Operand.referent?, Operand.referent?, declares.size_eq]
  | literal value =>
    rw [Operand.referent?, Operand.referent?, constant?, constant?, declares.constants_eq]

/-- Whether a variable can be a truth value has been decided from the start. -/
theorem permits_eq (declares : base.Declares accepted model) (constraint : Constraint) :
    model.permits constraint = base.permits constraint := by
  rw [permits, permits]
  cases constraint.truthVariable? with
  | none => rfl
  | some result =>
    have same : model.vars.domainOf result ∩ .range 0 1 =
        base.vars.domainOf result ∩ .range 0 1 := by
      apply Domain.ext
      intro value
      rw [Domain.mem_inter, Domain.mem_inter, declares.mem_domainOf_iff]
      constructor
      · rintro ⟨⟨inside, _⟩, isTruth⟩
        exact ⟨inside, isTruth⟩
      · rintro ⟨inside, isTruth⟩
        exact ⟨⟨inside, fun _ _ _ => isTruth⟩, isTruth⟩
    rw [Option.all_some, Option.all_some, same]

/-- The constraint that is found in the model agrees with each one on the same operands that is
demanded besides, whether it comes from the first model or was accepted later. -/
theorem agrees_of_declared? (declares : base.Declares accepted model)
    {demanded : Constraint → Prop} (demands : base.Demands demanded family)
    (includes : ∀ other, accepted other → demanded other) {former other : Constraint}
    (isDemanded : demanded other) (productive : other.operator.producesValue = true)
    (found : model.declared? other.operator other.operands = some former) :
    former.Agrees other family := by
  rcases declares.declared?_cases productive found with ofBase | isAccepted
  · exact demands.agrees_former other former isDemanded ofBase
  · obtain ⟨_, sameOperator, sameOperands⟩ := mem_of_declared? found
    exact demands.agrees former other (includes former isAccepted) isDemanded sameOperator
      sameOperands

/-- A further constraint only has to be compared with the first one on the same operands. -/
theorem demands_iff (declares : base.Declares accepted model) (sound : model.Sound)
    (wellFormed : constraint.WellFormed) :
    base.Demands (fun other => accepted other ∨ other = constraint) family ↔
      base.Demands accepted family ∧ constraint.Consistent family ∧
        ∀ former, model.declared? constraint.operator constraint.operands = some former →
          former.Agrees constraint family := by
  constructor
  · intro demands
    refine ⟨?_, demands.consistent constraint (.inr rfl), ?_⟩
    · exact ⟨demands.base_consistent, fun other isAccepted =>
        demands.consistent other (.inl isAccepted), fun other former isAccepted =>
          demands.agrees_former other former (.inl isAccepted),
        fun first second isFirst isSecond =>
          demands.agrees first second (.inl isFirst) (.inl isSecond)⟩
    · intro former found
      cases productive : constraint.operator.producesValue with
      | false => exact wellFormed.agrees_of_unproductive productive
      | true =>
        exact declares.agrees_of_declared? demands (fun _ => .inl) (.inr rfl) productive found
  · rintro ⟨demands, consistent, agrees⟩
    -- Two constraints on the same operands agree because both agree with the one that was declared
    -- first.
    have agreesNew : ∀ other, accepted other → other.operator = constraint.operator →
        other.operands = constraint.operands → other.Agrees constraint family := by
      intro other isAccepted sameOperator sameOperands
      cases productive : constraint.operator.producesValue with
      | false => exact wellFormed.agrees_of_unproductive productive
      | true =>
        obtain ⟨former, found⟩ := declares.exists_declared? isAccepted
        have agreesOther := declares.agrees_of_declared? demands (fun _ => id) isAccepted
          (sameOperator ▸ productive) found
        rw [sameOperator, sameOperands] at found
        obtain ⟨existing, hasResult, _⟩ := sound.exists_result found productive
        exact agreesOther.symm.trans hasResult (agrees former found)
    refine ⟨demands.base_consistent, ?_, ?_, ?_⟩
    · rintro other (isAccepted | rfl)
      · exact demands.consistent other isAccepted
      · exact consistent
    · rintro other former (isAccepted | rfl) ofBase
      · exact demands.agrees_former other former isAccepted ofBase
      · exact agrees former (declares.declared?_of_base ofBase)
    · rintro first second (firstAccepted | rfl) (secondAccepted | rfl) sameOperator sameOperands
      · exact demands.agrees first second firstAccepted secondAccepted sameOperator sameOperands
      · exact agreesNew first firstAccepted sameOperator sameOperands
      · exact (agreesNew second secondAccepted sameOperator.symm sameOperands.symm).symm
      · exact Constraint.Agrees.refl _ family

/-- A declaration that is accepted adds its constraint. -/
theorem declare (declares : base.Declares accepted model) (sound : model.Sound)
    (wellFormed : constraint.WellFormed)
    (inside : ∀ variableId ∈ constraint.scope, variableId < model.vars.size)
    (permitted : model.permits constraint = true) :
    base.Declares (fun other => accepted other ∨ other = constraint)
      (model.declare constraint) := by
  have vars_eq : (model.declare constraint).vars = (model.opened.restricted constraint).vars := by
    rw [Model.declare, if_pos permitted, vars_record]
  have declared?_eq : ∀ operator operands,
      (model.opened.restricted constraint).declared? operator operands =
        model.declared? operator operands := declared?_restricted
  constructor
  case size_eq =>
    rw [vars_eq, size_restricted]
    exact declares.size_eq
  case keyOf?_eq =>
    intro name
    rw [vars_eq, keyOf?_restricted]
    exact declares.keyOf?_eq name
  case constants_eq =>
    rw [Model.declare, if_pos permitted, constants_record, constants_restricted]
    exact declares.constants_eq
  case strategy_eq =>
    intro variableId
    rw [vars_eq, strategy_restricted]
    exact declares.strategy_eq variableId
  case mem_domainOf_iff =>
    intro variableId value
    rw [vars_eq, mem_domainOf_restricted]
    change value ∈ model.vars.domainOf variableId ∧ _ ↔ _
    rw [declares.mem_domainOf_iff]
    constructor
    · rintro ⟨⟨inBase, former⟩, new⟩
      refine ⟨inBase, ?_⟩
      rintro other (isAccepted | rfl) isTruth
      · exact former other isAccepted isTruth
      · exact new isTruth
    · rintro ⟨inBase, all⟩
      exact ⟨⟨inBase, fun other isAccepted => all other (.inl isAccepted)⟩,
        all constraint (.inr rfl)⟩
  case consistent_iff =>
    intro family nonempty
    rw [sound.consistent_declare_iff wellFormed inside (declares.size_eq ▸ nonempty) permitted,
      declares.consistent_iff nonempty, declares.demands_iff sound wellFormed]
  case declared?_of_base =>
    intro operator operands former ofBase
    rw [Model.declare, if_pos permitted]
    exact declared?_record_of_some ((declared?_eq _ _).trans (declares.declared?_of_base ofBase))
  case exists_declared? =>
    rw [Model.declare, if_pos permitted]
    rintro other (isAccepted | rfl)
    · obtain ⟨former, found⟩ := declares.exists_declared? isAccepted
      exact ⟨former, declared?_record_of_some ((declared?_eq _ _).trans found)⟩
    · exact exists_declared?_record
  case declared?_cases =>
    intro operator operands former productive found
    rw [Model.declare, if_pos permitted] at found
    rcases declared?_record_cases productive found with before | rfl
    · exact (declares.declared?_cases productive ((declared?_eq _ _).symm.trans before)).imp_right
        .inl
    · exact .inr (.inr rfl)
  case ordersItself_iff =>
    have sameOrders : (model.opened.restricted constraint).OrdersItself ↔ model.OrdersItself := by
      rw [OrdersItself, constraints_restricted]
      rfl
    rw [Model.declare, if_pos permitted, ordersItself_record_iff, sameOrders,
      declares.ordersItself_iff, or_assoc]
    simp only [or_and_right, exists_or, exists_eq_left]

/-- A declaration that is refused leaves all as it was. -/
theorem refuse (declares : base.Declares accepted model)
    (refused : model.permits constraint = false) :
    base.Declares accepted (model.declare constraint) := by
  rw [Model.declare, refused]
  exact ⟨declares.size_eq, declares.keyOf?_eq, declares.constants_eq, declares.strategy_eq,
    declares.mem_domainOf_iff, declares.consistent_iff, declares.declared?_of_base,
    declares.exists_declared?, declares.declared?_cases, declares.ordersItself_iff⟩

end Declares

/-- Two models with the same variables make the same demands of their domains. -/
structure Alike (first second : Model) : Prop where
  size_eq : first.vars.size = second.vars.size
  strategy_eq : ∀ variableId,
    (first.vars.get? variableId).bind Variable.strategy =
      (second.vars.get? variableId).bind Variable.strategy
  domainOf_eq : ∀ variableId, first.vars.domainOf variableId = second.vars.domainOf variableId
  consistent_iff : ∀ {family : Family},
    (∀ variableId < first.vars.size, (family variableId).Nonempty) →
      (first.Consistent family ↔ second.Consistent family)
  ordersItself_iff : first.OrdersItself ↔ second.OrdersItself

theorem Alike.symm {first second : Model} (alike : first.Alike second) : second.Alike first where
  size_eq := alike.size_eq.symm
  strategy_eq variableId := (alike.strategy_eq variableId).symm
  domainOf_eq variableId := (alike.domainOf_eq variableId).symm
  consistent_iff nonempty := (alike.consistent_iff (alike.size_eq ▸ nonempty)).symm
  ordersItself_iff := alike.ordersItself_iff.symm

/-- The order in which constraints were accepted makes no difference. -/
theorem Declares.alike {base first second : Model} {accepted : Constraint → Prop}
    (declaresFirst : base.Declares accepted first)
    (declaresSecond : base.Declares accepted second) : first.Alike second where
  size_eq := declaresFirst.size_eq.trans declaresSecond.size_eq.symm
  strategy_eq variableId :=
    (declaresFirst.strategy_eq variableId).trans (declaresSecond.strategy_eq variableId).symm
  domainOf_eq variableId := by
    apply Domain.ext
    intro value
    rw [declaresFirst.mem_domainOf_iff, declaresSecond.mem_domainOf_iff]
  consistent_iff nonempty := by
    have nonemptyBase := declaresFirst.size_eq ▸ nonempty
    rw [declaresFirst.consistent_iff nonemptyBase, declaresSecond.consistent_iff nonemptyBase]
  ordersItself_iff := declaresFirst.ordersItself_iff.trans declaresSecond.ordersItself_iff.symm

/-- The constraint is among the declared ones and is not refused. -/
def Accepts (base : Model) (declarations : List Declaration) (constraint : Constraint) : Prop :=
  ∃ declaration ∈ declarations, declaration.constraint? base = some constraint ∧
    base.permits constraint = true

/-- A further declaration accepts its own constraint, unless that is refused. -/
theorem accepts_append_iff {base : Model} {rest : List Declaration} {last : Declaration}
    {other : Constraint} (found : last.constraint? base = some constraint) :
    base.Accepts (rest ++ [last]) other ↔
      base.Accepts rest other ∨ (other = constraint ∧ base.permits constraint = true) := by
  simp only [Accepts, List.mem_append, List.mem_singleton, or_and_right, exists_or, exists_eq_left,
    found, Option.some.injEq]
  constructor
  · rintro (before | ⟨rfl, permitted⟩)
    · exact .inl before
    · exact .inr ⟨rfl, permitted⟩
  · rintro (before | ⟨rfl, permitted⟩)
    · exact .inl before
    · exact .inr ⟨rfl, permitted⟩

end Model

namespace Workspace

/-- The workspace after declarations that are made one after the other. -/
def declaring (base : Workspace) (declarations : List Declaration) : Workspace :=
  declarations.foldl (fun workspace declaration => declaration.request.after workspace) base

/-- The last declaration is made after all others. -/
theorem declaring_append (base : Workspace) (rest : List Declaration) (last : Declaration) :
    base.declaring (rest ++ [last]) = last.request.after (base.declaring rest) :=
  List.foldl_append

/-- Declarations lead from a reachable workspace to reachable ones. -/
theorem Reachable.declaring {base : Workspace} (reachable : base.Reachable)
    (declarations : List Declaration) : (base.declaring declarations).Reachable := by
  induction declarations using List.reverseRecOn with
  | nil => exact reachable
  | append_singleton rest last inductionHypothesis =>
    rw [declaring_append]
    exact .request inductionHypothesis last.request

/-- Each declaration adds its constraint or is refused, whatever was declared before. -/
theorem Reachable.declares {base : Workspace} (reachable : base.Reachable)
    {declarations : List Declaration}
    (overBase : ∀ declaration ∈ declarations, declaration.Over base.model) :
    base.model.Declares (base.model.Accepts declarations) (base.declaring declarations).model := by
  induction declarations using List.reverseRecOn with
  | nil =>
    have none : base.model.Accepts [] = fun _ => False := by
      funext constraint
      simp [Model.Accepts]
    rw [none]
    exact .refl base.model
  | append_singleton rest last inductionHypothesis =>
    have declares := inductionHypothesis fun declaration inside =>
      overBase declaration (List.mem_append_left _ inside)
    obtain ⟨wellFormed, isSome⟩ := overBase last (List.mem_append_right _ List.mem_cons_self)
    obtain ⟨constraint, foundBase⟩ := Option.isSome_iff_exists.mp isSome
    have found : last.constraint? (base.declaring rest).model = some constraint := by
      rw [← foundBase, Declaration.constraint?, Declaration.constraint?, declares.referent?_eq]
    have sound := (reachable.declaring rest).sound
    rw [declaring_append, Declaration.model_after sound wellFormed found]
    cases permitted : (base.declaring rest).model.permits constraint with
    | false =>
      have same : base.model.Accepts (rest ++ [last]) = base.model.Accepts rest := by
        funext other
        simp [Model.accepts_append_iff foundBase, ← declares.permits_eq, permitted]
      rw [same]
      exact declares.refuse permitted
    | true =>
      have grown : base.model.Accepts (rest ++ [last]) = fun other =>
          base.model.Accepts rest other ∨ other = constraint := by
        funext other
        simp [Model.accepts_append_iff foundBase, ← declares.permits_eq, permitted]
      rw [grown]
      exact declares.declare sound (last.wellFormed_constraint wellFormed found)
        (last.lt_size_of_mem_scope sound found) permitted

end Workspace

end ConstraintSearch
