import ConstraintSearch.Proofs.Model.Retaining

/-!
# What a call records

A call that declares a constraint resolves its operands and its result to variables, and records the
constraint over them (`Model.record`): it is added, or shares the result of an earlier constraint
with the same operator and operands, or is made equal to it. `Build.leads_addConstraint` says so of
every call, whatever its operands and result are; a call that is refused records nothing.
-/

namespace ConstraintSearch

open Build

/-- The truth value of the constraint, if it has one, has some value left. -/
def Constraint.HasTruth (constraint : Constraint) (vars : Variables) : Prop :=
  ∀ result, constraint.truthVariable? = some result → (vars.domainOf result).Nonempty

/-- A constraint without a result has no truth value. -/
theorem Constraint.hasTruth_of_no_result {constraint : Constraint}
    (noResult : constraint.result = none) (vars : Variables) : constraint.HasTruth vars := by
  intro result isTruth
  cases noResult.symm.trans (truthVariable?_eq_some_iff.mp isTruth).2

namespace Model

/-- The truth values of all constraints have some value left. -/
def Truthful (model : Model) : Prop :=
  ∀ constraint ∈ model.constraints.toList, constraint.HasTruth model.vars

/-- The constraint that a successful declaration has come to. -/
structure Records (before after : Model) (declaration : Declaration) (constraint : Constraint) :
    Prop extends before.Retains after where
  operator_eq : constraint.operator = declaration.operator
  operands_found : declaration.operands.mapM (Operand.referent? after) = some constraint.operands
  wellFormed : constraint.WellFormed
  constraints_eq : after.constraints = (before.record constraint).constraints
  truthful : before.Truthful → after.Truthful
  named : ∀ operand, declaration.result = some operand →
    ∃ result, constraint.result = some result ∧ operand.referent? after = some result
  /-- An anonymous result is a new variable, or that of an earlier constraint. -/
  anonymous : declaration.result = none → ∀ result, constraint.result = some result →
    result < before.vars.size →
      ∃ former, before.declared? constraint.operator constraint.operands = some former ∧
        former.result = some result

variable {former later : Model}

/-- Operands that stand for variables go on to stand for them. -/
theorem Retains.mapM_referent? (retains : former.Retains later) {operands : List Operand}
    {variableIds : List VariableId}
    (found : operands.mapM (Operand.referent? former) = some variableIds) :
    operands.mapM (Operand.referent? later) = some variableIds :=
  mapM_of_forall₂ ((forall₂_of_mapM found).imp fun _ _ => retains.referent?_of_some)

/-- A truth value that has some value left keeps one. -/
theorem Retains.hasTruth (retains : former.Retains later) {constraint : Constraint}
    (hasTruth : constraint.HasTruth former.vars) : constraint.HasTruth later.vars :=
  fun result isTruth => retains.nonempty (hasTruth result isTruth)

/-- Truth values keep some value if those of added constraints have one. -/
theorem Retains.truthful (retains : former.Retains later)
    (added : ∀ constraint ∈ later.constraints.toList,
      constraint ∈ former.constraints.toList ∨ constraint.HasTruth later.vars)
    (truthful : former.Truthful) :
    later.Truthful := by
  intro constraint inside
  rcases added constraint inside with before | new
  · exact retains.hasTruth (truthful constraint before)
  · exact new

/-- A step that keeps the constraints keeps their truth values. -/
theorem Keeps.truthful (keeps : former.Keeps later) : former.Truthful → later.Truthful :=
  keeps.toRetains.truthful fun _ inside => .inl (keeps.constraints_eq ▸ inside)

/-- Adding a constraint adds no other one. -/
theorem mem_of_mem_assert {model : Model} {constraint other : Constraint}
    (inside : other ∈ (model.assert constraint).constraints.toList) :
    other ∈ model.constraints.toList ∨ other = constraint := by
  rw [assert] at inside
  split at inside
  · rw [Directory.toList_push, List.mem_append, List.mem_singleton] at inside
    exact inside
  · exact .inl inside

/-- Constraints without a result have no truth value. -/
theorem Retains.truthful_of_assert (retains : former.Retains later) {constraint : Constraint}
    (noResult : constraint.result = none)
    (asserted : later.constraints = (former.assert constraint).constraints) :
    former.Truthful → later.Truthful := by
  refine retains.truthful fun other inside => ?_
  rw [asserted] at inside
  refine (mem_of_mem_assert inside).imp_right ?_
  rintro rfl
  exact Constraint.hasTruth_of_no_result noResult later.vars

/-- Which constraint is found depends on the constraints only. -/
theorem declared?_congr (same : later.constraints = former.constraints) :
    later.declared? = former.declared? := by
  funext operator operands
  rw [declared?, declared?, same]

/-- So does what is added. -/
theorem constraints_assert_congr (same : later.constraints = former.constraints)
    (constraint : Constraint) :
    (later.assert constraint).constraints = (former.assert constraint).constraints := by
  simp only [assert, declared?_congr same]
  split
  · exact congrArg (·.push constraint) same
  · exact same

/-- The result of an earlier constraint is kept, and the new one made equal to it. -/
theorem record_of_existing {model : Model} {constraint : Constraint} {existing result : VariableId}
    (declared : (model.declared? constraint.operator constraint.operands).bind Constraint.result =
      some existing)
    (isResult : constraint.result = some result) :
    model.record constraint =
      if result ≠ existing then model.assert ⟨.compare .eq, [existing, result], none⟩
        else model := by
  rw [record, declared, isResult]

/-- Without an earlier constraint the new one is added. -/
theorem Sound.constraints_record_of_new {model : Model} {constraint : Constraint}
    (sound : model.Sound) (productive : constraint.operator.producesValue = true)
    (new : (model.declared? constraint.operator constraint.operands).bind
      Constraint.result = none) :
    (model.record constraint).constraints = model.constraints.push constraint := by
  have undeclared : model.declared? constraint.operator constraint.operands = none := by
    cases found : model.declared? constraint.operator constraint.operands with
    | none => rfl
    | some former =>
      obtain ⟨existing, isResult, _⟩ := sound.exists_result found productive
      rw [found, Option.bind_some, isResult] at new
      cases new
  rw [record, new]
  dsimp only
  rw [assert, if_pos (Option.isNone_iff_eq_none.mpr undeclared)]

end Model

/-- A position stands for the variable at it. -/
theorem Operand.eq_of_referent?_position {model : Model} {variableId other : VariableId}
    (found : (position variableId).referent? model = some other) : variableId = other := by
  rw [referent?] at found
  split at found
  · exact Option.some.inj found
  · cases found

namespace Build

/-! ### Operands and results -/

variable {start : Model}

/-- An operand is resolved to the variable that it stands for afterwards. -/
theorem leads_resolveOperand (unprepared : start.network = none) (operand : Operand) :
    Leads (resolveOperand operand) start
      (fun variableId after => start.Grows after ∧ operand.referent? after = some variableId)
        start.Grows := by
  cases operand with
  | named name =>
    apply Leads.bind_of_gives Gives.model
    split
    · rename_i variableId found
      rw [Model.find?, Model.allVariables, unprepared] at found
      exact .pure ⟨.refl _, found⟩
    · exact .refuse _ (.refl _)
  | position variableId =>
    apply Leads.bind_of_gives Gives.model
    split
    · rename_i inside
      exact .pure ⟨.refl _, if_pos inside⟩
    · exact .refuse _ (.refl _)
  | literal value =>
    apply (leads_checkValue (.refl start) value).bind
    rintro _ _ ⟨rfl, rfl, bounds⟩
    exact (leads_constantFor _ bounds).imp (fun _ _ =>
      And.imp_right ((if_pos bounds).trans ·)) fun _ => id

/-- So are the operands of a list, whose variables stay as the model grows. -/
theorem leads_mapM_resolveOperand (unprepared : start.network = none) (operands : List Operand) :
    Leads (operands.mapM resolveOperand) start
      (fun variableIds after => start.Grows after ∧
        operands.mapM (Operand.referent? after) = some variableIds)
      start.Grows := by
  induction operands generalizing start with
  | nil => exact .pure ⟨.refl _, rfl⟩
  | cons first rest inductionHypothesis =>
    rw [List.mapM_cons]
    apply (leads_resolveOperand unprepared first).bind
    rintro variableId middle ⟨lower, firstFound⟩
    apply ((inductionHypothesis (lower.unprepared unprepared)).imp_refused fun _ =>
      lower.trans).bind
    rintro others after ⟨upper, restFound⟩
    refine .pure ⟨lower.trans upper, ?_⟩
    rw [List.mapM_cons, upper.referent?_of_some firstFound, restFound]
    rfl

/-- Dropping the network leaves a model without one. -/
theorem leads_invalidate :
    Leads invalidate start (fun _ after => start.Grows after ∧ after.network = none)
      start.Grows := by
  intro workspace starts
  have grows := follows_invalidate start workspace starts
  obtain ⟨succeeded, left⟩ := gives_invalidate workspace starts
  rcases ran : invalidate.run workspace with ⟨outcome, after⟩
  rw [ran] at grows succeeded left
  subst succeeded
  exact ⟨grows, left ▸ rfl⟩

/-- The operands of a declaration are resolved in this way, once the network is dropped. -/
theorem leads_resolveOperands (operands : List Operand) :
    Leads (resolveOperands operands) start
      (fun variableIds after => start.Grows after ∧ after.network = none ∧
        operands.mapM (Operand.referent? after) = some variableIds) start.Grows := by
  apply leads_invalidate.bind
  rintro _ middle ⟨lower, unprepared⟩
  refine (leads_mapM_resolveOperand unprepared operands).imp ?_ fun _ => lower.trans
  rintro variableIds after ⟨upper, found⟩
  exact ⟨lower.trans upper, upper.unprepared unprepared, found⟩

/-- A variable that has been restricted to truth values has one of them left. -/
theorem leads_restrictToTruth (variableId : VariableId) :
    Leads (restrictToTruth variableId) start
      (fun _ after => start.Grows after ∧ (after.vars.domainOf variableId).Nonempty)
        start.Grows := by
  cases empty : (start.vars.domainOf variableId ∩ .range 0 1).isEmpty with
  | true => exact .of_refuses (refuses_restrictToTruth empty) (.refl start)
  | false =>
    have canBeTruth : (start.vars.domainOf variableId ∩ .range 0 1).Nonempty :=
      Domain.isEmpty_eq_false_iff.mp empty
    refine .of_gives (gives_restrictToTruth empty)
      ⟨Model.grows_modify _ (fun entry found => ?_) fun _ _ _ => canBeTruth, ?_⟩
    · rw [Directory.domainOf, found]
      exact Domain.inter_subset_left _ _
    · dsimp only
      rw [Directory.domainOf_modify, if_pos rfl]
      obtain ⟨value, member⟩ := canBeTruth
      obtain ⟨entry, found, _⟩ :=
        Directory.exists_get?_of_mem_domainOf (Domain.mem_inter.mp member).1
      rw [found]
      exact ⟨value, member⟩

/-- A result is resolved to the variable that it stands for, and has some truth value left where it
needs one. -/
theorem leads_resolveResult (unprepared : start.network = none) (operator : Operator)
    (operand : Operand) : Leads (resolveResult operator operand) start
      (fun variableId after => start.Grows after ∧ operand.referent? after = some variableId ∧
        (operator.isReified → (after.vars.domainOf variableId).Nonempty)) start.Grows := by
  have truthful : Leads (resolveOperand operand >>= fun variableId => do
      restrictToTruth variableId
      pure variableId) start
      (fun variableId after => start.Grows after ∧ operand.referent? after = some variableId ∧
        (operator.isReified → (after.vars.domainOf variableId).Nonempty)) start.Grows := by
    apply (leads_resolveOperand unprepared operand).bind
    rintro variableId middle ⟨lower, found⟩
    apply ((leads_restrictToTruth variableId).imp_refused fun _ => lower.trans).bind
    rintro _ after ⟨upper, canBeTruth⟩
    exact .pure ⟨lower.trans upper, upper.referent?_of_some found, fun _ => canBeTruth⟩
  rw [resolveResult]
  split
  · rename_i plain
    have unreified : ¬ operator.isReified := by simpa using plain
    exact (leads_resolveOperand unprepared operand).imp
      (fun _ _ led => ⟨led.1, led.2, fun reified => absurd reified unreified⟩) fun _ => id
  · dsimp only
    split
    · split
      · exact .refuse_bind _ _ (.refl _)
      · exact truthful
    · exact truthful

/-! ### Constraints -/

/-- A check of the number of operands tells whether the operator takes so many. -/
theorem leads_checkArity (operator : Operator) (operands : List Operand) :
    Leads (Build.check (checkArity operator operands)) start
      (fun _ after => after = start ∧ operator.arity.accepts operands.length) start.Keeps :=
  .check (fun _ passed => ⟨rfl, accepts_of_checkArity passed⟩) (.refl _)

/-- A comparison that is declared without a result is added over the variables that its operands
stand for. -/
theorem leads_addComparison (operator : Operator) (operands : List Operand) :
    Leads (addComparison operator operands) start
      (fun _ after => ∃ variableIds, operator.arity.accepts operands.length ∧ start.Retains after ∧
        operands.mapM (Operand.referent? after) = some variableIds ∧
        after.constraints = (start.assert ⟨operator, variableIds, none⟩).constraints)
          start.Keeps := by
  apply (leads_checkArity operator operands).bind
  rintro _ _ ⟨rfl, accepts⟩
  apply ((leads_resolveOperands operands).imp_refused fun _ => Model.Grows.toKeeps).bind
  rintro variableIds middle ⟨grows, _, found⟩
  apply Leads.bind_of_gives Gives.model
  have asserted := Model.constraints_assert_congr grows.constraints_eq ⟨operator, variableIds, none⟩
  rw [Model.assert] at asserted
  split
  · rename_i new
    rw [if_pos new] at asserted
    exact .of_gives (Gives.update _) ⟨variableIds, accepts, grows.toRetains.trans (.of_eq rfl rfl),
      found, asserted⟩
  · rename_i declared
    rw [if_neg declared] at asserted
    exact .pure ⟨variableIds, accepts, grows.toRetains, found, asserted⟩

/-- The results of two constraints with the same operands are made equal, if they are not the same
variable. -/
theorem leads_unify (operator : Operator) (existing result : VariableId) :
    Leads (do
      let vars := (← Build.model).vars
      report (.resultsUnified operator.name (vars.nameOf existing) (vars.nameOf result))
      addComparison (.compare .eq) [.position existing, .position result]
      Pure.pure result) start
      (fun returned after => returned = result ∧ start.Retains after ∧
        after.constraints = (start.assert ⟨.compare .eq, [existing, result], none⟩).constraints)
        start.Keeps := by
  refine .bind_of_gives Gives.model
    (.bind_of_gives (Gives.report _) ((leads_addComparison _ _).bind ?_))
  rintro _ after ⟨variableIds, _, retains, found, asserted⟩
  cases forall₂_of_mapM found with
  | cons isExisting rest =>
    cases rest with
    | cons isResult rest =>
      cases rest
      cases Operand.eq_of_referent?_position isExisting
      cases Operand.eq_of_referent?_position isResult
      exact .pure ⟨rfl, retains, asserted⟩

/-- A constraint without an earlier one is added. -/
theorem leads_pushResult {middle : Model} {operator : Operator} {operands : List Operand}
    {asked : Option Operand} {variableIds : List VariableId} {result : VariableId}
    (sound : start.Sound) (productive : operator.producesValue = true)
    (new : (start.declared? operator variableIds).bind Constraint.result = none)
    (grows : start.Grows middle) (operandsFound : operands.mapM (Operand.referent? middle) =
      some variableIds) (wellFormed : Constraint.WellFormed ⟨operator, variableIds, some result⟩)
    (truth : operator.isReified → (middle.vars.domainOf result).Nonempty)
    (named : ∀ operand, asked = some operand → operand.referent? middle = some result)
    (anonymous : asked = none → start.vars.size ≤ result) :
    Leads (do
      pushConstraint ⟨operator, variableIds, some result⟩
      Pure.pure result) middle
      (fun returned after => ∃ constraint,
        start.Records after ⟨operator, operands, asked⟩ constraint ∧
          constraint.result = some returned) start.Keeps := by
  have pushes : middle.Retains { middle with constraints := middle.constraints.push ⟨operator,
      variableIds, some result⟩ } :=
    .of_eq rfl rfl
  refine .bind_of_gives (Gives.update _) (.pure ⟨⟨operator, variableIds, some result⟩, ?_, rfl⟩)
  refine ⟨grows.toRetains.trans pushes, rfl, pushes.mapM_referent? operandsFound, wellFormed,
    ?_, ?_, ?_, ?_⟩
  · rw [sound.constraints_record_of_new productive new, ← grows.constraints_eq]
  · refine (grows.toRetains.trans pushes).truthful fun other inside => ?_
    rw [Directory.toList_push, List.mem_append, List.mem_singleton, grows.constraints_eq] at inside
    refine inside.imp_right ?_
    rintro rfl other isTruth
    obtain ⟨reified, ⟨⟩⟩ := Constraint.truthVariable?_eq_some_iff.mp isTruth
    exact truth reified
  · exact fun operand isNamed => ⟨result, rfl, pushes.referent?_of_some (named operand isNamed)⟩
  · rintro isAnonymous _ ⟨rfl⟩ old
    exact absurd (anonymous isAnonymous) (Nat.not_le_of_lt old)

/-- The result of a constraint with an earlier one is made equal to that one's. -/
theorem leads_shareResult {middle : Model} {operator : Operator} {operands : List Operand}
    {asked : Operand} {variableIds : List VariableId} {existing result : VariableId}
    (declared : (start.declared? operator variableIds).bind Constraint.result = some existing)
    (grows : start.Grows middle)
    (operandsFound : operands.mapM (Operand.referent? middle) = some variableIds)
    (wellFormed : Constraint.WellFormed ⟨operator, variableIds, some result⟩)
    (resultFound : asked.referent? middle = some result) :
    Leads (do
      if result ≠ existing then
        let vars := (← Build.model).vars
        report (.resultsUnified operator.name (vars.nameOf existing) (vars.nameOf result))
        addComparison (.compare .eq) [.position existing, .position result]
      Pure.pure result) middle
      (fun returned after => ∃ constraint,
        start.Records after ⟨operator, operands, some asked⟩ constraint ∧
          constraint.result = some returned) start.Keeps := by
  have recorded : start.record ⟨operator, variableIds, some result⟩ =
      if result ≠ existing then start.assert ⟨.compare .eq, [existing, result], none⟩ else start :=
    Model.record_of_existing declared rfl
  have records : ∀ {after}, middle.Retains after →
      after.constraints = (start.record ⟨operator, variableIds, some result⟩).constraints →
        start.Records after ⟨operator, operands, some asked⟩
        ⟨operator, variableIds, some result⟩ := by
    intro after retains constraints_eq
    refine ⟨grows.toRetains.trans retains, rfl, retains.mapM_referent? operandsFound, wellFormed,
      constraints_eq, ?_, ?_, nofun⟩
    · rw [recorded] at constraints_eq
      split at constraints_eq
      · exact (grows.toRetains.trans retains).truthful_of_assert rfl constraints_eq
      · exact (grows.toRetains.trans retains).truthful fun _ inside =>
          .inl (constraints_eq ▸ inside)
    · rintro _ ⟨rfl⟩
      exact ⟨result, rfl, retains.referent?_of_some resultFound⟩
  dsimp only
  split
  · rename_i different
    rw [if_pos different] at recorded
    apply ((leads_unify operator existing result).imp_refused fun _ =>
      grows.toKeeps.trans).imp _ fun _ => id
    rintro _ later ⟨rfl, retains, asserted⟩
    refine ⟨_, records retains ?_, rfl⟩
    rw [asserted, recorded, Model.constraints_assert_congr grows.constraints_eq]
  · rename_i same
    rw [if_neg same] at recorded
    refine .pure ⟨_, records (.refl middle) ?_, rfl⟩
    rw [recorded, grows.constraints_eq]

/-- A constraint that is declared with a result, or with one to be found or added, is recorded over
the variables that its operands and its result stand for. The cases are whether one with the same
operator and operands has a result, and whether a result is given. -/
theorem leads_addValueConstraint {operator : Operator} {operands : List Operand}
    {result : Option Operand} (sound : start.Sound) (productive : operator.producesValue = true) :
    Leads (addValueConstraint operator operands result) start
      (fun returned after => ∃ constraint,
        start.Records after ⟨operator, operands, result⟩ constraint ∧
          constraint.result = some returned) start.Keeps := by
  apply (leads_checkArity operator operands).bind
  rintro _ _ ⟨rfl, accepts⟩
  rename_i start
  apply ((leads_resolveOperands operands).imp_refused fun _ => Model.Grows.toKeeps).bind
  rintro variableIds middle ⟨lower, unprepared, operandsFound⟩
  have wellFormed : ∀ result, Constraint.WellFormed ⟨operator, variableIds, some result⟩ :=
    fun result =>
      Constraint.wellFormed_of_accepts ((forall₂_of_mapM operandsFound).length_eq ▸ accepts)
        productive.symm
  have resolves : ∀ operand, Leads (resolveResult operator operand) middle
      (fun result after => middle.Grows after ∧ operand.referent? after = some result ∧
        (operator.isReified → (after.vars.domainOf result).Nonempty)) start.Keeps := fun operand =>
    (leads_resolveResult unprepared operator operand).imp_refused fun _ upper =>
      (lower.trans upper).toKeeps
  apply Leads.bind_of_gives Gives.model
  rw [Model.declared?_congr lower.constraints_eq]
  -- Resolving the operands has not changed the constraints, so the former ones decide what becomes
  -- of the result.
  cases declared : (start.declared? operator variableIds).bind Constraint.result with
  | none =>
    cases result with
    | none =>
      have pushes := middle.grows_pushAnonymous operator.resultDomain
      refine .bind_of_gives (gives_pushAnonymous _) ?_
      apply leads_pushResult sound productive declared (lower.trans pushes)
      · exact pushes.toRetains.mapM_referent? operandsFound
      · exact wellFormed _
      · intro reified
        rw [Directory.domainOf_pushAnonymous_size, Operator.resultDomain, if_pos reified]
        exact ⟨0, Domain.mem_range.mpr (by decide)⟩
      · rintro _ ⟨⟩
      · exact fun _ => lower.size_le
    | some operand =>
      apply (resolves operand).bind
      rintro result after ⟨upper, resultFound, truth⟩
      apply leads_pushResult sound productive declared (lower.trans upper)
      · exact upper.toRetains.mapM_referent? operandsFound
      · exact wellFormed _
      · exact truth
      · rintro _ ⟨rfl⟩
        exact resultFound
      · rintro ⟨⟩
  | some existing =>
    cases result with
    | none =>
      refine .pure ⟨⟨operator, variableIds, some existing⟩,
        ⟨lower.toRetains, rfl, operandsFound, wellFormed _, ?_, lower.truthful, ?_, ?_⟩, rfl⟩
      · rw [Model.record_of_existing declared rfl, if_neg (not_not_intro rfl)]
        exact lower.constraints_eq
      · rintro _ ⟨⟩
      · rintro _ _ ⟨rfl⟩ _
        exact Option.bind_eq_some_iff.mp declared
    | some operand =>
      apply (resolves operand).bind
      rintro result after ⟨upper, resultFound, _⟩
      exact leads_shareResult declared (lower.trans upper)
        (upper.toRetains.mapM_referent? operandsFound) (wellFormed _) resultFound

/-- What a call records, unless it is refused. -/
theorem leads_addConstraint {operator : Operator} {operands : List Operand}
    {result : Option Operand} (sound : start.Sound) :
    Leads (addConstraint operator operands result) start
      (fun returned after => ∃ constraint,
        start.Records after ⟨operator, operands, result⟩ constraint ∧
          constraint.result = returned) start.Keeps := by
  rw [addConstraint]
  split
  · rename_i productive
    rw [map_eq_pure_bind]
    apply (leads_addValueConstraint sound productive).bind
    rintro returned after ⟨constraint, records, isResult⟩
    exact .pure ⟨constraint, records, isResult⟩
  · rename_i restrictive
    split
    · rename_i noResult
      apply (leads_addComparison operator operands).bind
      rintro _ after ⟨variableIds, accepts, retains, found, asserted⟩
      have wellFormed : Constraint.WellFormed ⟨operator, variableIds, none⟩ :=
        Constraint.wellFormed_of_accepts ((forall₂_of_mapM found).length_eq ▸ accepts)
          (Bool.eq_false_iff.mpr restrictive).symm
      have recorded : start.record ⟨operator, variableIds, none⟩ =
          start.assert ⟨operator, variableIds, none⟩ :=
        Model.record_of_no_result rfl
      refine .pure ⟨_, ⟨retains, rfl, found, wellFormed, recorded ▸ asserted,
        retains.truthful_of_assert rfl asserted, ?_, ?_⟩, rfl⟩
      · rintro operand ⟨rfl⟩
        cases noResult
      · rintro _ result ⟨⟩
    · exact .refuse _ (.refl _)

end Build

/-! ### What recorded constraints say -/

namespace Constraint

variable {first second : Constraint} {assignment : VariableId → Int}

/-- The results of the constraints, if both have one, have the same value. -/
def Concurs (first second : Constraint) (assignment : VariableId → Int) : Prop :=
  ∀ existing result, first.result = some existing → second.result = some result →
    assignment existing = assignment result

/-- Constraints on the same operands whose results have the same value hold together. -/
theorem Holds.of_concurs (holds : first.Holds assignment) (firstFormed : first.WellFormed)
    (secondFormed : second.WellFormed) (sameOperator : first.operator = second.operator)
    (sameOperands : first.operands = second.operands) (concurs : first.Concurs second assignment) :
    second.Holds assignment := by
  have sameResult : first.result.map assignment = second.result.map assignment := by
    have sameSome : first.result.isSome = second.result.isSome := by
      rw [← firstFormed.producesValue_eq, ← secondFormed.producesValue_eq, sameOperator]
    cases isFirst : first.result with
    | none =>
      rw [isFirst, eq_comm, Option.isSome_none, Option.isSome_eq_false_iff,
        Option.isNone_iff_eq_none] at sameSome
      rw [sameSome]
    | some existing =>
      rw [isFirst, eq_comm, Option.isSome_some, Option.isSome_iff_exists] at sameSome
      obtain ⟨result, isSecond⟩ := sameSome
      rw [isSecond, Option.map_some, Option.map_some, concurs existing result isFirst isSecond]
  rw [Holds, sameOperator, sameOperands, sameResult] at holds
  exact holds

end Constraint

namespace Model

variable {model after : Model} {made : List Constraint}

/-- The constraints of the model stand for those that were made. -/
structure Represents (model : Model) (made : List Constraint) : Prop where
  exists_declared? : ∀ constraint ∈ made, ∃ former,
    model.declared? constraint.operator constraint.operands = some former
  mem_of_declared? : ∀ {operator operands former}, operator.producesValue = true →
    model.declared? operator operands = some former → former ∈ made
  holds_iff : ∀ assignment, (∀ constraint ∈ model.constraints.toList, constraint.Holds assignment) ↔
    ∀ constraint ∈ made, constraint.Holds assignment ∧
      ∀ former, model.declared? constraint.operator constraint.operands = some former →
        former.Concurs constraint assignment

/-- The empty model stands for no constraints. -/
theorem represents_empty : ({} : Model).Represents [] where
  exists_declared? := nofun
  mem_of_declared? _ found := nomatch (Model.mem_of_declared? found).1
  holds_iff _ := ⟨nofun, fun _ => nofun⟩

/-- What a model stands for depends on its constraints only. -/
theorem Represents.congr (represents : model.Represents made)
    (same : after.constraints = model.constraints) : after.Represents made where
  exists_declared? := by
    rw [declared?_congr same]
    exact represents.exists_declared?
  mem_of_declared? := by
    rw [declared?_congr same]
    exact represents.mem_of_declared?
  holds_iff := by
    rw [declared?_congr same, same]
    exact represents.holds_iff

/-- The constraints hold after one was recorded if they did before, the new one holds, and its
result has the value of the one that was declared before on the same operands. -/
theorem Sound.forall_holds_record_iff (sound : model.Sound) {constraint : Constraint}
    (wellFormed : constraint.WellFormed) (assignment : VariableId → Int) :
    (∀ other ∈ (model.record constraint).constraints.toList, other.Holds assignment) ↔
      (∀ other ∈ model.constraints.toList, other.Holds assignment) ∧ constraint.Holds assignment ∧
        ∀ former, model.declared? constraint.operator constraint.operands = some former →
          former.Concurs constraint assignment :=
  sound.forall_record_iff wellFormed (fun _ _ _ _ => Iff.rfl)
    fun former inside holds sameOperator sameOperands =>
      holds.of_concurs (sound.wellFormed former inside) wellFormed sameOperator sameOperands

/-- A recorded constraint is one more that was made. -/
theorem Represents.record (represents : model.Represents made) (sound : model.Sound)
    {constraint : Constraint} (wellFormed : constraint.WellFormed) :
    (model.record constraint).Represents (made ++ [constraint]) where
  exists_declared? := by
    refine List.forall_mem_append.mpr ⟨fun other inside => ?_,
      List.forall_mem_singleton.mpr exists_declared?_record⟩
    obtain ⟨former, found⟩ := represents.exists_declared? other inside
    exact ⟨former, declared?_record_of_some found⟩
  mem_of_declared? {operator operands former} productive found := by
    rcases declared?_record_cases productive found with before | rfl
    · exact List.mem_append_left _ (represents.mem_of_declared? productive before)
    · exact List.mem_append_right _ List.mem_cons_self
  holds_iff assignment := by
    rw [sound.forall_holds_record_iff wellFormed, represents.holds_iff, List.forall_mem_append,
      List.forall_mem_singleton]
    refine and_congr ?_ (and_congr_right fun _ => ?_)
    · -- What was declared first on the operands of an earlier constraint stays the first.
      refine forall₂_congr fun other inside => and_congr_right fun _ => ?_
      obtain ⟨former, found⟩ := represents.exists_declared? other inside
      rw [found, declared?_record_of_some found]
    · cases found : model.declared? constraint.operator constraint.operands with
      | some former => rw [declared?_record_of_some found]
      | none =>
        rw [declared?_record_of_none found]
        refine iff_of_true nofun ?_
        rintro _ ⟨rfl⟩ existing result isExisting isResult
        cases isExisting.symm.trans isResult
        rfl

end Model

end ConstraintSearch
