import ConstraintSearch.Proofs.Model.Building

/-!
# Declarations keep a model sound

One specification for each step by which variables, constraints and strategies are declared, from
the inner steps to the public ones.
-/

namespace ConstraintSearch

open Build

/-! ### Variables -/

/-- Dropping the network opens the model. -/
theorem ensures_invalidate : Ensures (fun _ => True) invalidate fun _ => Model.Open 0 := by
  apply Ensures.model.bind
  intro seen
  split
  · apply (Ensures.report _).bind
    intro _
    exact Ensures.update (fun _ sound _ => sound.withoutNetwork) fun _ _ _ => ⟨rfl, Nat.zero_le _⟩
  · rename_i unprepared
    apply Ensures.pure _
    rintro model ⟨rfl, _⟩
    exact ⟨by simpa [Model.isPrepared] using unprepared, Nat.zero_le _⟩

/-- A variable that was looked up exists. -/
theorem ensures_lookup (property : Model → Prop) (name : String) :
    Ensures (fun model => model.network = none ∧ property model) (lookup name)
      fun variableId model =>
        variableId < model.vars.size ∧ model.network = none ∧ property model := by
  apply Ensures.model.bind
  intro seen
  split
  · rename_i variableId found
    apply Ensures.pure _
    rintro model ⟨rfl, unprepared, holds⟩
    refine ⟨?_, unprepared, holds⟩
    rw [Model.find?, Model.allVariables, unprepared] at found
    exact Directory.lt_size_of_keyOf? found
  · exact Ensures.refuse _

/-- An added variable exists and has the domain of its entry. -/
theorem ensures_extend {count : Nat} (entryOf : Variables → Variable) :
    Ensures (Model.Open count) (extend fun vars => vars.push (entryOf vars)) fun variableId model =>
      model.Open (max count (variableId + 1)) ∧ ∃ vars,
        model.vars.domainOf variableId = (entryOf vars).domain := by
  intro workspace sound unprepared
  refine ⟨sound.push unprepared.1 _, ?_⟩
  rintro variableId ⟨rfl⟩
  refine ⟨⟨unprepared.1, ?_⟩, workspace.model.vars, ?_⟩
  · have grown : (workspace.model.vars.push (entryOf workspace.model.vars)).size =
        workspace.model.vars.size + 1 :=
      Directory.size_push ..
    have := unprepared.2
    change max count (workspace.model.vars.size + 1) ≤
      (workspace.model.vars.push (entryOf workspace.model.vars)).size
    omega
  · change (workspace.model.vars.push (entryOf workspace.model.vars)).domainOf
      workspace.model.vars.size = _
    rw [Directory.domainOf, Directory.get?_push, if_pos rfl]
    rfl

/-- A variable added without a name exists and has the given domain. -/
theorem ensures_pushAnonymous {count : Nat} (domain : Domain) :
    Ensures (Model.Open count) (pushAnonymous domain) fun variableId model =>
      model.Open (max count (variableId + 1)) ∧ model.vars.domainOf variableId = domain :=
  (ensures_extend fun vars => { name := unusedName vars, domain }).imp (fun _ => id)
    fun _ _ ⟨unprepared, _, same⟩ => ⟨unprepared, same⟩

/-- The variable of a literal exists, whether it was added just now or before. -/
theorem ensures_constantFor {count : Nat} (value : Int) :
    Ensures (Model.Open count) (constantFor value) fun variableId model =>
      model.Open (max count (variableId + 1)) := by
  apply Ensures.model.bind
  intro seen
  split
  · rename_i variableId found
    intro workspace sound start
    obtain ⟨rfl, unprepared⟩ := start
    refine ⟨sound, ?_⟩
    rintro _ ⟨rfl⟩
    obtain ⟨before, after, constants, _⟩ := List.lookup_eq_some_iff.mp found
    have inside : variableId < workspace.model.vars.size :=
      sound.constants_lt value variableId (by rw [constants]; simp)
    exact ⟨unprepared.1, Nat.max_le.mpr ⟨unprepared.2, inside⟩⟩
  · apply ((ensures_pushAnonymous (.value value)).imp (fun _ => And.right) fun _ _ => And.left).bind
    intro variableId
    have recorded : Ensures (Model.Open (max count (variableId + 1)))
        (update fun model => { model with constants := (value, variableId) :: model.constants })
        fun _ => Model.Open (max count (variableId + 1)) := by
      refine Ensures.update (fun model sound unprepared => ?_) fun _ _ unprepared => unprepared
      refine ⟨sound.wellFormed, sound.inside, sound.truth, fun other otherId member => ?_,
        sound.strategy_plain, fun _ found => absurd found (by simp [unprepared.1])⟩
      rcases List.mem_cons.mp member with same | former
      · cases same
        exact Nat.lt_of_succ_le (Nat.le_trans (Nat.le_max_right _ _) unprepared.2)
      · exact sound.constants_lt other otherId former
    exact recorded.bind fun _ => Ensures.pure _ fun _ => id

/-- Declaring a variable keeps the model sound. -/
theorem ensures_addVariable (name : String) (domain : Domain) :
    Ensures (fun _ => True) (addVariable name domain) fun _ _ => True := by
  apply (Ensures.check _).bind
  intro _
  apply Ensures.model.bind
  intro _
  dsimp only
  split
  · exact Ensures.refuse_bind _ _
  · apply (ensures_invalidate.imp (fun _ _ => trivial) fun _ _ => id).bind
    intro _
    exact (ensures_extend fun _ => { name, domain }).imp (fun _ => id) fun _ _ _ => trivial

/-- So does declaring one by its bounds. -/
theorem ensures_addRange (name : String) (lower upper : Int) :
    Ensures (fun _ => True) (addRange name lower upper) fun _ _ => True :=
  (Ensures.check _).bind fun domain =>
    (ensures_addVariable name domain).imp (fun _ _ => trivial) fun _ _ => id

/-- So does declaring one without a name. -/
theorem ensures_addAnonymous (domain : Domain) :
    Ensures (fun _ => True) (addAnonymous domain) fun _ _ => True :=
  ensures_invalidate.bind fun _ => (ensures_pushAnonymous domain).imp (fun _ => id) fun _ _ _ =>
    trivial

/-- So does declaring one by its bounds and without a name. -/
theorem ensures_addAnonymousRange (lower upper : Int) :
    Ensures (fun _ => True) (addAnonymousRange lower upper) fun _ _ => True :=
  (Ensures.check _).bind fun domain =>
    (ensures_addAnonymous domain).imp (fun _ _ => trivial) fun _ _ => id

/-- So does declaring a literal. -/
theorem ensures_addConstant (value : Int) :
    Ensures (fun _ => True) (addConstant value) fun _ _ => True := by
  apply (Ensures.check _).bind
  intro checked
  apply (ensures_invalidate.imp (fun _ _ => trivial) fun _ _ => id).bind
  intro _
  exact (ensures_constantFor checked).imp (fun _ => id) fun _ _ _ => trivial

/-! ### Constraints -/

/-- The variable that an operand is resolved to exists. -/
theorem ensures_resolveOperand {count : Nat} (operand : Operand) :
    Ensures (Model.Open count) (resolveOperand operand) fun variableId model =>
      model.Open (max count (variableId + 1)) := by
  cases operand with
  | named name =>
    apply (ensures_lookup (count ≤ ·.vars.size) name).imp (fun _ unprepared => unprepared)
    rintro variableId model ⟨inside, unprepared, enough⟩
    exact ⟨unprepared, Nat.max_le.mpr ⟨enough, inside⟩⟩
  | position variableId =>
    apply Ensures.model.bind
    intro seen
    split
    · rename_i inside
      apply Ensures.pure _
      rintro model ⟨rfl, unprepared, enough⟩
      exact ⟨unprepared, Nat.max_le.mpr ⟨enough, inside⟩⟩
    · exact Ensures.refuse _
  | literal value =>
    exact (Ensures.check _).bind fun checked =>
      (ensures_constantFor checked).imp (fun _ => And.right) fun _ _ => id

/-- The variables of the operands exist. -/
def Resolved (operands : List Operand) (variableIds : List VariableId) (model : Model) : Prop :=
  variableIds.length = operands.length ∧ ∃ count,
    (∀ variableId ∈ variableIds, variableId < count) ∧ model.Open count

/-- So do those of all operands, as the model only grows while they are resolved one by one. -/
theorem ensures_mapM_resolveOperand {count : Nat} (operands : List Operand) :
    Ensures (Model.Open count) (operands.mapM resolveOperand) fun variableIds model =>
      variableIds.length = operands.length ∧
        ∃ more, count ≤ more ∧ (∀ variableId ∈ variableIds, variableId < more) ∧
          model.Open more := by
  induction operands generalizing count with
  | nil =>
    exact Ensures.pure [] fun model unprepared => ⟨rfl, count, Nat.le_refl _, by simp, unprepared⟩
  | cons first rest inductionHypothesis =>
    rw [List.mapM_cons]
    refine (ensures_resolveOperand first).bind fun variableId =>
      inductionHypothesis.bind fun variableIds => ?_
    apply Ensures.pure _
    rintro model ⟨lengths, more, enough, inside, unprepared⟩
    refine ⟨by simp [lengths], more, Nat.le_trans (Nat.le_max_left _ _) enough, ?_, unprepared⟩
    refine List.forall_mem_cons.mpr ⟨?_, inside⟩
    exact Nat.lt_of_succ_le (Nat.le_trans (Nat.le_max_right _ _) enough)

/-- Resolving the operands of a declaration opens the model and gives variables that exist. -/
theorem ensures_resolveOperands (operands : List Operand) :
    Ensures (fun _ => True) (resolveOperands operands) (Resolved operands) := by
  refine ensures_invalidate.bind fun _ =>
    (ensures_mapM_resolveOperand operands).imp (fun _ => id) ?_
  rintro variableIds model ⟨lengths, more, _, inside, unprepared⟩
  exact ⟨lengths, more, inside, unprepared⟩

/-- A truth value keeps no values but 0 and 1. -/
theorem ensures_restrictToTruth {count : Nat} (variableId : VariableId) :
    Ensures (Model.Open count) (restrictToTruth variableId) fun _ model =>
      model.Open count ∧ model.vars.domainOf variableId ⊆ .range 0 1 := by
  apply Ensures.model.bind
  intro seen
  have restrict : Ensures (fun model => seen = model ∧ model.Open count) (update fun model =>
      { model with
        vars := model.vars.modify variableId
          ({ · with domain := seen.vars.domainOf variableId ∩ .range 0 1 }) fun _ =>
            rfl }) fun _ model =>
              model.Open count ∧ model.vars.domainOf variableId ⊆ .range 0 1 := by
    refine Ensures.update ?_ ?_
    · rintro model sound ⟨rfl, unprepared⟩
      refine sound.modify unprepared.1 variableId
        ({ · with domain := seen.vars.domainOf variableId ∩ .range 0 1 }) (fun _ => rfl)
        fun entry found => ?_
      rw [Directory.domainOf, found]
      exact Domain.inter_subset_left _ _
    · rintro model sound ⟨rfl, unprepared⟩
      have sizes := Directory.size_modify seen.vars variableId
        ({ · with domain := seen.vars.domainOf variableId ∩ .range 0 1 }) fun _ => rfl
      have lookup := Directory.domainOf_modify seen.vars variableId
        ({ · with domain := seen.vars.domainOf variableId ∩ .range 0 1 }) (fun _ => rfl) variableId
      refine ⟨⟨unprepared.1, unprepared.2.trans_eq sizes.symm⟩, fun value member => ?_⟩
      replace member := lookup ▸ member
      rw [if_pos rfl] at member
      cases found : seen.vars.get? variableId with
      | none =>
        rw [found] at member
        exact absurd member Domain.not_mem_empty
      | some entry =>
        rw [found] at member
        exact (Domain.mem_inter.mp member).2
  dsimp only
  split
  · split
    · exact Ensures.refuse_bind _ _
    · split
      · exact (Ensures.demand _).bind fun _ => Ensures.refuse_bind _ _
      · exact restrict
  · split
    · exact (Ensures.demand _).bind fun _ => Ensures.refuse_bind _ _
    · exact restrict

/-- The variable of a result exists, and that of a reified comparison is a truth value. -/
theorem ensures_resolveResult {count : Nat} (operator : Operator) (operand : Operand) :
    Ensures (Model.Open count) (resolveResult operator operand) fun variableId model =>
      model.Open (max count (variableId + 1)) ∧
        (operator.isReified → model.vars.domainOf variableId ⊆ .range 0 1) := by
  have truthful : Ensures (Model.Open count) (resolveOperand operand >>= fun variableId => do
      restrictToTruth variableId
      pure variableId) fun variableId model => model.Open (max count (variableId + 1)) ∧
        (operator.isReified → model.vars.domainOf variableId ⊆ .range 0 1) := by
    refine (ensures_resolveOperand operand).bind fun variableId =>
      (ensures_restrictToTruth variableId).bind fun _ => ?_
    exact Ensures.pure _ fun model ⟨unprepared, subset⟩ => ⟨unprepared, fun _ => subset⟩
  rw [resolveResult]
  split
  · rename_i plain
    refine (ensures_resolveOperand operand).imp (fun _ => id) fun variableId model unprepared =>
      ⟨unprepared, fun reified => ?_⟩
    simp [reified] at plain
  · dsimp only
    split
    · split
      · exact Ensures.refuse_bind _ _
      · exact truthful
    · exact truthful

/-- A constraint is well-formed if its operator takes its operands and produces its result. -/
theorem Constraint.wellFormed_of_accepts {operator : Operator} {operands : List VariableId}
    {result : Option VariableId} (accepts : operator.arity.accepts operands.length)
    (hasResult : result.isSome = operator.producesValue) :
    Constraint.WellFormed ⟨operator, operands, result⟩ := by
  have pair : operator.arity = .exactly 2 → ∃ left right, operands = [left, right] := by
    intro two
    rw [two, Arity.accepts, beq_iff_eq] at accepts
    match operands, accepts with
    | [left, right], _ => exact ⟨left, right, rfl⟩
  have hasOperands : operator.arity = .atLeast 1 → operands ≠ [] := by
    rintro one rfl
    simp [one, Arity.accepts] at accepts
  have produced : operator.producesValue = true → ∃ named, result = some named := fun productive =>
    Option.isSome_iff_exists.mp (hasResult.trans productive)
  have without : operator.producesValue = false → result = none := fun unproductive =>
    Option.isNone_iff_eq_none.mp (Option.isSome_eq_false_iff.mp (hasResult.trans unproductive))
  cases operator with
  | distinct =>
    obtain rfl := without rfl
    exact .distinct operands
  | compare comparison =>
    obtain ⟨left, right, rfl⟩ := pair rfl
    obtain rfl := without rfl
    exact .compare comparison left right
  | sum =>
    obtain ⟨result, rfl⟩ := produced rfl
    exact .sum operands result (hasOperands rfl)
  | product =>
    obtain ⟨result, rfl⟩ := produced rfl
    exact .product operands result (hasOperands rfl)
  | plus =>
    obtain ⟨left, right, rfl⟩ := pair rfl
    obtain ⟨result, rfl⟩ := produced rfl
    exact .plus left right result
  | minus =>
    obtain ⟨left, right, rfl⟩ := pair rfl
    obtain ⟨result, rfl⟩ := produced rfl
    exact .minus left right result
  | mul =>
    obtain ⟨left, right, rfl⟩ := pair rfl
    obtain ⟨result, rfl⟩ := produced rfl
    exact .mul left right result
  | div =>
    obtain ⟨left, right, rfl⟩ := pair rfl
    obtain ⟨result, rfl⟩ := produced rfl
    exact .div left right result
  | reify comparison =>
    obtain ⟨left, right, rfl⟩ := pair rfl
    obtain ⟨result, rfl⟩ := produced rfl
    exact .reify comparison left right result

/-- The number of operands was accepted. -/
theorem accepts_of_checkArity {operator : Operator} {operands : List Operand} {checked : Unit}
    (isChecked : checkArity operator operands = .ok checked) :
    operator.arity.accepts operands.length := by
  rw [checkArity] at isChecked
  split at isChecked
  · assumption
  · cases isChecked

/-- Adding a well-formed constraint keeps the model sound if its variables exist and its truth value
is one. -/
theorem ensures_pushConstraint {count : Nat} {constraint : Constraint}
    (wellFormed : constraint.WellFormed)
    (inside : ∀ variableId ∈ constraint.scope, variableId < count) :
    Ensures (fun model => model.Open count ∧
        ∀ result, constraint.truthVariable? = some result → model.vars.domainOf result ⊆ .range 0 1)
      (pushConstraint constraint) fun _ model => model.Open count := by
  refine Ensures.update ?_ fun _ _ unprepared => unprepared.1
  rintro model sound ⟨unprepared, truth⟩
  exact sound.pushConstraint unprepared.1 wellFormed
    (fun variableId reads => Nat.lt_of_lt_of_le (inside variableId reads) unprepared.2) truth

/-- Declaring a comparison without a result keeps the model sound. -/
theorem ensures_addComparison {operator : Operator} (operands : List Operand)
    (restrictive : operator.producesValue = false) :
    Ensures (fun _ => True) (addComparison operator operands) fun _ _ => True := by
  apply (Ensures.check _).bind
  intro checked
  refine Ensures.assume fun isChecked => (ensures_resolveOperands operands).bind fun variableIds =>
    ?_
  apply Ensures.model.bind
  intro seen
  split
  · rintro workspace sound ⟨rfl, lengths, count, inside, unprepared⟩
    have wellFormed : Constraint.WellFormed ⟨operator, variableIds, none⟩ :=
      Constraint.wellFormed_of_accepts (lengths ▸ accepts_of_checkArity isChecked) restrictive.symm
    have notTruth : ∀ result, Constraint.truthVariable? ⟨operator, variableIds, none⟩ =
        some result → workspace.model.vars.domainOf result ⊆ .range 0 1 := by
      intro result isTruth
      simp [Constraint.truthVariable?] at isTruth
    obtain ⟨finalSound, _⟩ :=
      ensures_pushConstraint wellFormed (by simpa [Constraint.scope] using inside) workspace sound
        ⟨unprepared, notTruth⟩
    exact ⟨finalSound, fun _ _ => trivial⟩
  · exact Ensures.pure _ fun _ _ => trivial

/-- A constraint whose result exists is pushed. -/
theorem ensures_pushResult {operator : Operator} {variableIds : List VariableId}
    {result : VariableId} {count : Nat}
    (wellFormed : Constraint.WellFormed ⟨operator, variableIds, some result⟩)
    (inside : ∀ variableId ∈ variableIds, variableId < count) :
    Ensures (fun model => model.Open (max count (result + 1)) ∧
        (operator.isReified → model.vars.domainOf result ⊆ .range 0 1)) (do
      pushConstraint { operator, operands := variableIds, result := some result }
      pure result) fun _ _ => True := by
  have pushed : Ensures (fun model => model.Open (max count (result + 1)) ∧
        (operator.isReified → model.vars.domainOf result ⊆ .range 0 1))
      (pushConstraint { operator, operands := variableIds, result := some result }) fun _ _ =>
          True := by
    have allInside : ∀ variableId ∈ Constraint.scope ⟨operator, variableIds, some result⟩,
        variableId < max count (result + 1) := by
      intro variableId reads
      rcases List.mem_append.mp reads with operand | isResult
      · exact Nat.lt_of_lt_of_le (inside variableId operand) (Nat.le_max_left _ _)
      · rw [List.mem_singleton.mp isResult]
        exact Nat.lt_of_succ_le (Nat.le_max_right _ _)
    refine (ensures_pushConstraint wellFormed allInside).imp ?_ fun _ _ _ => trivial
    rintro model ⟨unprepared, truth⟩
    refine ⟨unprepared, fun other isTruth => ?_⟩
    obtain ⟨reified, ⟨⟩⟩ := Constraint.truthVariable?_eq_some_iff.mp isTruth
    exact truth reified
  exact pushed.bind fun _ => Ensures.pure _ fun _ _ => trivial

/-- Declaring a constraint with a result keeps the model sound: both ways to find the result, and
both to record it, go through well-formed constraints. -/
theorem ensures_addValueConstraint {operator : Operator} (operands : List Operand)
    (result : Option Operand) (productive : operator.producesValue = true) :
    Ensures (fun _ => True) (addValueConstraint operator operands result) fun _ _ => True := by
  apply (Ensures.check _).bind
  intro checked
  refine Ensures.assume fun isChecked => (ensures_resolveOperands operands).bind fun variableIds =>
    ?_
  apply Ensures.model.bind
  intro seen
  have facts : ∀ model, seen = model ∧ Resolved operands variableIds model →
      ∃ count, (variableIds.length = operands.length ∧ ∀ variableId ∈ variableIds,
        variableId < count) ∧ model.Open count := by
    rintro model ⟨_, lengths, count, inside, unprepared⟩
    exact ⟨count, ⟨lengths, inside⟩, unprepared⟩
  refine (Ensures.assumeExists fun count => Ensures.assume ?_).imp facts fun _ _ => id
  rintro ⟨lengths, inside⟩
  have wellFormed : ∀ result, Constraint.WellFormed ⟨operator, variableIds, some result⟩ :=
    fun result =>
      Constraint.wellFormed_of_accepts (lengths ▸ accepts_of_checkArity isChecked) productive.symm
  split
  · exact Ensures.pure _ fun _ _ => trivial
  · apply (ensures_resolveResult operator _).bind
    intro resolved
    dsimp only
    split
    · refine Ensures.model.bind fun _ => (Ensures.report _).bind fun _ => ?_
      apply ((ensures_addComparison _ rfl).imp (fun _ _ => trivial) fun _ _ => id).bind
      intro _
      exact Ensures.pure _ fun _ _ => trivial
    · exact Ensures.pure _ fun _ _ => trivial
  · split
    · apply (ensures_pushAnonymous operator.resultDomain).bind
      intro resolved
      refine (ensures_pushResult (wellFormed resolved) inside).imp ?_ fun _ _ => id
      rintro model ⟨unprepared, same⟩
      refine ⟨unprepared, fun reified => ?_⟩
      rw [same, Operator.resultDomain, if_pos reified]
      exact Domain.Subset.refl _
    · exact (ensures_resolveResult operator _).bind fun resolved =>
        ensures_pushResult (wellFormed resolved) inside

/-- Every declaration of a constraint keeps the model sound. -/
theorem ensures_addConstraint (operator : Operator) (operands : List Operand)
    (result : Option Operand) :
    Ensures (fun _ => True) (addConstraint operator operands result) fun _ _ => True := by
  rw [addConstraint]
  split
  · rename_i productive
    rw [map_eq_pure_bind]
    apply (ensures_addValueConstraint operands result productive).bind
    intro _
    exact Ensures.pure _ fun _ _ => trivial
  · rename_i restrictive
    split
    · apply (ensures_addComparison operands (Bool.eq_false_iff.mpr restrictive)).bind
      intro _
      exact Ensures.pure _ fun _ _ => trivial
    · exact Ensures.refuse _

end ConstraintSearch
