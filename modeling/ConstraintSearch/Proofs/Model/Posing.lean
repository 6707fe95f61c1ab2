import ConstraintSearch.Proofs.Model.Refusing
import ConstraintSearch.Proofs.Model.Sharing

/-!
# Problems posed on a board

A problem is posed on a board, which is a model with nothing but variables. What is declared further
restricts these variables, and adds variables for literals and for anonymous results. The others
tell their values, so that the satisfying assignments of the model are known by the requirement that
it poses on the board (`Model.Poses`). `Build.Requires` says of a step that it is never refused and
adds a requirement.
-/

namespace ConstraintSearch

open Build

/-- Anonymous variables have no strategy. -/
theorem Directory.strategy_pushAnonymous (vars : Variables) (domain : Domain)
    (variableId : VariableId) :
    ((vars.pushAnonymous domain).get? variableId).bind Variable.strategy =
      (vars.get? variableId).bind Variable.strategy := by
  rw [pushAnonymous, get?_push]
  split
  · rename_i isLast
    have beyond : vars.get? vars.size = none := (Table.get?_eq_none_iff ..).mpr (Nat.le_refl _)
    rw [isLast, beyond]
    rfl
  · rfl

namespace Model

variable {board model after : Model} {constraint : Constraint} {assignment : VariableId → Int}

/-! ### Satisfying assignments of larger models -/

/-- Assignments that agree on the variables of the model have the same outcome. -/
def Tells {α : Type} (model : Model) (outcome : (VariableId → Int) → α) : Prop :=
  ∀ ⦃first second : VariableId → Int⦄,
    (∀ variableId < model.vars.size, first variableId = second variableId) →
      outcome first = outcome second

/-- Only the values of variables that exist matter. -/
theorem Sound.satisfied_congr (sound : model.Sound) {first second : VariableId → Int}
    (same : ∀ variableId < model.vars.size, first variableId = second variableId) :
    model.Satisfied first ↔ model.Satisfied second := by
  refine and_congr (forall₂_congr fun variableId inside => by rw [same variableId inside]) ?_
  refine forall₂_congr fun constraint declared => Constraint.holds_congr fun variableId reads => ?_
  exact same variableId (sound.inside constraint declared variableId reads)

/-- A further variable has a value of its domain, and all others have theirs as before. -/
theorem satisfied_push_iff (model : Model) (assignment : VariableId → Int) (entry : Variable) :
    ({ model with vars := model.vars.push entry } : Model).Satisfied assignment ↔
      model.Satisfied assignment ∧ assignment model.vars.size ∈ entry.domain := by
  have admits : (model.vars.push entry).Admits assignment ↔
      model.vars.Admits assignment ∧ assignment model.vars.size ∈ entry.domain := by
    have last : (model.vars.push entry).domainOf model.vars.size = entry.domain := by
      rw [Directory.domainOf, Directory.get?_push, if_pos rfl]
      rfl
    rw [Directory.Admits, Directory.size_push, Nat.forall_lt_succ_right, last]
    refine and_congr_left fun _ => forall₂_congr fun variableId inside => ?_
    rw [Directory.domainOf_push_of_lt entry inside]
  rw [Satisfied, Satisfied, admits, and_right_comm]

/-- The model with a further constraint, whether it is added or shares the result of an earlier
one. -/
theorem Sound.satisfied_record_iff (sound : model.Sound) (wellFormed : constraint.WellFormed)
    (determined : constraint.operator ≠ .div) :
    (model.record constraint).Satisfied assignment ↔
      model.Satisfied assignment ∧ constraint.Holds assignment := by
  rw [Satisfied, Satisfied, vars_record, sound.forall_holds_record_iff wellFormed, and_assoc]
  refine and_congr_right fun _ => and_congr_right fun allHold => and_iff_left_of_imp fun holds => ?_
  intro former found existing result isExisting isResult
  obtain ⟨inside, sameOperator, sameOperands⟩ := mem_of_declared? found
  have formerHolds := allHold former inside
  rw [Constraint.Holds, sameOperator, sameOperands, isExisting] at formerHolds
  rw [Constraint.Holds, isResult] at holds
  exact formerHolds.result_eq holds fun isDiv => absurd isDiv determined

/-! ### Sound models with more in them -/

/-- The variable of a literal keeps the model sound. -/
theorem Sound.withLiteral (sound : model.Sound) (unprepared : model.network = none) (value : Int) :
    (model.withLiteral value).Sound where
  wellFormed := sound.wellFormed
  inside := (sound.push unprepared _).inside
  truth := (sound.push unprepared _).truth
  constants_lt other variableId member := by
    change variableId < (model.vars.push _).size
    rw [Directory.size_push]
    rcases List.mem_cons.mp member with isNew | before
    · cases isNew
      exact Nat.lt_succ_self _
    · exact Nat.lt_succ_of_lt (sound.constants_lt other variableId before)
  strategy_plain := sound.strategy_plain
  built network found := by cases unprepared.symm.trans found

/-- Adding a well-formed constraint without a truth value keeps the model sound. -/
theorem Sound.assert (sound : model.Sound) (unprepared : model.network = none)
    (wellFormed : constraint.WellFormed)
    (inside : ∀ variableId ∈ constraint.scope, variableId < model.vars.size)
    (plain : constraint.truthVariable? = none) : (model.assert constraint).Sound := by
  rw [Model.assert]
  split
  · exact sound.pushConstraint unprepared wellFormed inside fun result isTruth =>
      absurd (plain.symm.trans isTruth) (Option.some_ne_none result).symm
  · exact sound

/-- So does recording it, even if that makes two results equal. -/
theorem Sound.record (sound : model.Sound) (unprepared : model.network = none)
    (wellFormed : constraint.WellFormed)
    (inside : ∀ variableId ∈ constraint.scope, variableId < model.vars.size)
    (plain : constraint.truthVariable? = none) : (model.record constraint).Sound := by
  rw [Model.record]
  split
  · rename_i existing result declared isResult
    split
    · refine sound.assert unprepared (.compare .eq existing result) (fun variableId reads => ?_) rfl
      obtain ⟨former, isFormer, hasExisting⟩ := Option.bind_eq_some_iff.mp declared
      simp only [Constraint.scope, Option.toList_none, List.append_nil, List.mem_cons,
        List.not_mem_nil, or_false] at reads
      rcases reads with rfl | rfl
      · exact sound.inside former (mem_of_declared? isFormer).1 _
          (by simp [Constraint.scope, hasExisting])
      · exact inside _ (by simp [Constraint.scope, isResult])
    · exact sound
  · exact sound.assert unprepared wellFormed inside plain

/-- The model with an anonymous result of the operator on the operands. -/
def withResult (model : Model) (operator : Operator) (operands : List VariableId) : Model :=
  { model with
    vars := model.vars.pushAnonymous operator.resultDomain
    constraints := model.constraints.push ⟨operator, operands, some model.vars.size⟩ }

/-- An anonymous result keeps the model sound. -/
theorem Sound.withResult (sound : model.Sound) (unprepared : model.network = none)
    {operator : Operator} {operands : List VariableId}
    (wellFormed : Constraint.WellFormed ⟨operator, operands, some model.vars.size⟩)
    (unreified : operator.isReified = false)
    (inside : ∀ variableId ∈ operands, variableId < model.vars.size) :
    (model.withResult operator operands).Sound := by
  refine (sound.push unprepared _).pushConstraint unprepared wellFormed (fun variableId reads => ?_)
    fun result isTruth => ?_
  · rw [Directory.size_push]
    rcases List.mem_append.mp reads with isOperand | isResult
    · exact Nat.lt_succ_of_lt (inside variableId isOperand)
    · cases List.mem_singleton.mp isResult
      exact Nat.lt_succ_self _
  · rw [Constraint.truthVariable?, if_neg (by simp [unreified])] at isTruth
    cases isTruth

/-- An anonymous result has the value that the operator gives on the operands. -/
theorem satisfied_withResult_iff (model : Model) (operator : Operator)
    (operands : List VariableId) : (model.withResult operator operands).Satisfied assignment ↔
      model.Satisfied assignment ∧ assignment model.vars.size ∈ operator.resultDomain ∧
        operator.Holds (operands.map assignment) (some (assignment model.vars.size)) := by
  have pushed :=
    model.satisfied_push_iff assignment ⟨unusedName model.vars, operator.resultDomain, none⟩
  rw [Satisfied, withResult, forall_push_iff, ← and_assoc, ← and_assoc]
  exact and_congr_left' pushed

/-! ### Requirements of the board -/

/-- On the variables of the board the model has exactly the satisfying assignments that meet the
requirement, and these leave no choice to the other variables. -/
structure Poses (board model : Model) (requirement : (VariableId → Int) → Prop) : Prop where
  retains : board.Retains model
  sound : model.Sound
  fixesLiterals : model.FixesLiterals
  unprepared : model.network = none
  strategy_eq : ∀ variableId,
    (model.vars.get? variableId).bind Variable.strategy =
      (board.vars.get? variableId).bind Variable.strategy
  exists_iff : ∀ cells,
    (∃ assignment, (∀ variableId < board.vars.size, assignment variableId = cells variableId) ∧
      model.Satisfied assignment) ↔ board.vars.Admits cells ∧ requirement cells
  unique : ∀ {first second}, model.Satisfied first → model.Satisfied second →
    (∀ variableId < board.vars.size, first variableId = second variableId) →
      ∀ variableId < model.vars.size, first variableId = second variableId

namespace Poses

variable {requirement : (VariableId → Int) → Prop}

/-- A board itself requires nothing. -/
theorem refl (sound : board.Sound) (fixesLiterals : board.FixesLiterals)
    (unprepared : board.network = none) (unconstrained : board.constraints.toList = []) :
    board.Poses board fun _ => True where
  retains := .refl board
  sound := sound
  fixesLiterals := fixesLiterals
  unprepared := unprepared
  strategy_eq _ := rfl
  exists_iff cells := by
    rw [and_true]
    constructor
    · rintro ⟨assignment, agrees, admits, -⟩ variableId inside
      exact agrees variableId inside ▸ admits variableId inside
    · intro admits
      exact ⟨cells, fun _ _ => rfl, admits, by simp [unconstrained]⟩
  unique _ _ same := same

variable (poses : board.Poses model requirement)

include poses

/-- What satisfies the model meets its requirement. -/
theorem meets (satisfied : model.Satisfied assignment) :
    board.vars.Admits assignment ∧ requirement assignment :=
  (poses.exists_iff assignment).mp ⟨assignment, fun _ _ => rfl, satisfied⟩

/-- What is posed on a board may be said in other words there. -/
theorem congr {other : (VariableId → Int) → Prop}
    (same : ∀ cells, board.vars.Admits cells → (requirement cells ↔ other cells)) :
    board.Poses model other where
  retains := poses.retains
  sound := poses.sound
  fixesLiterals := poses.fixesLiterals
  unprepared := poses.unprepared
  strategy_eq := poses.strategy_eq
  exists_iff cells := (poses.exists_iff cells).trans (and_congr_right (same cells))
  unique := poses.unique

/-- A further variable whose value the others tell makes no difference to the board. -/
theorem extend (valueOf : (VariableId → Int) → Int) (retains : model.Retains after)
    (sound : after.Sound) (unprepared : after.network = none)
    (size_eq : after.vars.size = model.vars.size + 1) (plain : ∀ variableId,
      (after.vars.get? variableId).bind Variable.strategy =
        (model.vars.get? variableId).bind Variable.strategy)
    (told : ∀ assignment, after.Satisfied assignment ↔
      model.Satisfied assignment ∧ assignment model.vars.size = valueOf assignment)
    (tells : model.Tells valueOf) : board.Poses after requirement where
  retains := poses.retains.trans retains
  sound := sound
  fixesLiterals := retains.fixesLiterals poses.fixesLiterals
  unprepared := unprepared
  strategy_eq variableId := (plain variableId).trans (poses.strategy_eq variableId)
  exists_iff cells := by
    rw [← poses.exists_iff cells]
    constructor
    · rintro ⟨assignment, agrees, satisfied⟩
      exact ⟨assignment, agrees, ((told assignment).mp satisfied).1⟩
    · rintro ⟨assignment, agrees, satisfied⟩
      let extended := Function.update assignment model.vars.size (valueOf assignment)
      have same : ∀ variableId < model.vars.size, extended variableId = assignment variableId :=
        fun variableId inside => Function.update_of_ne (Nat.ne_of_lt inside) _ _
      refine ⟨extended, fun variableId onBoard => ?_,
        (told extended).mpr ⟨(poses.sound.satisfied_congr same).mpr satisfied, ?_⟩⟩
      · exact (same variableId (Nat.lt_of_lt_of_le onBoard poses.retains.size_le)).trans
          (agrees variableId onBoard)
      · exact (Function.update_self ..).trans (tells same).symm
  unique {first second} firstSatisfied secondSatisfied same variableId inside := by
    obtain ⟨firstBefore, firstLast⟩ := (told first).mp firstSatisfied
    obtain ⟨secondBefore, secondLast⟩ := (told second).mp secondSatisfied
    have sameBefore := poses.unique firstBefore secondBefore same
    rw [size_eq] at inside
    rcases Nat.lt_succ_iff_lt_or_eq.mp inside with old | rfl
    · exact sameBefore variableId old
    · rw [firstLast, secondLast, tells sameBefore]

/-- A recorded constraint requires of the board what it means to the assignments that satisfy the
model. -/
theorem record {demand : (VariableId → Int) → Prop} (wellFormed : constraint.WellFormed)
    (inside : ∀ variableId ∈ constraint.scope, variableId < model.vars.size)
    (plain : constraint.truthVariable? = none)
    (determined : constraint.operator ≠ .div)
    (means : ∀ assignment, model.Satisfied assignment →
      (constraint.Holds assignment ↔ demand assignment))
    (tells : board.Tells demand) :
    board.Poses (model.record constraint) fun cells => requirement cells ∧ demand cells := by
  have told : ∀ {assignment}, (model.record constraint).Satisfied assignment ↔
      model.Satisfied assignment ∧ demand assignment := fun {assignment} =>
    (poses.sound.satisfied_record_iff wellFormed determined).trans
      (and_congr_right (means assignment))
  obtain ⟨constraints, isRecord⟩ := model.exists_record
  have keeps : model.Retains (model.record constraint) := .of_eq vars_record constants_record
  have sound := poses.sound.record poses.unprepared wellFormed inside plain
  refine ⟨poses.retains.trans keeps, sound, keeps.fixesLiterals poses.fixesLiterals,
    isRecord ▸ poses.unprepared, ?_, ?_, ?_⟩
  · rw [vars_record]
    exact poses.strategy_eq
  · intro cells
    rw [← and_assoc, ← poses.exists_iff cells]
    constructor
    · rintro ⟨assignment, agrees, satisfied⟩
      obtain ⟨before, demanded⟩ := told.mp satisfied
      exact ⟨⟨assignment, agrees, before⟩, (tells agrees).to_iff.mp demanded⟩
    · rintro ⟨⟨assignment, agrees, before⟩, demanded⟩
      exact ⟨assignment, agrees, told.mpr ⟨before, (tells agrees).to_iff.mpr demanded⟩⟩
  · intro first second firstSatisfied secondSatisfied same
    rw [vars_record]
    exact poses.unique (told.mp firstSatisfied).1 (told.mp secondSatisfied).1 same

/-- The variable of a literal has no choice. -/
theorem withLiteral {value : Int} (new : model.constant? value = none)
    (bounds : valueFloor ≤ value ∧ value ≤ valueCeiling) :
    board.Poses (model.withLiteral value) requirement := by
  refine poses.extend (fun _ => value) (model.grows_withLiteral new bounds).toRetains
    (poses.sound.withLiteral poses.unprepared value) poses.unprepared (Directory.size_push ..)
    (fun _ => Directory.strategy_pushAnonymous ..) (fun assignment => ?_) fun _ _ _ => rfl
  refine (model.satisfied_push_iff _ _).trans (and_congr_right fun _ => ?_)
  exact Domain.mem_value.trans (and_iff_left_of_imp fun same => same ▸ bounds)

/-- An anonymous result that the operands tell has no choice. -/
theorem withResult {operator : Operator} {operands : List VariableId}
    {valueOf : (VariableId → Int) → Int}
    (wellFormed : Constraint.WellFormed ⟨operator, operands, some model.vars.size⟩)
    (unreified : operator.isReified = false)
    (inside : ∀ variableId ∈ operands, variableId < model.vars.size)
    (told : ∀ assignment, (model.withResult operator operands).Satisfied assignment ↔
      model.Satisfied assignment ∧ assignment model.vars.size = valueOf assignment)
    (tells : model.Tells valueOf) :
    board.Poses (model.withResult operator operands) requirement := by
  have retains : model.Retains (model.withResult operator operands) :=
    (model.grows_pushAnonymous operator.resultDomain).toRetains.trans (.of_eq rfl rfl)
  exact poses.extend valueOf retains
    (poses.sound.withResult poses.unprepared wellFormed unreified inside) poses.unprepared
    (Directory.size_push ..) (fun _ => Directory.strategy_pushAnonymous ..) told tells

/-- The targets do not matter to what satisfies a model. -/
theorem withTargets (targets : Targets) : board.Poses { model with targets } requirement where
  retains := poses.retains.trans (.of_eq rfl rfl)
  sound :=
    { wellFormed := poses.sound.wellFormed
      inside := poses.sound.inside
      truth := poses.sound.truth
      constants_lt := poses.sound.constants_lt
      strategy_plain := poses.sound.strategy_plain
      built := fun _ found => nomatch poses.unprepared.symm.trans found }
  fixesLiterals := poses.fixesLiterals
  unprepared := poses.unprepared
  strategy_eq := poses.strategy_eq
  exists_iff := poses.exists_iff
  unique := poses.unique

end Poses

end Model

/-- Where a model is satisfied, the variable of a literal has its value. -/
theorem Model.FixesLiterals.eq_of_satisfied {model : Model} (fixesLiterals : model.FixesLiterals)
    {value : Int} {variableId : VariableId}
    (found : (Operand.literal value).referent? model = some variableId)
    {assignment : VariableId → Int} (satisfied : model.Satisfied assignment) :
    assignment variableId = value := by
  rw [Operand.referent?, Option.ite_none_right_eq_some] at found
  obtain ⟨inside, -, only⟩ := fixesLiterals value variableId found.2
  exact (Domain.mem_value.mp (only _ (satisfied.1 variableId inside))).1

/-- Operands stand for variables that exist. -/
theorem Model.FixesLiterals.lt_size_of_mapM {model : Model} (fixesLiterals : model.FixesLiterals)
    {operands : List Operand} {variableIds : List VariableId}
    (found : operands.mapM (Operand.referent? model) = some variableIds) :
    ∀ variableId ∈ variableIds, variableId < model.vars.size := by
  intro variableId inside
  obtain ⟨place, inRange, rfl⟩ := List.mem_iff_getElem.mp inside
  have all := forall₂_of_mapM found
  exact fixesLiterals.lt_size_of_referent? (all.get (all.length_eq ▸ inRange) inRange)

/-- The operand stands for a variable of the model or is a value that variables can take. -/
def Operand.Resolves (operand : Operand) (model : Model) : Prop :=
  (∃ variableId, operand.referent? model = some variableId) ∨
    ∃ value, operand = .literal value ∧ valueFloor ≤ value ∧ value ≤ valueCeiling

/-- What an operand stands for is still there later. -/
theorem Operand.Resolves.mono {operand : Operand} {former later : Model}
    (resolves : operand.Resolves former) (retains : former.Retains later) :
    operand.Resolves later :=
  resolves.imp_left fun ⟨variableId, found⟩ => ⟨variableId, retains.referent?_of_some found⟩

namespace Build

variable {board model : Model} {requirement : (VariableId → Int) → Prop}

/-- A model that is not prepared has no network to drop. -/
theorem gives_invalidate_of_unprepared (unprepared : model.network = none) :
    Gives invalidate model (.ok ()) model := by
  have gives : Gives invalidate model (.ok ()) model.opened := gives_invalidate
  rwa [Model.opened_of_unprepared unprepared] at gives

/-! ### Steps that succeed -/

/-- From the model the step is not refused, and what it comes to has the property. -/
abbrev Succeeds {α : Type} (step : Build α) (start : Model) (done : α → Model → Prop) : Prop :=
  Leads step start done fun _ => False

/-- An operand is resolved, and that poses no further requirement, even if its literal is added. -/
theorem succeeds_resolveOperand (poses : board.Poses model requirement) {operand : Operand}
    (resolves : operand.Resolves model) :
    Succeeds (resolveOperand operand) model fun variableId after =>
      board.Poses after requirement ∧ model.Grows after ∧
        operand.referent? after = some variableId := by
  have closed : model.opened = model := Model.opened_of_unprepared poses.unprepared
  rcases resolves with ⟨variableId, found⟩ | ⟨value, rfl, bounds⟩
  · have gives : Gives (resolveOperand operand) model.opened (.ok variableId) model.opened :=
      gives_resolveOperand (closed.symm ▸ found)
    rw [closed] at gives
    exact .of_gives gives ⟨poses, .refl model, found⟩
  · refine .bind_of_gives (Gives.check (if_pos bounds)) (.bind_of_gives Gives.model ?_)
    cases known : model.constant? value with
    | some variableId => exact .pure ⟨poses, .refl model, (if_pos bounds).trans known⟩
    | none =>
      refine .bind_of_gives (gives_pushAnonymous _) (.bind_of_gives (Gives.update _) (.pure ?_))
      refine ⟨poses.withLiteral known bounds, model.grows_withLiteral known bounds,
        (if_pos bounds).trans ?_⟩
      exact (model.constant?_withLiteral value value).trans (if_pos rfl)

/-- So are the operands of a list. Those resolved first still stand for the same variables later. -/
theorem succeeds_mapM_resolveOperand {operands : List Operand}
    (poses : board.Poses model requirement)
    (resolves : ∀ operand ∈ operands, operand.Resolves model) :
    Succeeds (operands.mapM resolveOperand) model fun variableIds after =>
      board.Poses after requirement ∧ model.Grows after ∧
        operands.mapM (Operand.referent? after) = some variableIds := by
  induction operands generalizing model with
  | nil => exact .pure ⟨poses, .refl model, rfl⟩
  | cons first rest inductionHypothesis =>
    obtain ⟨firstResolves, restResolve⟩ := List.forall_mem_cons.mp resolves
    rw [List.mapM_cons]
    apply (succeeds_resolveOperand poses firstResolves).bind
    rintro variableId middle ⟨middlePoses, lower, firstFound⟩
    apply (inductionHypothesis middlePoses fun operand inside =>
      (restResolve operand inside).mono lower.toRetains).bind
    rintro others after ⟨afterPoses, upper, restFound⟩
    refine .pure ⟨afterPoses, lower.trans upper, ?_⟩
    rw [List.mapM_cons, upper.referent?_of_some firstFound, restFound]
    rfl

/-- So are the operands of a declaration. -/
theorem succeeds_resolveOperands {operands : List Operand} (poses : board.Poses model requirement)
    (resolves : ∀ operand ∈ operands, operand.Resolves model) :
    Succeeds (resolveOperands operands) model fun variableIds after =>
      board.Poses after requirement ∧ model.Grows after ∧
        operands.mapM (Operand.referent? after) = some variableIds := by
  exact .bind_of_gives (gives_invalidate_of_unprepared poses.unprepared)
    (succeeds_mapM_resolveOperand poses resolves)

/-- A comparison of variables requires what it means. -/
theorem succeeds_addComparison (poses : board.Poses model requirement) {operator : Operator}
    {operands : List Operand} {variableIds : List VariableId}
    (restrictive : operator.producesValue = false)
    (accepts : operator.arity.accepts operands.length)
    (found : operands.mapM (Operand.referent? model) = some variableIds)
    {demand : (VariableId → Int) → Prop}
    (means : ∀ assignment, model.Satisfied assignment →
      (operator.Holds (variableIds.map assignment) none ↔ demand assignment))
    (tells : board.Tells demand) : Succeeds (addComparison operator operands) model fun _ after =>
        board.Poses after fun cells => requirement cells ∧ demand cells := by
    have closed : model.opened = model := Model.opened_of_unprepared poses.unprepared
    have gives : Gives (addComparison operator operands) model (.ok ())
        (model.opened.assert ⟨operator, variableIds, none⟩) :=
      gives_addComparison accepts (closed.symm ▸ found)
    rw [closed, ← Model.record_of_no_result rfl] at gives
    have wellFormed : Constraint.WellFormed ⟨operator, variableIds, none⟩ :=
      Constraint.wellFormed_of_accepts ((forall₂_of_mapM found).length_eq ▸ accepts)
        restrictive.symm
    refine .of_gives gives (poses.record wellFormed ?_ (ite_self _) ?_ means tells)
    · simpa [Constraint.scope] using poses.fixesLiterals.lt_size_of_mapM found
    · rintro rfl
      cases restrictive

/-- What is left of a declaration once its operands and its result are resolved. -/
theorem succeeds_recordResult (poses : board.Poses model requirement) {operator : Operator}
    {variableIds : List VariableId} {result : VariableId}
    (wellFormed : Constraint.WellFormed ⟨operator, variableIds, some result⟩)
    (resultInside : result < model.vars.size) :
    Succeeds (match (model.declared? operator variableIds).bind Constraint.result with
      | some existing => do
        if result ≠ existing then
          let vars := (← Build.model).vars
          report (.resultsUnified operator.name (vars.nameOf existing) (vars.nameOf result))
          addComparison (.compare .eq) [.position existing, .position result]
        Pure.pure result
      | none => do
        pushConstraint { operator, operands := variableIds, result := some result }
        Pure.pure result) model fun _ after =>
          after = model.record ⟨operator, variableIds, some result⟩ := by
  have productive := wellFormed.producesValue_of_result rfl
  cases declared : (model.declared? operator variableIds).bind Constraint.result with
  | none =>
    have recorded : (model.record ⟨operator, variableIds, some result⟩).constraints =
        model.constraints.push ⟨operator, variableIds, some result⟩ :=
      poses.sound.constraints_record_of_new productive declared
    obtain ⟨constraints, shape⟩ := @Model.exists_record model ⟨operator, variableIds, some result⟩
    rw [shape] at recorded ⊢
    cases recorded
    exact .bind_of_gives (Gives.update _) (.pure rfl)
  | some existing =>
    have isRecord : model.record ⟨operator, variableIds, some result⟩ = _ :=
      Model.record_of_existing declared rfl
    rw [isRecord]
    dsimp only
    split
    · have closed := Model.opened_of_unprepared poses.unprepared
      exact .of_gives (gives_unified closed
        (poses.sound.lt_size_of_declared? rfl productive declared) resultInside) rfl
    · exact .pure rfl

/-- A result that is bound to a literal requires that the operands give its value. -/
theorem succeeds_addValueConstraint (poses : board.Poses model requirement) {operator : Operator}
    {operands : List Operand} {variableIds : List VariableId} {total : Int}
    (productive : operator.producesValue = true) (unreified : operator.isReified = false)
    (determined : operator ≠ .div) (accepts : operator.arity.accepts operands.length)
    (found : operands.mapM (Operand.referent? model) = some variableIds)
    (bounds : valueFloor ≤ total ∧ total ≤ valueCeiling) {demand : (VariableId → Int) → Prop}
    (means : ∀ assignment, operator.Holds (variableIds.map assignment) (some total) ↔
      demand assignment) (tells : board.Tells demand) :
    Succeeds (addValueConstraint operator operands (some (.literal total))) model fun _ after =>
      board.Poses after fun cells => requirement cells ∧ demand cells := by
  have closed : model.opened = model := Model.opened_of_unprepared poses.unprepared
  have resolved : Gives (resolveOperands operands) model (.ok variableIds) model.opened :=
    gives_resolveOperands (closed.symm ▸ found)
  rw [closed] at resolved
  have resolves : Succeeds (resolveResult operator (.literal total)) model fun result after =>
      board.Poses after requirement ∧ model.Grows after ∧
          (Operand.literal total).referent? after = some result := by
    rw [resolveResult, if_pos (by simp [unreified])]
    exact succeeds_resolveOperand poses (.inr ⟨total, rfl, bounds⟩)
  have wellFormed : ∀ result, Constraint.WellFormed ⟨operator, variableIds, some result⟩ :=
    fun result =>
      Constraint.wellFormed_of_accepts ((forall₂_of_mapM found).length_eq ▸ accepts) productive.symm
  have records : ∀ {result after}, board.Poses after requirement → model.Grows after →
      (Operand.literal total).referent? after = some result →
        board.Poses (after.record ⟨operator, variableIds, some result⟩) fun cells =>
          requirement cells ∧ demand cells := by
    intro result after afterPoses grows resultFound
    have resultInside := afterPoses.fixesLiterals.lt_size_of_referent? resultFound
    refine afterPoses.record (wellFormed result) (fun variableId reads => ?_) ?_ determined
      (fun assignment satisfied => ?_) tells
    · rcases List.mem_append.mp reads with isOperand | isResult
      · exact Nat.lt_of_lt_of_le (poses.fixesLiterals.lt_size_of_mapM found variableId isOperand)
          grows.size_le
      · cases List.mem_singleton.mp isResult
        exact resultInside
    · rw [Constraint.truthVariable?, if_neg (by simp [unreified])]
    · rw [← means assignment, Constraint.Holds, Option.map_some,
        afterPoses.fixesLiterals.eq_of_satisfied resultFound satisfied]
  refine .bind_of_gives (Gives.check (if_pos accepts))
    (.bind_of_gives resolved (.bind_of_gives Gives.model ?_))
  -- Where the constraint goes depends on whether the operator was declared on the operands before,
  -- but it is recorded in any case.
  cases declared : (model.declared? operator variableIds).bind Constraint.result
  all_goals
    apply resolves.bind
    rintro result after ⟨afterPoses, grows, resultFound⟩
    have tail := succeeds_recordResult afterPoses (wellFormed result)
      (afterPoses.fixesLiterals.lt_size_of_referent? resultFound)
    rw [Model.declared?_congr grows.constraints_eq, declared] at tail
    exact tail.imp (fun _ _ isRecord => isRecord ▸ records afterPoses grows resultFound) fun _ => id

/-! ### Steps that fail -/

section Failing

variable {α β : Type}

/-- From whatever model, the step is refused. -/
def Fails (step : Build α) : Prop :=
  ∀ start, Leads step start (fun _ _ => False) fun _ => True

namespace Fails

/-- Steps in a row are refused if the first one is. -/
theorem bind {step : Build α} (fails : Fails step) (next : α → Build β) : Fails (step >>= next) :=
  fun start => (fails start).bind nofun

/-- They are refused as well if the second one is, whatever the first one comes to. -/
theorem after (step : Build α) {next : α → Build β} (fails : ∀ result, Fails (next result)) :
    Fails (step >>= next) := by
  intro start
  have reaches : Leads step start (fun _ _ => True) fun _ => True := by
    intro workspace _
    split <;> trivial
  exact reaches.bind fun result middle _ => fails result middle

/-- A check that is an error is refused. -/
theorem check {checked : Except ModelError α} {error : ModelError}
    (isError : checked = .error error) : Fails (Build.check checked) :=
  fun _ => isError ▸ .refuse error trivial

end Fails

end Failing

/-! ### Steps that add a requirement -/

/-- Whatever is posed on the board, the step is not refused, and it adds the requirement. -/
def Requires (board : Model) (step : Build Unit) (demand : (VariableId → Int) → Prop) : Prop :=
  ∀ model requirement, board.Poses model requirement →
    Succeeds step model fun _ after => board.Poses after fun cells =>
      requirement cells ∧ demand cells

namespace Requires

variable {demand other : (VariableId → Int) → Prop}

/-- No step requires nothing. -/
theorem pure (board : Model) : Requires board (Pure.pure ()) fun _ => True :=
  fun _ _ poses => .pure (poses.congr fun _ _ => (and_true _).symm ▸ Iff.rfl)

/-- A requirement may be said in other words on the board. -/
theorem congr {step : Build Unit} (requires : Requires board step demand)
    (same : ∀ cells, board.vars.Admits cells → (demand cells ↔ other cells)) :
    Requires board step other :=
  fun model requirement poses => (requires model requirement poses).imp
    (fun _ _ after => after.congr fun cells admits => and_congr_right fun _ =>
      same cells admits) fun _ => id

/-- Steps in a row require what both of them require. -/
theorem bind {first second : Build Unit} (firstRequires : Requires board first demand)
    (secondRequires : Requires board second other) :
    Requires board (first >>= fun _ => second) fun cells => demand cells ∧ other cells := by
  intro model requirement poses
  refine (firstRequires model requirement poses).bind fun _ middle middlePoses => ?_
  exact (secondRequires middle _ middlePoses).imp
    (fun _ _ after => after.congr fun _ _ => and_assoc) fun _ => id

/-- Each entry adds its own requirement. -/
theorem forM {α : Type} {step : α → Build Unit} {demands : α → (VariableId → Int) → Prop}
    {entries : List α} (each : ∀ entry ∈ entries, Requires board (step entry) (demands entry)) :
    Requires board (entries.forM step) fun cells => ∀ entry ∈ entries, demands entry cells := by
  induction entries with
  | nil => exact (pure board).congr fun _ _ => by simp
  | cons first rest inductionHypothesis =>
    obtain ⟨ofFirst, ofRest⟩ := List.forall_mem_cons.mp each
    exact (ofFirst.bind (inductionHypothesis ofRest)).congr fun _ _ => by rw [List.forall_mem_cons]

/-- Settings require nothing. -/
theorem setTargets (board : Model) (targets : Targets) :
    Requires board (ConstraintSearch.setTargets targets) fun _ => True := by
  intro model requirement poses
  refine .bind_of_gives (gives_invalidate_of_unprepared poses.unprepared)
    (.of_gives (Gives.update _) ?_)
  exact (poses.withTargets targets).congr fun _ _ => (and_true _).symm ▸ Iff.rfl

end Requires

end Build

end ConstraintSearch
