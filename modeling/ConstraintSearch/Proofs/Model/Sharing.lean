import ConstraintSearch.Proofs.Model.Session

/-!
# Sharing keeps the solutions

A constraint that was declared before is not declared again: the call gives the result of the former
one, or makes its own equal to it. Calls hold separately if each has a result of its own, which is
that of no other call, not even of one with the same operator and operands.

`Session.exists_satisfied_iff` says that the shared constraints have the solutions of the separate
ones, as long as quotients of zero by zero, which the operands leave open, have one result where
they are about the same variables. Without this condition it does not hold
(`Session.not_exists_satisfied_iff_quotients`).
-/

namespace ConstraintSearch

open Build

/-! ### What an operator says about its result -/

/-- The operands tell the result, except for a quotient of zero by zero. -/
theorem Operator.Holds.result_eq {operator : Operator} {operands : List Int} {first second : Int}
    (holdsFirst : operator.Holds operands (some first))
    (holdsSecond : operator.Holds operands (some second))
    (told : operator = .div → operands ≠ [0, 0]) : first = second := by
  rw [Holds.eq_def] at holdsFirst
  split at holdsFirst
  case h_3 | h_4 | h_5 | h_7 | h_8 =>
    rename_i isResult
    cases isResult
    exact holdsFirst.symm.trans holdsSecond
  case h_6 dividend divisor _ isResult =>
    cases isResult
    change second * divisor = dividend at holdsSecond
    by_cases zero : divisor = 0
    · subst zero
      rw [Int.mul_zero] at holdsFirst
      exact absurd (holdsFirst ▸ rfl) (told rfl)
    · exact Int.eq_of_mul_eq_mul_right zero (holdsFirst.trans holdsSecond.symm)
  case h_9 comparison left right _ isResult =>
    cases isResult
    rcases holdsFirst with ⟨rfl, holds⟩ | ⟨rfl, fails⟩ <;>
      rcases holdsSecond with ⟨rfl, others⟩ | ⟨rfl, others⟩
    · rfl
    · exact absurd holds others
    · exact absurd others fails
    · rfl
  all_goals contradiction

/-- A result is among the values that an anonymous one can have. -/
theorem Constraint.Holds.mem_resultDomain {constraint : Constraint} {assignment : VariableId → Int}
    {result : VariableId} (holds : constraint.Holds assignment) (wellFormed : constraint.WellFormed)
    (isResult : constraint.result = some result)
    (bounds : valueFloor ≤ assignment result ∧ assignment result ≤ valueCeiling) :
    assignment result ∈ constraint.operator.resultDomain := by
  cases wellFormed with
  | compare | distinct => cases isResult
  | plus | minus | mul | div | sum | product =>
    cases isResult
    exact Domain.mem_full.mpr bounds
  | reify comparison left right other =>
    cases isResult
    change assignment result ∈ Domain.range 0 1
    have truth : assignment result = 1 ∨ assignment result = 0 := holds.imp And.left And.left
    exact Domain.mem_range.mpr ⟨by omega, bounds⟩

/-! ### Calls that hold separately -/

/-- The value that is meant, if each call has a result of its own. -/
def Reference.value? (model : Model) (assignment : VariableId → Int) (results : Nat → Int) :
    Reference → Option Int
  | direct (.literal value) => some value
  | direct operand => (operand.referent? model).map assignment
  | resultOf index => some (results index)

/-- The call holds as a constraint of its own: its result is bound to what it names, and else is a
value of the domain of results. A variable that was added for an anonymous result has its value. -/
structure Call.HoldsSeparately (call : Call) (model : Model) (assignment : VariableId → Int)
    (results : Nat → Int) (index : Nat) : Prop where
  relation : ∃ values, call.operands.mapM (Reference.value? model assignment results) =
    some values ∧ call.operator.Holds values (call.returned.map fun _ => results index)
  named : ∀ reference, call.result = some reference →
    reference.value? model assignment results = some (results index)
  anonymous : call.result = none → ∀ result, call.returned = some result →
    results index ∈ call.operator.resultDomain ∧
      (call.known ≤ result → results index = assignment result)

/-- Every call holds as a constraint of its own. -/
def HoldSeparately (calls : List Call) (model : Model) (assignment : VariableId → Int)
    (results : Nat → Int) : Prop :=
  ∀ (index : Nat) (call : Call), calls[index]? = some call →
    call.HoldsSeparately model assignment results index

/-- Quotients of zero by zero have the same result if they are about the same variables. -/
def QuotientsAgree (calls : List Call) (model : Model) (assignment : VariableId → Int)
    (results : Nat → Int) : Prop :=
  ∀ (first second : Nat) (firstCall secondCall : Call), calls[first]? = some firstCall →
    calls[second]? = some secondCall → firstCall.operator = .div → secondCall.operator = .div →
    firstCall.operands.mapM (Reference.referent? calls model) =
      secondCall.operands.mapM (Reference.referent? calls model) →
    firstCall.operands.mapM (Reference.value? model assignment results) = some [0, 0] →
    secondCall.operands.mapM (Reference.value? model assignment results) = some [0, 0] →
      results first = results second

/-! ### Shared and separate results -/

section Values

variable {calls : List Call} {model : Model} {made : List Constraint}
  {assignment : VariableId → Int} {results : Nat → Int}

/-- The results of the calls are the values of their variables. -/
def Tied (calls : List Call) (assignment : VariableId → Int) (results : Nat → Int) : Prop :=
  ∀ (index : Nat) (call : Call) (result : VariableId), calls[index]? = some call →
    call.returned = some result → results index = assignment result

/-- Calls are tied to their results as long as fewer of them are looked at. -/
theorem Tied.take (tied : Tied calls assignment results) (bound : Nat) :
    Tied (calls.take bound) assignment results := by
  intro index call result isCall
  rw [List.getElem?_take, Option.ite_none_right_eq_some] at isCall
  exact tied index call result isCall.2

/-- The variable that a call returned has its result. -/
theorem Tied.map_returned (tied : Tied calls assignment results) {index : Nat} {call : Call}
    (isCall : calls[index]? = some call) :
    call.returned.map (fun _ => results index) = call.returned.map assignment := by
  cases isReturned : call.returned with
  | none => rfl
  | some result => exact congrArg some (tied index call result isCall isReturned)

/-- A reference to tied results means the value of its variable. -/
theorem Reference.value?_of_tied (fixes : model.FixesLiterals)
    (admits : model.vars.Admits assignment) (tied : Tied calls assignment results)
    {reference : Reference} {variableId : VariableId}
    (found : reference.referent? calls model = some variableId) :
    reference.value? model assignment results = some (assignment variableId) := by
  obtain ⟨operand, isOperand, isReferent⟩ := Option.bind_eq_some_iff.mp found
  cases reference with
  | direct direct =>
    cases isOperand
    cases operand with
    | literal value =>
      rw [Operand.referent?] at isReferent
      split at isReferent
      · obtain ⟨inside, _, fixed⟩ := fixes value variableId isReferent
        exact congrArg some (Domain.mem_value.mp (fixed _ (admits variableId inside))).1.symm
      · cases isReferent
    | named | position => exact congrArg (Option.map assignment) isReferent
  | resultOf index =>
    obtain ⟨position, isReturned, rfl⟩ := Option.map_eq_some_iff.mp isOperand
    obtain ⟨call, isCall, isResult⟩ := Option.bind_eq_some_iff.mp isReturned
    cases Operand.eq_of_referent?_position isReferent
    exact congrArg some (tied index call variableId isCall isResult)

/-- After tied results the operands of a call mean the values of the variables of its constraint. -/
theorem Call.Makes.values {call : Call} {constraint : Constraint}
    (makes : call.Makes constraint calls made model) (fixes : model.FixesLiterals)
    (admits : model.vars.Admits assignment) (tied : Tied calls assignment results) :
    call.operands.mapM (Reference.value? model assignment results) =
      some (constraint.operands.map assignment) :=
  mapM_of_forall₂ (List.forall₂_map_right_iff.mpr
    ((forall₂_of_mapM makes.operands_found).imp fun _ _ =>
      Reference.value?_of_tied fixes admits tied))

/-- The operands of a call stand for the variables of its constraint after further calls, too. -/
theorem Call.Makes.variables {call : Call} {constraint : Constraint} {index : Nat}
    {prior : List Constraint} (makes : call.Makes constraint (calls.take index) prior model) :
    call.operands.mapM (Reference.referent? calls model) = some constraint.operands :=
  Reference.mapM_referent?_mono (List.take_prefix index calls) (.refl model) makes.operands_found

namespace Trace

variable (trace : Trace calls model made)

include trace

/-- Every call makes a constraint, given those before it. -/
theorem exists_makes {index : Nat} {call : Call} (isCall : calls[index]? = some call) :
    ∃ constraint, made[index]? = some constraint ∧
      call.Makes constraint (calls.take index) (made.take index) model := by
  have inside : index < made.length := trace.length_eq ▸ (List.getElem?_eq_some_iff.mp isCall).1
  have isMade := List.getElem?_eq_getElem inside
  exact ⟨_, isMade, trace.makes index call _ isCall isMade⟩

/-- Each constraint was made by a call. -/
theorem exists_call {constraint : Constraint} (inside : constraint ∈ made) :
    ∃ (index : Nat) (call : Call), calls[index]? = some call ∧
      call.Makes constraint (calls.take index) (made.take index) model := by
  obtain ⟨index, isMade⟩ := List.getElem?_of_mem inside
  have before : index < calls.length := trace.length_eq ▸ (List.getElem?_eq_some_iff.mp isMade).1
  have isCall := List.getElem?_eq_getElem before
  exact ⟨index, _, isCall, trace.makes index _ constraint isCall isMade⟩

/-- Calls that made constraints on the same operands have the same result, because of their operator
or because quotients agree. -/
theorem results_eq (admits : model.vars.Admits assignment)
    (separately : HoldSeparately calls model assignment results)
    (agree : QuotientsAgree calls model assignment results) {first second : Nat}
    {firstCall secondCall : Call} {former constraint : Constraint} {existing result : VariableId}
    (isFirst : calls[first]? = some firstCall) (isSecond : calls[second]? = some secondCall)
    (firstMakes : firstCall.Makes former (calls.take first) (made.take first) model)
    (secondMakes : secondCall.Makes constraint (calls.take second) (made.take second) model)
    (firstTied : Tied (calls.take first) assignment results)
    (secondTied : Tied (calls.take second) assignment results)
    (sameOperator : former.operator = constraint.operator)
    (sameOperands : former.operands = constraint.operands)
    (isExisting : former.result = some existing) (isResult : constraint.result = some result) :
    results first = results second := by
  have firstValues := firstMakes.values trace.fixesLiterals admits firstTied
  have secondValues := secondMakes.values trace.fixesLiterals admits secondTied
  rw [sameOperands] at firstValues
  obtain ⟨_, firstMeant, firstHolds⟩ := (separately first firstCall isFirst).relation
  obtain ⟨_, secondMeant, secondHolds⟩ := (separately second secondCall isSecond).relation
  cases firstMeant.symm.trans firstValues
  cases secondMeant.symm.trans secondValues
  rw [← firstMakes.operator_eq, ← firstMakes.result_eq, isExisting, Option.map_some, sameOperator]
    at firstHolds
  rw [← secondMakes.operator_eq, ← secondMakes.result_eq, isResult, Option.map_some] at secondHolds
  by_cases undetermined : constraint.operator = .div ∧ constraint.operands.map assignment = [0, 0]
  · obtain ⟨quotient, zeros⟩ := undetermined
    have sameVariables := firstMakes.variables.trans (sameOperands ▸ secondMakes.variables.symm)
    exact agree first second firstCall secondCall isFirst isSecond
      (firstMakes.operator_eq ▸ sameOperator ▸ quotient) (secondMakes.operator_eq ▸ quotient)
      sameVariables (zeros ▸ firstValues) (zeros ▸ secondValues)
  · exact firstHolds.result_eq secondHolds fun quotient zeros => undetermined ⟨quotient, zeros⟩

/-- Separate results have the values of the variables that are shared. -/
theorem tied (admits : model.vars.Admits assignment)
    (separately : HoldSeparately calls model assignment results)
    (agree : QuotientsAgree calls model assignment results) : Tied calls assignment results := by
  -- A call refers to results of earlier calls only, and an anonymous result is new or that of an
  -- earlier call.
  intro index
  induction index using Nat.strong_induction_on with
  | h index inductionHypothesis =>
    intro call result isCall isReturned
    have tiedBefore : ∀ {bound}, bound ≤ index → Tied (calls.take bound) assignment results := by
      intro bound le earlier other otherResult isOther isOtherReturned
      rw [List.getElem?_take, Option.ite_none_right_eq_some] at isOther
      exact inductionHypothesis earlier (Nat.lt_of_lt_of_le isOther.1 le) other otherResult
        isOther.2 isOtherReturned
    obtain ⟨constraint, isMade, makes⟩ := trace.exists_makes isCall
    have isResult : constraint.result = some result := makes.result_eq.trans isReturned
    have held := separately index call isCall
    cases asked : call.result with
    | some reference =>
      obtain ⟨other, isOther, isReferent⟩ := makes.named reference asked
      cases isOther.symm.trans isResult
      have meant := Reference.value?_of_tied trace.fixesLiterals admits
        (tiedBefore (Nat.le_refl _)) isReferent
      exact Option.some.inj ((held.named reference asked).symm.trans meant)
    | none =>
      rcases Nat.lt_or_ge result call.known with old | new
      · obtain ⟨earlier, former, isFormer, sameOperator, sameOperands, formerResult⟩ :=
          makes.shared asked result isResult old
        rw [List.getElem?_take, Option.ite_none_right_eq_some] at isFormer
        obtain ⟨less, isFormer⟩ := isFormer
        have isEarlier :=
          List.getElem?_eq_getElem (Nat.lt_trans less (List.getElem?_eq_some_iff.mp isCall).1)
        have formerMakes := trace.makes earlier _ former isEarlier isFormer
        have same := trace.results_eq admits separately agree isEarlier isCall formerMakes makes
          (tiedBefore (Nat.le_of_lt less)) (tiedBefore (Nat.le_refl _)) sameOperator sameOperands
          formerResult isResult
        have formerReturned := formerMakes.result_eq.symm.trans formerResult
        exact same.symm.trans (inductionHypothesis earlier less _ result isEarlier formerReturned)
      · exact (held.anonymous asked result isReturned).2 new

/-- Tied separate results satisfy the shared constraints. -/
theorem satisfied (admits : model.vars.Admits assignment)
    (separately : HoldSeparately calls model assignment results)
    (agree : QuotientsAgree calls model assignment results) : model.Satisfied assignment := by
  have tied := trace.tied admits separately agree
  refine ⟨admits, (trace.represents.holds_iff assignment).mpr fun constraint inside => ?_⟩
  obtain ⟨index, call, isCall, makes⟩ := trace.exists_call inside
  have values := makes.values trace.fixesLiterals admits (tied.take index)
  constructor
  · obtain ⟨_, meant, holds⟩ := (separately index call isCall).relation
    cases meant.symm.trans values
    rw [Constraint.Holds, makes.operator_eq, makes.result_eq, ← tied.map_returned isCall]
    exact holds
  · intro former found existing result isExisting isResult
    obtain ⟨_, sameOperator, sameOperands⟩ := Model.mem_of_declared? found
    have productive := makes.wellFormed.producesValue_of_result isResult
    obtain ⟨earlier, earlierCall, isEarlier, formerMakes⟩ :=
      trace.exists_call (trace.represents.mem_of_declared? productive found)
    have formerReturned := formerMakes.result_eq.symm.trans isExisting
    have returned := makes.result_eq.symm.trans isResult
    rw [← tied earlier earlierCall existing isEarlier formerReturned,
      ← tied index call result isCall returned]
    exact trace.results_eq admits separately agree isEarlier isCall formerMakes makes
      (tied.take earlier) (tied.take index) sameOperator sameOperands isExisting isResult

/-- The result of a call has the value of that of the first constraint on its operands. -/
theorem exists_former (sound : model.Sound) (satisfied : model.Satisfied assignment) {index : Nat}
    {call : Call} {constraint : Constraint}
    (makes : call.Makes constraint (calls.take index) (made.take index) model)
    (inside : constraint ∈ made) {result : VariableId}
    (isResult : constraint.result = some result) :
    ∃ former, model.declared? constraint.operator constraint.operands = some former ∧
      ∃ existing < model.vars.size, former.result = some existing ∧
        assignment existing = assignment result := by
  obtain ⟨former, found⟩ := trace.represents.exists_declared? constraint inside
  obtain ⟨existing, isExisting, existingInside⟩ :=
    sound.exists_result found (makes.wellFormed.producesValue_of_result isResult)
  have concurs :=
    ((trace.represents.holds_iff assignment).mp satisfied.2 constraint inside).2 former found
  exact ⟨former, found, existing, existingInside, isExisting,
    concurs existing result isExisting isResult⟩

/-- The values of the variables that the calls returned satisfy each of them. -/
theorem holdSeparately (sound : model.Sound) (satisfied : model.Satisfied assignment)
    (tied : Tied calls assignment results) : HoldSeparately calls model assignment results := by
  intro index call isCall
  obtain ⟨constraint, isMade, makes⟩ := trace.exists_makes isCall
  have inside := List.mem_of_getElem? isMade
  have holds := ((trace.represents.holds_iff assignment).mp satisfied.2 constraint inside).1
  constructor
  case relation =>
    refine ⟨_, makes.values trace.fixesLiterals satisfied.1 (tied.take index), ?_⟩
    rw [Constraint.Holds, makes.operator_eq, makes.result_eq, ← tied.map_returned isCall] at holds
    exact holds
  case named =>
    intro reference asked
    obtain ⟨result, isResult, isReferent⟩ := makes.named reference asked
    rw [tied index call result isCall (makes.result_eq.symm.trans isResult)]
    exact Reference.value?_of_tied trace.fixesLiterals satisfied.1 (tied.take index) isReferent
  case anonymous =>
    intro _ result isReturned
    have isResult := makes.result_eq.trans isReturned
    obtain ⟨_, _, existing, existingInside, _, same⟩ :=
      trace.exists_former sound satisfied makes inside isResult
    have bounds := Domain.bounds (satisfied.1 existing existingInside)
    rw [tied index call result isCall isReturned, ← makes.operator_eq]
    exact ⟨holds.mem_resultDomain makes.wellFormed isResult (same ▸ bounds), fun _ => rfl⟩

/-- Quotients about the same variables have the value of the first of them. -/
theorem quotientsAgree (sound : model.Sound) (satisfied : model.Satisfied assignment)
    (tied : Tied calls assignment results) : QuotientsAgree calls model assignment results := by
  intro first second firstCall secondCall isFirst isSecond firstQuotient secondQuotient
    sameVariables _ _
  obtain ⟨firstConstraint, firstMade, firstMakes⟩ := trace.exists_makes isFirst
  obtain ⟨secondConstraint, secondMade, secondMakes⟩ := trace.exists_makes isSecond
  have exists_result : ∀ {constraint : Constraint}, constraint.WellFormed →
      constraint.operator = .div → ∃ result, constraint.result = some result := by
    intro constraint wellFormed quotient
    rw [← Option.isSome_iff_exists, ← wellFormed.producesValue_eq, quotient]
    rfl
  -- Both results have the value of the first quotient that was declared on these variables.
  obtain ⟨firstResult, isFirstResult⟩ :=
    exists_result firstMakes.wellFormed (firstMakes.operator_eq.trans firstQuotient)
  obtain ⟨secondResult, isSecondResult⟩ :=
    exists_result secondMakes.wellFormed (secondMakes.operator_eq.trans secondQuotient)
  obtain ⟨former, found, existing, _, isExisting, firstSame⟩ :=
    trace.exists_former sound satisfied firstMakes (List.mem_of_getElem? firstMade) isFirstResult
  obtain ⟨other, otherFound, otherExisting, _, isOther, secondSame⟩ :=
    trace.exists_former sound satisfied secondMakes (List.mem_of_getElem? secondMade) isSecondResult
  rw [firstMakes.variables, secondMakes.variables, Option.some.injEq] at sameVariables
  rw [firstMakes.operator_eq, firstQuotient, sameVariables] at found
  rw [secondMakes.operator_eq, secondQuotient, found] at otherFound
  cases otherFound
  cases isExisting.symm.trans isOther
  rw [tied first firstCall firstResult isFirst (firstMakes.result_eq.symm.trans isFirstResult),
    tied second secondCall secondResult isSecond (secondMakes.result_eq.symm.trans isSecondResult),
    ← firstSame, secondSame]

/-- The shared constraints are satisfied just if the calls hold separately and quotients agree. -/
theorem satisfied_iff (sound : model.Sound) : model.Satisfied assignment ↔
    ∃ results, model.vars.Admits assignment ∧ HoldSeparately calls model assignment results ∧
      QuotientsAgree calls model assignment results := by
  constructor
  · intro satisfied
    let results (index : Nat) : Int := ((calls[index]?.bind Call.returned).map assignment).getD 0
    have tied : Tied calls assignment results := by
      intro index call result isCall isReturned
      simp only [results, isCall, Option.bind_some, isReturned, Option.map_some, Option.getD_some]
    exact ⟨results, satisfied.1, trace.holdSeparately sound satisfied tied,
      trace.quotientsAgree sound satisfied tied⟩
  · rintro ⟨results, admits, separately, agree⟩
    exact trace.satisfied admits separately agree

end Trace

end Values

/-- Sharing keeps the solutions, whichever variables of them are looked at: those of the shared
constraints are those of the calls taken separately, with a fresh result for each, except that
quotients of zero by zero about the same variables have one result. -/
theorem Session.exists_satisfied_iff {calls : List Call} {workspace : Workspace}
    (session : Session calls workspace) (visible : VariableId → Prop)
    (assignment : VariableId → Int) :
    (∃ full : VariableId → Int,
      (∀ variableId, visible variableId → full variableId = assignment variableId) ∧
        workspace.model.Satisfied full) ↔
      ∃ (full : VariableId → Int) (results : Nat → Int),
        (∀ variableId, visible variableId → full variableId = assignment variableId) ∧
          workspace.model.vars.Admits full ∧ HoldSeparately calls workspace.model full results ∧
            QuotientsAgree calls workspace.model full results := by
  obtain ⟨made, trace⟩ := session.exists_trace
  have sound := session.reachable.sound
  constructor
  · rintro ⟨full, same, satisfied⟩
    obtain ⟨results, admits, separately, agree⟩ := (trace.satisfied_iff sound).mp satisfied
    exact ⟨full, results, same, admits, separately, agree⟩
  · rintro ⟨full, results, same, separate⟩
    exact ⟨full, same, (trace.satisfied_iff sound).mpr ⟨results, separate⟩⟩

namespace Session

/-- Two quotients of the same operands, whose results can only be different values. -/
def quotients : Workspace :=
  .ofRequests
    [.declareRange "A" 0 0, .declareRange "B" 0 0, .declareRange "R" 1 1, .declareRange "S" 2 2,
      .declareConstraint .div [.named "A", .named "B"] (some (.named "R")),
      .declareConstraint .div [.named "A", .named "B"] (some (.named "S"))]

def quotientCalls : List Call :=
  [⟨.div, [.direct (.named "A"), .direct (.named "B")], some (.direct (.named "R")), some 2, 4⟩,
    ⟨.div, [.direct (.named "A"), .direct (.named "B")], some (.direct (.named "S")), some 3, 4⟩]

/-- The calls were made one after the other. -/
theorem session_quotients : Session quotientCalls quotients := by
  have declared : Session []
      (.ofRequests [.declareRange "A" 0 0, .declareRange "B" 0 0, .declareRange "R" 1 1,
        .declareRange "S" 2 2]) := by
    refine .request (.request (.request (.request (.empty {}) _ ?_) _ ?_) _ ?_) _ ?_ <;>
      rintro ⟨_, _, _, ⟨⟩⟩
  have first := declared.call
    (show [.direct (.named "A"), .direct (.named "B")].mapM (Reference.operand? []) =
      some [.named "A", .named "B"] from rfl)
    (show (some (.direct (.named "R"))).mapM (Reference.operand? []) =
      some (some (.named "R")) from rfl)
    (show ((addConstraint .div _ _).run _).1 = .ok (some 2) from rfl)
  exact first.call
    (show [.direct (.named "A"), .direct (.named "B")].mapM (Reference.operand? _) =
      some [.named "A", .named "B"] from rfl)
    (show (some (.direct (.named "S"))).mapM (Reference.operand? _) =
      some (some (.named "S")) from rfl)
    (show ((addConstraint .div _ _).run _).1 = .ok (some 3) from rfl)

/-- Without the condition on quotients: the results of the separate calls are 1 and 2, and the
shared ones are equal. -/
theorem not_exists_satisfied_iff_quotients :
    Session quotientCalls quotients ∧
      ¬ ((∃ full : VariableId → Int,
          (∀ variableId < 4, full variableId = [0, 0, 1, 2].getD variableId 0) ∧
            quotients.model.Satisfied full) ↔
        ∃ (full : VariableId → Int) (results : Nat → Int),
          (∀ variableId < 4, full variableId = [0, 0, 1, 2].getD variableId 0) ∧
            quotients.model.vars.Admits full ∧
              HoldSeparately quotientCalls quotients.model full results) := by
  refine ⟨session_quotients, fun same => ?_⟩
  have admits : quotients.model.vars.Admits ([0, 0, 1, 2].getD · 0) := by
    change ∀ variableId < quotients.model.vars.size,
      [0, 0, 1, 2].getD variableId 0 ∈ quotients.model.vars.domainOf variableId
    decide +kernel
  have separately : HoldSeparately quotientCalls quotients.model ([0, 0, 1, 2].getD · 0)
      ([1, 2].getD · 0) := by
    have operands : [.direct (.named "A"), .direct (.named "B")].mapM
        (Reference.value? quotients.model ([0, 0, 1, 2].getD · 0) ([1, 2].getD · 0)) =
          some [0, 0] := by
      decide +kernel
    have held : ∀ (result : VariableId) (asked : Reference) (index : Nat),
        asked.value? quotients.model ([0, 0, 1, 2].getD · 0) ([1, 2].getD · 0) =
          some ([1, 2].getD index 0) →
            Call.HoldsSeparately ⟨.div, [.direct (.named "A"), .direct (.named "B")], some asked,
              some result, 4⟩ quotients.model ([0, 0, 1, 2].getD · 0) ([1, 2].getD · 0) index := by
      intro result asked index named
      refine ⟨⟨_, operands, Int.mul_zero _⟩, ?_, nofun⟩
      rintro _ ⟨rfl⟩
      exact named
    rintro (_ | _ | index) call ⟨⟩
    · exact held 2 _ 0 (by decide +kernel)
    · exact held 3 _ 1 (by decide +kernel)
  -- Declaring the second quotient has made both results equal, which 1 and 2 are not.
  obtain ⟨full, known, _, satisfied⟩ := same.mpr ⟨_, _, fun _ _ => rfl, admits, separately⟩
  have unified : full 2 = full 3 := satisfied ⟨.compare .eq, [2, 3], none⟩ (by decide +kernel)
  rw [known 2 (by decide), known 3 (by decide)] at unified
  exact absurd unified (by decide)

/-- A sum that is asked for twice, with its results in further constraints. -/
def sums : Workspace :=
  .ofRequests
    [.declareRange "X" 0 3, .declareRange "Y" 0 3, .declareRange "Z" 0 6,
      .declareConstraint .plus [.named "X", .named "Y"] none,
      .declareConstraint .plus [.named "X", .named "Y"] none,
      .declareConstraint .minus [.position 3, .named "X"] (some (.named "Z")),
      .declareConstraint (.compare .lt) [.position 3, .literal 5] none]

def sumCalls : List Call :=
  [⟨.plus, [.direct (.named "X"), .direct (.named "Y")], none, some 3, 3⟩,
    ⟨.plus, [.direct (.named "X"), .direct (.named "Y")], none, some 3, 4⟩,
    ⟨.minus, [.resultOf 0, .direct (.named "X")], some (.direct (.named "Z")), some 2, 4⟩,
    ⟨.compare .lt, [.resultOf 1, .direct (.literal 5)], none, none, 4⟩]

/-- These calls were made one after the other, too. -/
theorem session_sums : Session sumCalls sums := by
  have declared :
      Session [] (.ofRequests [.declareRange "X" 0 3, .declareRange "Y" 0 3,
        .declareRange "Z" 0 6]) := by
    refine .request (.request (.request (.empty {}) _ ?_) _ ?_) _ ?_ <;> rintro ⟨_, _, _, ⟨⟩⟩
  have first := declared.call
    (show [.direct (.named "X"), .direct (.named "Y")].mapM (Reference.operand? _) =
      some [.named "X", .named "Y"] from rfl)
    (show none.mapM (Reference.operand? _) = some none from rfl)
    (show ((addConstraint .plus _ _).run _).1 = .ok (some 3) from rfl)
  have second := first.call
    (show [.direct (.named "X"), .direct (.named "Y")].mapM (Reference.operand? _) =
      some [.named "X", .named "Y"] from rfl)
    (show none.mapM (Reference.operand? _) = some none from rfl)
    (show ((addConstraint .plus _ _).run _).1 = .ok (some 3) from rfl)
  have third := second.call
    (show [.resultOf 0, .direct (.named "X")].mapM (Reference.operand? _) =
      some [.position 3, .named "X"] from rfl)
    (show (some (.direct (.named "Z"))).mapM (Reference.operand? _) =
      some (some (.named "Z")) from rfl)
    (show ((addConstraint .minus _ _).run _).1 = .ok (some 2) from rfl)
  exact third.call
    (show [.resultOf 1, .direct (.literal 5)].mapM (Reference.operand? _) =
      some [.position 3, .literal 5] from rfl)
    (show none.mapM (Reference.operand? _) = some none from rfl)
    (show ((addConstraint (.compare .lt) _ _).run _).1 = .ok none from rfl)

/-- The values 1, 2 and 2 of the variables satisfy every call on its own. -/
theorem exists_separate_sums :
    ∃ (full : VariableId → Int) (results : Nat → Int),
      (∀ variableId < 3, full variableId = [1, 2, 2].getD variableId 0) ∧
        sums.model.vars.Admits full ∧ HoldSeparately sumCalls sums.model full results ∧
          QuotientsAgree sumCalls sums.model full results := by
  apply (session_sums.exists_satisfied_iff (· < 3) ([1, 2, 2].getD · 0)).mp
  refine ⟨([1, 2, 2, 3, 5].getD · 0), by decide, ?_, ?_⟩
  · change ∀ variableId < sums.model.vars.size, [1, 2, 2, 3, 5].getD variableId 0 ∈
      sums.model.vars.domainOf variableId
    decide +kernel
  · have declared : sums.model.constraints.toList =
        [⟨.plus, [0, 1], some 3⟩, ⟨.minus, [3, 0], some 2⟩, ⟨.compare .lt, [3, 4], none⟩] := by
      decide +kernel
    rw [declared]
    simp [Constraint.Holds, Operator.Holds, Comparison.Holds]

end Session

end ConstraintSearch
