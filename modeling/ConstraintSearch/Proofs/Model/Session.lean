import ConstraintSearch.Proofs.Model.Recording

/-!
# Sessions of calls

A session is a sequence of calls that declare constraints, with any other requests between them. A
call can be about the result of an earlier one, which the caller only knows as the position of a
variable. The calls of a session have made constraints over the variables that their operands and
results stand for, in the same order (`Trace`), and the constraints of the model stand for those.
-/

namespace ConstraintSearch

open Build

/-! ### Calls -/

/-- What a call is about: a variable or a value, or the result of an earlier call. -/
inductive Reference
  | direct (operand : Operand)
  | resultOf (index : Nat)
deriving DecidableEq, Repr

/-- A call that declared a constraint. -/
structure Call where
  operator : Operator
  operands : List Reference
  result : Option Reference
  /-- The variable of the result, if the operator produces a value. -/
  returned : Option VariableId
  /-- The number of variables before the call. -/
  known : Nat

namespace Reference

/-- The operand that the call is made with. -/
def operand? (calls : List Call) : Reference → Option Operand
  | direct operand => some operand
  | resultOf index => (calls[index]?.bind Call.returned).map .position

/-- The variable that the reference stands for in the model. -/
def referent? (calls : List Call) (model : Model) (reference : Reference) : Option VariableId :=
  (reference.operand? calls).bind (Operand.referent? model)

end Reference

/-- Calls that were made one after the other, with other requests between them, and the workspace
they lead to. -/
inductive Session : List Call → Workspace → Prop
  | empty (journal : Journal) : Session [] { journal }
  | request {calls : List Call} {workspace : Workspace} (session : Session calls workspace)
      (request : Request)
    (other : ¬ request.Constrains) : Session calls (request.after workspace)
  | refused {calls : List Call} {workspace : Workspace} (session : Session calls workspace)
      {operator : Operator}
    {operands : List Operand} {result : Option Operand} {refusal : Refusal}
    (fails : ((addConstraint operator operands result).run workspace).1 = .error refusal) :
    Session calls ((Request.declareConstraint operator operands result).after workspace)
  | call {calls : List Call} {workspace : Workspace} (session : Session calls workspace)
      {operator : Operator}
    {references : List Reference} {asked : Option Reference} {operands : List Operand}
      {result : Option Operand}
    {returned : Option VariableId}
      (operandsFound : references.mapM (Reference.operand? calls) = some operands)
    (resultFound : asked.mapM (Reference.operand? calls) = some result)
    (succeeds : ((addConstraint operator operands result).run workspace).1 = .ok returned) :
    Session (calls ++ [⟨operator, references, asked, returned, workspace.model.vars.size⟩])
      ((Request.declareConstraint operator operands result).after workspace)

/-! ### What the calls have made -/

/-- The constraint that the call has made, after prior calls and their constraints. -/
structure Call.Makes (call : Call) (constraint : Constraint) (prior : List Call)
    (made : List Constraint) (model : Model) : Prop where
  operator_eq : constraint.operator = call.operator
  operands_found : call.operands.mapM (Reference.referent? prior model) = some constraint.operands
  result_eq : constraint.result = call.returned
  wellFormed : constraint.WellFormed
  named : ∀ reference, call.result = some reference →
    ∃ result, constraint.result = some result ∧ reference.referent? prior model = some result
  /-- An anonymous result that is no new variable is that of a prior constraint. -/
  shared : call.result = none → ∀ result, constraint.result = some result → result < call.known →
    ∃ (earlier : Nat) (former : Constraint), made[earlier]? = some former ∧
      former.operator = constraint.operator ∧ former.operands = constraint.operands ∧
        former.result = some result

/-- The calls have made the constraints, which the model represents. -/
structure Trace (calls : List Call) (model : Model) (made : List Constraint) : Prop where
  fixesLiterals : model.FixesLiterals
  represents : model.Represents made
  length_eq : made.length = calls.length
  makes : ∀ (index : Nat) (call : Call) (constraint : Constraint), calls[index]? = some call →
    made[index]? = some constraint →
      call.Makes constraint (calls.take index) (made.take index) model

/-- Without any calls, nothing has been made. -/
theorem trace_empty : Trace [] {} [] where
  fixesLiterals := Model.fixesLiterals_empty
  represents := Model.represents_empty
  length_eq := rfl
  makes _ _ _ isCall _ := absurd isCall (by simp)

section Retained

variable {calls others : List Call} {model later : Model}

/-- A reference goes on to stand for its variable as calls are added and the model grows. -/
theorem Reference.referent?_mono (before : calls <+: others) (retains : model.Retains later)
    {reference : Reference} {variableId : VariableId}
    (found : reference.referent? calls model = some variableId) :
    reference.referent? others later = some variableId := by
  obtain ⟨operand, isOperand, isReferent⟩ := Option.bind_eq_some_iff.mp found
  refine Option.bind_eq_some_iff.mpr ⟨operand, ?_, retains.referent?_of_some isReferent⟩
  cases reference with
  | direct => exact isOperand
  | resultOf index =>
    obtain ⟨position, isReturned, rfl⟩ := Option.map_eq_some_iff.mp isOperand
    obtain ⟨call, isCall, isResult⟩ := Option.bind_eq_some_iff.mp isReturned
    have stays : others[index]? = some call := by
      obtain ⟨more, rfl⟩ := before
      rw [List.getElem?_append_left (List.getElem?_eq_some_iff.mp isCall).1, isCall]
    rw [operand?, stays, Option.bind_some, isResult]
    rfl

/-- So do all references of a list. -/
theorem Reference.mapM_referent?_mono (before : calls <+: others) (retains : model.Retains later)
    {references : List Reference} {variableIds : List VariableId}
    (found : references.mapM (referent? calls model) = some variableIds) :
    references.mapM (referent? others later) = some variableIds :=
  mapM_of_forall₂ ((forall₂_of_mapM found).imp fun _ _ => referent?_mono before retains)

/-- A call has made its constraint in every later model, too. -/
theorem Call.Makes.retained {call : Call} {constraint : Constraint} {made : List Constraint}
    (makes : call.Makes constraint calls made model) (retains : model.Retains later) :
    call.Makes constraint calls made later where
  operator_eq := makes.operator_eq
  operands_found := Reference.mapM_referent?_mono List.prefix_rfl retains makes.operands_found
  result_eq := makes.result_eq
  wellFormed := makes.wellFormed
  named reference isNamed := by
    obtain ⟨result, isResult, found⟩ := makes.named reference isNamed
    exact ⟨result, isResult, Reference.referent?_mono List.prefix_rfl retains found⟩
  shared := makes.shared

/-- A request that is no call changes nothing about the calls. -/
theorem Trace.keep {made : List Constraint} (trace : Trace calls model made)
    (keeps : model.Keeps later) : Trace calls later made where
  fixesLiterals := keeps.fixesLiterals trace.fixesLiterals
  represents := trace.represents.congr keeps.constraints_eq
  length_eq := trace.length_eq
  makes index call constraint isCall isMade :=
    (trace.makes index call constraint isCall isMade).retained keeps.toRetains

/-- The references of a call stand for the variables of its operands. -/
theorem Reference.mapM_referent?_of_operand? {references : List Reference} {operands : List Operand}
    {variableIds : List VariableId}
    (operandsFound : references.mapM (operand? calls) = some operands)
    (found : operands.mapM (Operand.referent? model) = some variableIds) :
    references.mapM (referent? calls model) = some variableIds := by
  have given := forall₂_of_mapM operandsFound
  have resolved := forall₂_of_mapM found
  apply mapM_of_forall₂
  clear operandsFound found
  induction given generalizing variableIds with
  | nil =>
    cases resolved
    exact .nil
  | cons isOperand _ inductionHypothesis =>
    cases resolved with
    | cons isReferent rest =>
      exact .cons (Option.bind_eq_some_iff.mpr ⟨_, isOperand, isReferent⟩)
        (inductionHypothesis rest)

/-- A call makes the constraint that it records. -/
theorem Trace.call {made : List Constraint} (trace : Trace calls model made) (sound : model.Sound)
    {operator : Operator} {references : List Reference} {asked : Option Reference}
    {operands : List Operand} {result : Option Operand} {constraint : Constraint}
    (operandsFound : references.mapM (Reference.operand? calls) = some operands)
    (resultFound : asked.mapM (Reference.operand? calls) = some result)
    (records : model.Records later ⟨operator, operands, result⟩ constraint) :
    Trace (calls ++ [⟨operator, references, asked, constraint.result, model.vars.size⟩]) later
      (made ++ [constraint]) where
  fixesLiterals := records.fixesLiterals trace.fixesLiterals
  represents := (trace.represents.record sound records.wellFormed).congr records.constraints_eq
  length_eq := by rw [List.length_append, List.length_append, trace.length_eq]; rfl
  makes := by
    intro index call other isCall isMade
    -- An older call sees the calls before it as it did; the new one sees all of them.
    rcases Nat.lt_or_ge index calls.length with before | atEnd
    · have beforeMade : index < made.length := trace.length_eq ▸ before
      rw [List.getElem?_append_left before] at isCall
      rw [List.getElem?_append_left beforeMade] at isMade
      rw [List.take_append_of_le_length (Nat.le_of_lt before),
        List.take_append_of_le_length (Nat.le_of_lt beforeMade)]
      exact (trace.makes index call other isCall isMade).retained records.toRetains
    · have last : index = calls.length := by
        have inside := (List.getElem?_eq_some_iff.mp isCall).1
        rw [List.length_append, List.length_singleton] at inside
        omega
      subst last
      have isLast : constraint = other := by simpa [← trace.length_eq] using isMade
      have isNew := by simpa using isCall
      subst isLast isNew
      rw [List.take_left, ← trace.length_eq, List.take_left]
      refine ⟨records.operator_eq, Reference.mapM_referent?_of_operand? operandsFound
        records.operands_found, rfl, records.wellFormed, ?_, ?_⟩
      · rintro reference rfl
        obtain ⟨operand, isOperand, rfl⟩ := optionMapM_some_iff.mp resultFound
        obtain ⟨result, isResult, isReferent⟩ := records.named operand rfl
        exact ⟨result, isResult, Option.bind_eq_some_iff.mpr ⟨operand, isOperand, isReferent⟩⟩
      · rintro rfl result isResult old
        cases resultFound
        obtain ⟨former, found, formerResult⟩ := records.anonymous rfl result isResult old
        have productive := records.wellFormed.producesValue_of_result isResult
        obtain ⟨earlier, isFormer⟩ :=
          List.getElem?_of_mem (trace.represents.mem_of_declared? productive found)
        obtain ⟨_, sameOperator, sameOperands⟩ := Model.mem_of_declared? found
        exact ⟨earlier, former, isFormer, sameOperator, sameOperands, formerResult⟩

end Retained

/-- Sessions come to reachable workspaces. -/
theorem Session.reachable {calls : List Call} {workspace : Workspace}
    (session : Session calls workspace) : workspace.Reachable := by
  induction session with
  | empty journal => exact .empty journal
  | request _ request _ inductionHypothesis => exact inductionHypothesis.request request
  | refused _ _ inductionHypothesis => exact inductionHypothesis.request _
  | call _ _ _ _ inductionHypothesis => exact inductionHypothesis.request _

/-- The calls of a session have made constraints, which the model represents. -/
theorem Session.exists_trace {calls : List Call} {workspace : Workspace}
    (session : Session calls workspace) : ∃ made, Trace calls workspace.model made := by
  induction session with
  | empty journal => exact ⟨[], trace_empty⟩
  | request session request other inductionHypothesis =>
    obtain ⟨made, trace⟩ := inductionHypothesis
    exact ⟨made, trace.keep (Request.keeps_after other session.reachable.sound)⟩
  | refused session fails inductionHypothesis =>
    obtain ⟨made, trace⟩ := inductionHypothesis
    refine ⟨made, trace.keep ?_⟩
    rw [Request.after, Request.step, run_discard]
    exact (leads_addConstraint session.reachable.sound).refused_of_error fails
  | call session operandsFound resultFound succeeds inductionHypothesis =>
    obtain ⟨made, trace⟩ := inductionHypothesis
    obtain ⟨constraint, records, rfl⟩ :=
      (leads_addConstraint session.reachable.sound).done_of_ok succeeds
    refine ⟨made ++ [constraint], ?_⟩
    rw [Request.after, Request.step, run_discard]
    exact trace.call session.reachable.sound operandsFound resultFound records

end ConstraintSearch
