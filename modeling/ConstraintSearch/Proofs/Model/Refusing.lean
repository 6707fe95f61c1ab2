import ConstraintSearch.Proofs.Model.Renewing
import ConstraintSearch.Proofs.Model.Representation

/-!
# Refused requests do no damage

A request that is refused may have come some way: it has dropped the network, and the operands that
it resolved before the one that was refused may be literals, whose variables it has added. Nothing
else has changed (`Model.Adds`), so the problem is still the same.
-/

namespace ConstraintSearch

open Build

/-- The later model only has further variables, each of which stands for a literal among the
operands. -/
structure Model.Adds (operands : List Operand) (former later : Model) : Prop where
  constraints_eq : later.constraints = former.constraints
  targets_eq : later.targets = former.targets
  order_eq : later.order = former.order
  strategy_eq : later.strategy = former.strategy
  size_le : former.vars.size ≤ later.vars.size
  get?_eq : ∀ variableId < former.vars.size, later.vars.get? variableId =
    former.vars.get? variableId
  keyOf?_of_some : ∀ name variableId, former.vars.keyOf? name = some variableId →
    later.vars.keyOf? name = some variableId
  constant?_of_some : ∀ value variableId, former.constant? value = some variableId →
    later.constant? value = some variableId
  added : ∀ variableId, former.vars.size ≤ variableId → variableId < later.vars.size →
    ∃ value attempt, .literal value ∈ operands ∧ valueFloor ≤ value ∧ value ≤ valueCeiling ∧
      later.vars.get? variableId = some ⟨generatedName variableId attempt, .value value, none⟩ ∧
      later.constant? value = some variableId

namespace Model

variable {operands : List Operand} {former middle later : Model}

/-- The network does not matter. -/
theorem Adds.of_opened_eq (same : later.opened = former.opened) : former.Adds operands later := by
  obtain ⟨vars, constants, constraints, targets, order, strategy, _⟩ := former
  obtain ⟨_, _, _, _, _, _, _⟩ := later
  cases same
  exact ⟨rfl, rfl, rfl, rfl, Nat.le_refl _, fun _ _ => rfl, fun _ _ => id, fun _ _ => id,
    fun _ beyond inside => absurd inside (Nat.not_lt_of_le beyond)⟩

/-- Nothing is added where nothing happens. -/
theorem Adds.refl (model : Model) : model.Adds operands model :=
  .of_opened_eq rfl

/-- Variables of literals that are added one after the other are all variables of literals. -/
theorem Adds.trans (lower : former.Adds operands middle) (upper : middle.Adds operands later) :
    former.Adds operands later where
  constraints_eq := upper.constraints_eq.trans lower.constraints_eq
  targets_eq := upper.targets_eq.trans lower.targets_eq
  order_eq := upper.order_eq.trans lower.order_eq
  strategy_eq := upper.strategy_eq.trans lower.strategy_eq
  size_le := Nat.le_trans lower.size_le upper.size_le
  get?_eq variableId inside :=
    (upper.get?_eq variableId (Nat.lt_of_lt_of_le inside lower.size_le)).trans
      (lower.get?_eq variableId inside)
  keyOf?_of_some name variableId found :=
    upper.keyOf?_of_some name variableId (lower.keyOf?_of_some name variableId found)
  constant?_of_some value variableId found :=
    upper.constant?_of_some value variableId (lower.constant?_of_some value variableId found)
  added variableId beyond inside := by
    by_cases early : variableId < middle.vars.size
    · obtain ⟨value, attempt, isLiteral, floor, ceiling, isEntry, isConstant⟩ :=
        lower.added variableId beyond early
      exact ⟨value, attempt, isLiteral, floor, ceiling,
        (upper.get?_eq variableId early).trans isEntry,
        upper.constant?_of_some value variableId isConstant⟩
    · exact upper.added variableId (Nat.le_of_not_lt early) inside

/-- Adding literals is a relation that adds up along steps. -/
theorem trend_adds : Trend (Adds operands) :=
  ⟨.refl, .trans⟩

/-- The variable of a literal is added if there is none yet. -/
theorem adds_withLiteral (model : Model) {value : Int} (isLiteral : .literal value ∈ operands)
    (bounds : valueFloor ≤ value ∧ value ≤ valueCeiling) (new : model.constant? value = none) :
    model.Adds operands (model.withLiteral value) where
  constraints_eq := rfl
  targets_eq := rfl
  order_eq := rfl
  strategy_eq := rfl
  size_le := (model.grows_withLiteral new bounds).size_le
  get?_eq variableId inside := by
    change (model.vars.push _).get? variableId = _
    rw [Directory.get?_push, if_neg (Nat.ne_of_lt inside)]
  keyOf?_of_some _ _ := (model.grows_withLiteral new bounds).keyOf?_of_some
  constant?_of_some _ _ := (model.grows_withLiteral new bounds).constant?_of_some
  added variableId beyond inside := by
    change variableId < (model.vars.push _).size at inside
    rw [Directory.size_push] at inside
    obtain rfl : variableId = model.vars.size := Nat.le_antisymm (Nat.le_of_lt_succ inside) beyond
    obtain ⟨attempt, named⟩ := exists_unusedName_eq model.vars
    refine ⟨value, attempt, isLiteral, bounds.1, bounds.2, ?_, ?_⟩
    · change (model.vars.push _).get? _ = _
      rw [Directory.get?_push, if_pos rfl, named]
    · rw [constant?_withLiteral, if_pos rfl]

end Model

/-- An operand stands for a variable that exists. -/
theorem Model.FixesLiterals.lt_size_of_referent? {model : Model}
    (fixesLiterals : model.FixesLiterals) {operand : Operand} {variableId : VariableId}
    (found : operand.referent? model = some variableId) : variableId < model.vars.size := by
  cases operand with
  | named name => exact Directory.lt_size_of_keyOf? found
  | position other =>
    rw [Operand.referent?, Option.ite_none_right_eq_some] at found
    obtain ⟨inside, ⟨⟩⟩ := found
    exact inside
  | literal value =>
    rw [Operand.referent?, Option.ite_none_right_eq_some] at found
    exact (fixesLiterals value variableId found.2).1

/-- The result of a declared constraint exists. -/
theorem Model.Sound.lt_size_of_declared? {start model : Model} (sound : start.Sound)
    (same : model.constraints = start.constraints) {operator : Operator}
    {operands : List VariableId} {existing : VariableId}
    (productive : operator.producesValue = true)
    (declared : (model.declared? operator operands).bind Constraint.result = some existing) :
    existing < start.vars.size := by
  rw [Model.declared?_congr same, Option.bind_eq_some_iff] at declared
  obtain ⟨former, isFormer, isResult⟩ := declared
  obtain ⟨other, isOther, inside⟩ := sound.exists_result isFormer productive
  cases isResult.symm.trans isOther
  exact inside

/-! ### Satisfying assignments -/

/-- Whether a constraint holds depends on the values of its operands and of its result. -/
theorem Constraint.holds_congr {constraint : Constraint} {first second : VariableId → Int}
    (same : ∀ variableId ∈ constraint.scope, first variableId = second variableId) :
    constraint.Holds first ↔ constraint.Holds second := by
  have sameOperands : constraint.operands.map first = constraint.operands.map second :=
    List.map_congr_left fun variableId isOperand =>
      same variableId (List.mem_append_left _ isOperand)
  have sameResult : constraint.result.map first = constraint.result.map second :=
    Option.map_congr fun variableId isResult =>
      same variableId (List.mem_append_right _ (Option.mem_toList.mpr isResult))
  rw [Holds, Holds, sameOperands, sameResult]

/-- Satisfying assignments are those that can be extended to the variables of the added literals. -/
theorem Model.Adds.satisfied_iff {operands : List Operand} {former later : Model}
    (adds : former.Adds operands later) (sound : former.Sound) (assignment : VariableId → Int) :
    former.Satisfied assignment ↔
      ∃ extended, (∀ variableId < former.vars.size, extended variableId = assignment variableId) ∧
        later.Satisfied extended := by
  have sameDomain : ∀ variableId < former.vars.size,
      later.vars.domainOf variableId = former.vars.domainOf variableId := by
    intro variableId inside
    rw [Directory.domainOf, Directory.domainOf, adds.get?_eq variableId inside]
  have sameHolds : ∀ extended : VariableId → Int,
      (∀ variableId < former.vars.size, extended variableId = assignment variableId) →
        ∀ constraint ∈ former.constraints.toList,
          (constraint.Holds extended ↔ constraint.Holds assignment) :=
    fun extended agrees constraint declared => Constraint.holds_congr fun variableId reads =>
      agrees variableId (sound.inside constraint declared variableId reads)
  constructor
  · rintro ⟨admits, holds⟩
    -- Every added variable is the one of a literal, so its value is determined.
    have values : ∀ variableId, ∃ value,
        (variableId < former.vars.size → value = assignment variableId) ∧
          (variableId < later.vars.size → value ∈ later.vars.domainOf variableId) := by
      intro variableId
      by_cases declared : variableId < former.vars.size
      · exact ⟨assignment variableId, fun _ => rfl, fun _ =>
          sameDomain variableId declared ▸ admits variableId declared⟩
      · by_cases inside : variableId < later.vars.size
        · obtain ⟨value, attempt, _, floor, ceiling, isEntry, _⟩ :=
            adds.added variableId (Nat.le_of_not_lt declared) inside
          refine ⟨value, fun early => absurd early declared, fun _ => ?_⟩
          rw [Directory.domainOf, isEntry]
          exact Domain.mem_value.mpr ⟨rfl, floor, ceiling⟩
        · exact ⟨0, fun early => absurd early declared, fun late => absurd late inside⟩
    choose extended agrees admitted using values
    refine ⟨extended, agrees, admitted, fun constraint declared => ?_⟩
    rw [adds.constraints_eq] at declared
    exact (sameHolds extended agrees constraint declared).mpr (holds constraint declared)
  · rintro ⟨extended, agrees, admits, holds⟩
    refine ⟨fun variableId declared => ?_, fun constraint declared => ?_⟩
    · rw [← agrees variableId declared, ← sameDomain variableId declared]
      exact admits variableId (Nat.lt_of_lt_of_le declared adds.size_le)
    · exact (sameHolds extended agrees constraint declared).mp
        (holds constraint (adds.constraints_eq ▸ declared))

/-! ### Steps that are refused -/

namespace Build

variable {operands : List Operand} {start : Model}

/-- Dropping the network adds nothing. -/
theorem follows_adds_invalidate : Follows invalidate (Model.Adds operands) :=
  fun _ => .of_gives gives_invalidate (.of_opened_eq rfl)

/-- The variable of a listed literal is all that may be added for it. -/
theorem leads_adds_constantFor {value : Int} (isLiteral : .literal value ∈ operands)
    (bounds : valueFloor ≤ value ∧ value ≤ valueCeiling) :
    Leads (constantFor value) start (fun _ => start.Adds operands) (start.Adds operands) := by
  apply Leads.bind_of_gives Gives.model
  split
  · exact .pure (.refl start)
  · rename_i new
    exact .bind_of_gives (gives_pushAnonymous _)
      (.bind_of_gives (Gives.update _) (.pure (start.adds_withLiteral isLiteral bounds new)))

/-- Resolving a listed operand adds at most the variable of a literal. -/
theorem follows_adds_resolveOperand {operand : Operand} (inside : operand ∈ operands) :
    Follows (resolveOperand operand) (Model.Adds operands) := by
  cases operand with
  | named name => exact .lookup Model.trend_adds name
  | position variableId =>
    refine .bind Model.trend_adds (.model Model.trend_adds) fun seen => ?_
    split
    · exact .pure Model.trend_adds _
    · exact .refuse Model.trend_adds _
  | literal value =>
    intro start
    apply (leads_checkValue (.refl start) value).bind
    rintro _ _ ⟨rfl, rfl, bounds⟩
    exact leads_adds_constantFor inside bounds

/-- So does resolving any of them. -/
theorem follows_adds_resolveOperands {asked : List Operand}
    (inside : ∀ operand ∈ asked, operand ∈ operands) :
    Follows (resolveOperands asked) (Model.Adds operands) :=
  .bind Model.trend_adds follows_adds_invalidate fun _ =>
    .mapM Model.trend_adds fun operand isOperand =>
      follows_adds_resolveOperand (inside operand isOperand)

/-- A truth value is restricted last, so a result that is refused has at most been added. -/
theorem leads_adds_resolveResult (operator : Operator) {operand : Operand}
    (inside : operand ∈ operands) :
    Leads (resolveResult operator operand) start (fun _ _ => True) (start.Adds operands) := by
  have resolves := (follows_adds_resolveOperand inside) start
  have truthful : Leads (resolveOperand operand >>= fun variableId => do
      restrictToTruth variableId
      pure variableId) start (fun _ _ => True) (start.Adds operands) := by
    apply resolves.bind
    intro variableId middle adds
    cases empty : (middle.vars.domainOf variableId ∩ .range 0 1).isEmpty with
    | true => exact .of_refuses (refuses_restrictToTruth empty).bind adds
    | false => exact .bind_of_gives (gives_restrictToTruth empty) (.pure trivial)
  rw [resolveResult]
  split
  · exact resolves.imp (fun _ _ _ => trivial) fun _ => id
  · dsimp only
    split
    · split
      · exact .refuse_bind _ _ (.refl _)
      · exact truthful
    · exact truthful

/-- A comparison that is refused has at most added literals for its operands. -/
theorem leads_adds_addComparison (operator : Operator) :
    Leads (addComparison operator operands) start (fun _ _ => True) (start.Adds operands) := by
  refine .check_bind (fun _ _ => ?_) (.refl _)
  apply (follows_adds_resolveOperands (fun _ => id) start).bind
  intro variableIds middle _
  apply Leads.bind_of_gives Gives.model
  split
  · exact .of_gives (Gives.update _) trivial
  · exact .pure trivial

/-- Once its operands and its result are resolved, a constraint is not refused any more. -/
theorem leads_adds_addValueConstraint {operator : Operator} {asked : List Operand}
    {result : Option Operand} (sound : start.Sound) (fixesLiterals : start.FixesLiterals)
    (productive : operator.producesValue = true) :
    Leads (addValueConstraint operator asked result) start (fun _ _ => True)
      (start.Adds (asked ++ result.toList)) := by
  refine .check_bind (fun _ _ => ?_) (.refl _)
  have resolves : Follows (resolveOperands asked) (Model.Adds (asked ++ result.toList)) :=
    follows_adds_resolveOperands fun _ => List.mem_append_left _
  apply (((leads_resolveOperands asked).and (resolves start)).imp_refused fun _ => And.right).bind
  rintro variableIds middle ⟨⟨grows, unprepared, _⟩, adds⟩
  -- The result is resolved only where it is asked for and the operands were accepted, so what it
  -- adds comes on top of their literals.
  have resolvesResult : ∀ operand, result = some operand →
      Leads (resolveResult operator operand) middle
      (fun result after => middle.Grows after ∧ operand.referent? after = some result)
      (start.Adds (asked ++ result.toList)) := by
    rintro operand rfl
    have inside : operand ∈ asked ++ (some operand).toList :=
      List.mem_append_right _ List.mem_cons_self
    have resolved := (leads_resolveResult unprepared operator operand).and
      (leads_adds_resolveResult operator inside)
    exact resolved.imp (fun _ _ led => ⟨led.1.1, led.1.2.1⟩) fun _ led => adds.trans led.2
  apply Leads.bind_of_gives Gives.model
  cases declared : (middle.declared? operator variableIds).bind Constraint.result with
  | none =>
    cases result with
    | none =>
      exact .bind_of_gives (gives_pushAnonymous _) (.bind_of_gives (Gives.update _) (.pure trivial))
    | some operand =>
      exact (resolvesResult operand rfl).bind fun _ _ _ =>
        .bind_of_gives (Gives.update _) (.pure trivial)
  | some existing =>
    cases result with
    | none => exact .pure trivial
    | some operand =>
      apply (resolvesResult operand rfl).bind
      rintro variableId after ⟨upper, found⟩
      dsimp only
      split
      · have closed : after.opened = after :=
          Model.opened_of_unprepared (upper.unprepared unprepared)
        have existingInside := sound.lt_size_of_declared? grows.constraints_eq productive declared
        have resultInside :=
          (upper.fixesLiterals (grows.fixesLiterals fixesLiterals)).lt_size_of_referent? found
        refine .of_gives (gives_unified closed ?_ resultInside) trivial
        exact Nat.lt_of_lt_of_le existingInside (Nat.le_trans grows.size_le upper.size_le)
      · exact .pure trivial

/-- A constraint that is refused has added nothing but variables for literals among its operands and
its result. -/
theorem leads_adds_addConstraint {operator : Operator} {asked : List Operand}
    {result : Option Operand} (sound : start.Sound) (fixesLiterals : start.FixesLiterals) :
    Leads (addConstraint operator asked result) start (fun _ _ => True)
      (start.Adds (asked ++ result.toList)) := by
  rw [addConstraint]
  split
  · rename_i productive
    rw [map_eq_pure_bind]
    exact (leads_adds_addValueConstraint sound fixesLiterals productive).bind fun _ _ _ =>
      .pure trivial
  · split
    · rename_i noResult
      cases Option.isNone_iff_eq_none.mp noResult
      rw [Option.toList_none, List.append_nil]
      exact (leads_adds_addComparison operator).bind fun _ _ _ => .pure trivial
    · exact .refuse _ (.refl _)

/-- A setting is refused before it is made. -/
theorem leads_adds_setting (change : Model → Model) :
    Leads (do invalidate; update change) start (fun _ _ => True) (start.Adds operands) :=
  .bind_of_gives gives_invalidate (.of_gives (Gives.update _) trivial)

/-- A variable that is refused is not added. -/
theorem leads_adds_addVariable (name : String) (domain : Domain) :
    Leads (addVariable name domain) start (fun _ _ => True) (start.Adds operands) := by
  refine .check_bind (fun _ _ => .bind_of_gives Gives.model ?_) (.refl _)
  dsimp only
  split
  · exact .refuse_bind _ _ (.refl _)
  · exact .bind_of_gives gives_invalidate (.of_gives (gives_push _) trivial)

/-- A variable without a name is never refused. -/
theorem leads_adds_addAnonymous (domain : Domain) :
    Leads (addAnonymous domain) start (fun _ _ => True) (start.Adds operands) :=
  .bind_of_gives gives_invalidate (.of_gives (gives_pushAnonymous _) trivial)

end Build

/-- The operands that the request is about. -/
def Request.operands : Request → List Operand
  | declareConstant value => [.literal value]
  | declareConstraint _ operands result => operands ++ result.toList
  | _ => []

/-- Whatever is requested, a refusal adds at most variables for the literals that the request is
about. -/
theorem Request.leads_adds (request : Request) {start : Model} (sound : start.Sound)
    (fixesLiterals : start.FixesLiterals) :
    Leads request.answer start (fun _ _ => True) (start.Adds request.operands) := by
  have answers : ∀ {α : Type} {step : Build α} (image : α → Option VariableId),
      Leads step start (fun _ _ => True) (start.Adds request.operands) →
        Leads (image <$> step) start (fun _ _ => True) (start.Adds request.operands) := by
    intro α step image leads
    rw [map_eq_pure_bind]
    exact leads.bind fun _ _ _ => .pure trivial
  cases request with
  | declare name domain => exact answers _ (leads_adds_addVariable name domain)
  | declareRange name lower upper =>
    exact answers _ (.check_bind (fun domain _ => leads_adds_addVariable name domain) (.refl _))
  | declareAnonymous domain => exact answers _ (leads_adds_addAnonymous domain)
  | declareAnonymousRange lower upper =>
    exact answers _ (.check_bind (fun domain _ => leads_adds_addAnonymous domain) (.refl _))
  | declareConstant value =>
    apply answers
    apply (leads_checkValue (.refl start) value).bind
    rintro _ _ ⟨rfl, rfl, bounds⟩
    refine ((follows_adds_invalidate _).bind fun _ middle lower => ?_)
    exact (leads_adds_constantFor List.mem_cons_self bounds).imp (fun _ _ _ => trivial) fun _ =>
      lower.trans
  | declareConstraint operator operands result => exact leads_adds_addConstraint sound fixesLiterals
  | target targets => exact answers _ (leads_adds_setting _)
  | orderBy order => exact answers _ (leads_adds_setting _)
  | divideBy strategy =>
    apply answers
    rw [setStrategy]
    dsimp only
    split
    · exact .refuse_bind _ _ (.refl _)
    · exact leads_adds_setting _
  | divideVariableBy name strategy =>
    apply answers
    refine (follows_adds_invalidate _).bind fun _ middle adds => ?_
    refine ((Follows.lookup Model.trend_adds name middle).imp_refused fun _ => adds.trans).bind
      fun _ _ _ => ?_
    exact .of_gives (Gives.update _) trivial
  | prepare =>
    apply answers
    rcases gives_prepare start with ⟨outcome, gives⟩ | ⟨_, network, gives⟩
    · cases outcome with
      | error refusal => exact .of_refuses ⟨refusal, gives⟩ (.refl _)
      | ok network => exact .of_gives gives trivial
    · exact .of_gives gives trivial

/-- A request that is refused leaves the problem as it was: the constraints, the settings and the
declared variables have not changed, and every further variable is the one of a literal that the
request is about. So the satisfying assignments are the same. -/
theorem Workspace.Reachable.refused_harmless {workspace : Workspace}
    (reachable : workspace.Reachable) {request : Request} {refusal : Refusal}
    (refused : (request.answer.run workspace).1 = .error refusal) :
    workspace.model.Adds request.operands (request.after workspace).model ∧
      ∀ assignment, workspace.model.Satisfied assignment ↔
        ∃ extended, (∀ variableId < workspace.model.vars.size,
          extended variableId = assignment variableId) ∧
            (request.after workspace).model.Satisfied extended := by
  have leads := request.leads_adds reachable.sound reachable.orderly.fixesLiterals
  have adds : workspace.model.Adds request.operands (request.after workspace).model := by
    rw [Request.after_eq]
    exact leads.refused_of_error refused
  exact ⟨adds, adds.satisfied_iff reachable.sound⟩

/-- One variable from 0 to 3. -/
def Workspace.lone : Workspace :=
  .ofRequests [.declareRange "A" 0 3]

/-- The literal of a comparison has got a variable before the unknown name is refused, and the first
variable still takes 2. -/
theorem Workspace.refused_harmless_lone :
    ((Request.declareConstraint (.compare .lt) [.literal 7, .named "D"] none).answer.run lone).1 =
        .error (.invalid (.unknownVariable "D")) ∧
      ((Request.declareConstraint (.compare .lt) [.literal 7, .named "D"] none).after
        lone).model.constant? 7 = some 1 ∧
      ∃ extended, extended 0 = 2 ∧
        ((Request.declareConstraint (.compare .lt) [.literal 7, .named "D"] none).after
          lone).model.Satisfied extended := by
  have refused : ((Request.declareConstraint (.compare .lt) [.literal 7, .named "D"]
      none).answer.run lone).1 = .error (.invalid (.unknownVariable "D")) := by
    decide +kernel
  have satisfied : lone.model.Satisfied fun _ => 2 := by
    refine ⟨?_, nofun⟩
    unfold Directory.Admits
    decide +kernel
  have one : 0 < lone.model.vars.size := by decide +kernel
  obtain ⟨_, sameSolutions⟩ := (reachable_ofRequests _).refused_harmless refused
  obtain ⟨extended, agrees, satisfiedAfter⟩ := (sameSolutions fun _ => 2).mp satisfied
  exact ⟨refused, by decide +kernel, extended, agrees 0 one, satisfiedAfter⟩

end ConstraintSearch
