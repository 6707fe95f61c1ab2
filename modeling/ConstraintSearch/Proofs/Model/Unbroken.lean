import ConstraintSearch.Proofs.Model.Refusing
import ConstraintSearch.Proofs.Model.Watched

/-!
# What must not happen does not happen

Watched and plain steps come to the same, whatever is requested of a reachable model
(`Watched.Mirrors`). So nothing that must not happen does, unless a plain step has a fault. There is
just one way to get there: the truth of a comparison is bound to a variable that has been declared
without values, and the least of them is asked for (`Model.BindsVoid`).
-/

namespace ConstraintSearch

open Build

/-- The constraint is a comparison whose truth is bound to a declared variable without values, and
nothing before the result is refused. -/
def Model.BindsVoid (model : Model) (operator : Operator) (operands : List Operand)
    (result : Option Operand) : Prop :=
  operator.isReified ∧ checkArity operator operands = .ok () ∧
    (∃ variableIds after, Gives (resolveOperands operands) model (.ok variableIds) after) ∧
      ∃ operand variableId, result = some operand ∧ operand.referent? model = some variableId ∧
        (model.vars.domainOf variableId).isEmpty

/-- The request is to declare such a constraint. -/
def Request.BindsVoid (request : Request) (model : Model) : Prop :=
  ∃ operator operands result, request = .declareConstraint operator operands result ∧
    model.BindsVoid operator operands result

/-- An operand that stands for a variable without values did so before: the variables of literals
have values. -/
theorem Model.Adds.referent?_of_isEmpty {operands : List Operand} {former later : Model}
    (adds : former.Adds operands later) (names : former.vars.Distinct)
    (fixesLiterals : later.FixesLiterals) {operand : Operand} {variableId : VariableId}
    (found : operand.referent? later = some variableId)
    (void : (later.vars.domainOf variableId).isEmpty) :
    operand.referent? former = some variableId ∧ (former.vars.domainOf variableId).isEmpty := by
  have valueless : ∀ value, ¬ value ∈ later.vars.domainOf variableId := Domain.isEmpty_iff.mp void
  have declared : variableId < former.vars.size := by
    by_contra beyond
    obtain ⟨value, attempt, _, floor, ceiling, isEntry, _⟩ :=
      adds.added variableId (Nat.le_of_not_lt beyond) (fixesLiterals.lt_size_of_referent? found)
    apply valueless value
    rw [Directory.domainOf, isEntry]
    exact Domain.mem_value.mpr ⟨rfl, floor, ceiling⟩
  have same := adds.get?_eq variableId declared
  refine ⟨?_, by rwa [Directory.domainOf, same] at void⟩
  cases operand with
  | named name =>
    obtain ⟨entry, isEntry, named⟩ := Directory.exists_get?_of_keyOf? found
    exact names.keyOf?_eq_some_iff.mpr ⟨entry, same ▸ isEntry, named⟩
  | position other =>
    rw [Operand.referent?, Option.ite_none_right_eq_some] at found
    obtain ⟨_, ⟨⟩⟩ := found
    exact if_pos declared
  | literal value =>
    rw [Operand.referent?, Option.ite_none_right_eq_some] at found
    exact absurd (fixesLiterals value variableId found.2).2.1 (valueless value)

namespace Build

/-- What a step ensures is what it leads to where it succeeds. -/
theorem Leads.of_ensures {α : Type} {step : Build α} {start : Model} {before : Model → Prop}
    {done : α → Model → Prop} (ensures : Ensures before step done) (sound : start.Sound)
    (holds : before start) : Leads step start done fun _ => True := by
  rintro workspace rfl
  have ensured := (ensures workspace sound holds).2
  split <;> rename_i ran
  · rw [ran] at ensured
    exact ensured _ rfl
  · trivial

/-- What a step leads to holds of the outcome that it gives. -/
theorem Leads.done_of_gives {α : Type} {step : Build α} {start after : Model} {result : α}
    {done : α → Model → Prop} {refused : Model → Prop} (leads : Leads step start done refused)
    (gives : Gives step start (.ok result) after) : done result after := by
  obtain ⟨succeeded, left⟩ := gives { model := start } rfl
  exact left ▸ @Leads.done_of_ok α done refused step { model := start } result leads succeeded

end Build

namespace Watched

/-! ### Watched steps and plain ones -/

/-- What a sequence of two steps comes to. -/
theorem run_bind {α β : Type} (step : Watched α) (next : α → Watched β) (workspace : Workspace) :
    (step >>= next).run workspace =
      match step.run workspace with
      | (.ok result, middle) => (next result).run middle
      | (.error halt, middle) => (.error halt, middle) := by
  change ExceptT.bindCont next (step.run workspace).1 (step.run workspace).2 = _
  rcases step.run workspace with ⟨halt | result, middle⟩ <;> rfl

/-- A plain step runs in the watched world as it does in its own, with its refusals as halts. -/
theorem run_lift {α : Type} (step : Build α) (workspace : Workspace) :
    (lift step).run workspace = ((step.run workspace).1.mapError Refusal.halt,
      (step.run workspace).2) :=
  rfl

/-- Plain steps are lifted one by one. -/
theorem lift_bind {α β : Type} (step : Build α) (next : α → Build β) :
    lift (step >>= next) = lift step >>= fun result => lift (next result) := by
  funext workspace
  change (lift (step >>= next)).run workspace =
    (lift step >>= fun result => lift (next result)).run workspace
  rw [run_bind, run_lift, run_lift, Build.run_bind]
  rcases step.run workspace with ⟨refusal | result, middle⟩ <;> rfl

/-- Watching an extension returns the number of variables before it, as the plain one does. -/
theorem run_extend (add : Variables → Variables) (workspace : Workspace) :
    (extend add).run workspace =
      (.ok workspace.model.vars.size,
        { workspace with model := { workspace.model with vars := add workspace.model.vars } }) :=
  rfl

/-- From the model, the watched step comes to the same as the plain one. The only fault that this
has is that there is no least value, and only for the cause. -/
def Mirrors {α : Type} (cause : Prop) (watched : Watched α) (plain : Build α) (start : Model) :
    Prop :=
  ∀ workspace : Workspace, workspace.model = start →
    watched.run workspace = (lift plain).run workspace ∧
      ∀ missing, (plain.run workspace).1 = .error (.fault missing) → missing = .emptyMinimum ∧ cause

namespace Mirrors

variable {α β : Type} {cause : Prop} {watched : Watched α} {plain : Build α} {start : Model}

/-- Watched steps mirror plain ones in a row, if the later ones do so from each model that the first
may lead to. -/
theorem bind {next : α → Watched β} {nextPlain : α → Build β} {between : α → Model → Prop}
    {refused : Model → Prop} (mirrors : Mirrors cause watched plain start)
    (leads : Leads plain start between refused)
    (later : ∀ result middle, between result middle →
      Mirrors cause (next result) (nextPlain result) middle) : Mirrors cause (watched >>= next)
    (plain >>= nextPlain) start := by
  intro workspace starts
  obtain ⟨same, faults⟩ := mirrors workspace starts
  have led := leads workspace starts
  rw [run_bind, same, run_lift, run_lift, Build.run_bind]
  rcases ran : plain.run workspace with ⟨refusal | result, middle⟩ <;> rw [ran] at led faults
  · exact ⟨rfl, fun missing failed => faults missing (by cases failed; rfl)⟩
  · exact later result middle.model led middle rfl

/-- What follows does not depend on what the step comes to. -/
theorem bind_any {next : α → Watched β} {nextPlain : α → Build β}
    (mirrors : Mirrors cause watched plain start)
    (later : ∀ result middle, Mirrors cause (next result) (nextPlain result) middle) :
    Mirrors cause (watched >>= next) (plain >>= nextPlain) start := by
  have leads : Leads plain start (fun _ _ => True) fun _ => True := by
    intro workspace _
    split <;> trivial
  exact mirrors.bind leads fun result middle _ => later result middle

/-- A step that comes to a known result. -/
theorem bind_of_gives {next : α → Watched β} {nextPlain : α → Build β} {result : α} {middle : Model}
    (mirrors : Mirrors cause watched plain start) (gives : Gives plain start (.ok result) middle)
    (later : Mirrors cause (next result) (nextPlain result) middle) :
    Mirrors cause (watched >>= next) (plain >>= nextPlain) start := by
  refine bind mirrors (.of_gives gives ⟨rfl, rfl⟩ :
    Leads plain start (fun seen after => seen = result ∧ after = middle) fun _ => True) ?_
  rintro _ _ ⟨rfl, rfl⟩
  exact later

/-- A step that is refused. -/
theorem bind_of_refuses {next : α → Watched β} {nextPlain : α → Build β} {after : Model}
    (mirrors : Mirrors cause watched plain start) (refuses : Refuses plain start after) :
    Mirrors cause (watched >>= next) (plain >>= nextPlain) start :=
  bind mirrors (.of_refuses refuses trivial : Leads plain start (fun _ _ => False) fun _ => True)
    nofun

/-- A step whose outcome only depends on the model. -/
theorem bind_gives {next : α → Watched β} {nextPlain : α → Build β} {between : α → Model → Prop}
    {refused : Model → Prop} (mirrors : Mirrors cause watched plain start)
    (maintains : Maintains (fun _ => True) plain) (leads : Leads plain start between refused)
    (later : ∀ result middle, Gives plain start (.ok result) middle → between result middle →
      Mirrors cause (next result) (nextPlain result) middle) :
    Mirrors cause (watched >>= next) (plain >>= nextPlain) start := by
  obtain ⟨refusal | result, middle, gives, _⟩ := maintains start trivial
  · exact mirrors.bind_of_refuses ⟨refusal, gives⟩
  · exact mirrors.bind_of_gives gives (later result middle gives (leads.done_of_gives gives))

/-- A step whose outcome is known. -/
theorem of_gives {outcome : Except Refusal α} {after : Model}
    (gives : Gives plain start outcome after)
    (faultless : ∀ missing, outcome ≠ .error (.fault missing)) :
    Mirrors cause (lift plain) plain start :=
  fun workspace starts => ⟨rfl, fun missing failed =>
    absurd ((gives workspace starts).1.symm.trans failed) (faultless missing)⟩

/-- A plain step that succeeds mirrors itself. -/
theorem of_ok {result : α} {after : Model} (gives : Gives plain start (.ok result) after) :
    Mirrors cause (lift plain) plain start :=
  of_gives gives nofun

/-- Returning a result mirrors itself. -/
theorem pure (result : α) : Mirrors cause (Pure.pure result) (Pure.pure result) start :=
  of_ok (Gives.pure result)

/-- Refusing mirrors itself: a refusal is no fault. -/
theorem refuse (error : ModelError) :
    Mirrors cause (lift (Build.refuse error : Build α)) (Build.refuse error) start :=
  of_gives (Gives.refuse error) nofun

/-- A check mirrors itself, whether it passes or not. -/
theorem check (checked : Except ModelError α) :
    Mirrors cause (lift (Build.check checked)) (Build.check checked) start := by
  cases checked with
  | ok result => exact pure result
  | error error => exact refuse error

/-- Steps after a check mirror each other if they do so for the result that passes. -/
theorem check_bind {checked : Except ModelError α} {next : α → Watched β} {nextPlain : α → Build β}
    (passes : ∀ result, checked = .ok result →
      Mirrors cause (next result) (nextPlain result) start) :
    Mirrors cause (lift (Build.check checked) >>= next)
    (Build.check checked >>= nextPlain) start := by
  cases checked with
  | ok result => exact (pure result).bind_of_gives (Gives.pure result) (passes result rfl)
  | error error => exact (refuse error).bind_of_refuses ⟨_, Gives.refuse error⟩

/-- Steps after reading the model mirror each other if they do so for that model. -/
theorem model_bind {next : Model → Watched β} {nextPlain : Model → Build β}
    (mirrors : Mirrors cause (next start) (nextPlain start) start) :
    Mirrors cause (lift Build.model >>= next) (Build.model >>= nextPlain) start :=
  (of_ok Gives.model).bind_of_gives Gives.model mirrors

/-- Only the watched step looks at the model. -/
theorem observe {next : Model → Watched α} (mirrors : Mirrors cause (next start) plain start) :
    Mirrors cause (lift Build.model >>= next) plain start := by
  rintro workspace rfl
  exact mirrors workspace rfl

/-- Only the watched step asks for what is there. -/
theorem demand_bind {found : Except Mishap β} {result : β} {next : β → Watched α}
    (isFound : found = .ok result) (mirrors : Mirrors cause (next result) plain start) :
    Mirrors cause (demand found >>= next) plain start := by
  intro workspace starts
  rw [isFound]
  exact mirrors workspace starts

/-- What becomes of the result does not matter. -/
theorem map (image : α → β) (mirrors : Mirrors cause watched plain start) :
    Mirrors cause (image <$> watched) (image <$> plain) start := by
  rw [map_eq_pure_bind, map_eq_pure_bind]
  exact mirrors.bind_any fun _ _ => pure _

/-- A watched step for each entry of a list mirrors the plain steps. -/
theorem mapM {step : α → Watched β} {stepPlain : α → Build β}
    (each : ∀ entry start, Mirrors cause (step entry) (stepPlain entry) start) (entries : List α)
    (start : Model) :
    Mirrors cause (entries.mapM step) (entries.mapM stepPlain) start := by
  induction entries generalizing start with
  | nil => exact pure []
  | cons first rest inductionHypothesis =>
    rw [List.mapM_cons, List.mapM_cons]
    exact (each first start).bind_any fun _ _ => (inductionHypothesis _).bind_any fun _ _ => pure _

/-- A sequence of plain steps. -/
theorem lift_bind {next : α → Build β} (mirrors : Mirrors cause (lift plain) plain start)
    (later : ∀ result middle, Mirrors cause (lift (next result)) (next result) middle) :
    Mirrors cause (lift (plain >>= next)) (plain >>= next) start := by
  rw [Watched.lift_bind]
  exact mirrors.bind_any later

/-- A step that only reads the model has no fault, so it mirrors itself. -/
theorem of_consults (consults : Consults plain) : Mirrors cause (lift plain) plain start := by
  rcases consults start start fun _ => rfl with ⟨error, gives, _⟩ | ⟨result, gives, _⟩
  · exact of_gives gives nofun
  · exact of_ok gives

/-- A step that resolves names. -/
theorem resolve_bind {next : α → Watched β} {nextPlain : α → Build β} {property : α → Prop}
    (sound : start.Sound) (consults : Consults plain) (resolves : Resolves start plain property)
    (later : ∀ result, property result → Mirrors cause (next result) (nextPlain result) start) :
    Mirrors cause (lift plain >>= next) (plain >>= nextPlain) start := by
  apply bind (of_consults consults) (.of_ensures resolves sound rfl)
  rintro result _ ⟨holds, rfl⟩
  exact later result holds

/-- Nothing happens behind a refusal. -/
theorem refused_if {condition : Prop} [Decidable condition] (error : ModelError)
    (mirrors : Mirrors cause watched plain start) :
    Mirrors cause (if condition then lift (Build.refuse error) >>= fun _ : Unit =>
      watched else watched) (if condition then Build.refuse error >>= fun _ : Unit =>
        plain else plain) start := by
  split
  · exact (refuse error).bind_of_refuses ⟨_, Gives.refuse error⟩
  · exact mirrors

/-- Dropping the network mirrors itself. -/
theorem invalidate : Mirrors cause (lift Build.invalidate) Build.invalidate start :=
  of_ok gives_invalidate

/-- A change of the model mirrors itself. -/
theorem update (change : Model → Model) :
    Mirrors cause (lift (Build.update change)) (Build.update change) start :=
  of_ok (Gives.update change)

/-- Reporting an event mirrors itself. -/
theorem report (event : Event) :
    Mirrors cause (lift (Build.report event)) (Build.report event) start :=
  of_ok (Gives.report event)

end Mirrors

/-! ### Operands and results -/

variable {cause : Prop} {start : Model}

/-- A variable is added without a name in the same way, watched or not, since there is always a name
left. -/
theorem mirrors_pushAnonymous (domain : Domain) :
    Mirrors cause (pushAnonymous domain) (Build.pushAnonymous domain) start := by
  refine .observe (.demand_bind (freshName_eq start.vars) ?_)
  rintro workspace rfl
  have pushes : (push ⟨unusedName workspace.model.vars, domain, none⟩).run workspace =
      (Build.pushAnonymous domain).run workspace := by
    rw [push, Build.pushAnonymous, run_extend, run_extend]
    rfl
  refine ⟨by rw [run_lift, run_lift, pushes], fun missing failed => ?_⟩
  cases ((gives_pushAnonymous domain) workspace rfl).1.symm.trans failed

/-- So is the variable of a literal. -/
theorem mirrors_constantFor (value : Int) :
    Mirrors cause (constantFor value) (ConstraintSearch.constantFor value) start := by
  apply Mirrors.model_bind
  cases start.constant? value with
  | some variableId => exact .pure variableId
  | none =>
    exact (mirrors_pushAnonymous _).bind_any fun _ _ => (Mirrors.update _).bind_any fun _ _ =>
      .pure _

/-- An operand is resolved in the same way. -/
theorem mirrors_resolveOperand (operand : Operand) (start : Model) :
    Mirrors cause (resolveOperand operand) (ConstraintSearch.resolveOperand operand) start := by
  cases operand with
  | named name => exact .of_consults (.lookup name)
  | position variableId =>
    refine .lift_bind (.of_ok Gives.model) fun seen _ => ?_
    split
    · exact .pure _
    · exact .refuse _
  | literal value => exact (Mirrors.check _).bind_any fun value _ => mirrors_constantFor value

/-- So are all operands of a declaration. -/
theorem mirrors_resolveOperands (operands : List Operand) :
    Mirrors cause (resolveOperands operands) (ConstraintSearch.resolveOperands operands) start :=
  Mirrors.invalidate.bind_any fun _ middle => .mapM mirrors_resolveOperand operands middle

/-- The least value is asked of a domain without 0 and 1, which has a least value unless it has none
at all. -/
theorem mirrors_restrictToTruth {variableId : VariableId} (inside : variableId < start.vars.size)
    (void : (start.vars.domainOf variableId).isEmpty → cause) :
    Mirrors cause (restrictToTruth variableId)
      (ConstraintSearch.restrictToTruth variableId) start := by
  obtain ⟨entry, isEntry, sameDomain, _⟩ := Directory.exists_watch inside
  have least : Mirrors cause (demand (entry.domain.minimum.mapError .fault))
      (Build.demand entry.domain.minimum) start := by
    rw [Domain.minimum]
    cases smallest : entry.domain.min? with
    | some value => exact .pure value
    | none =>
      rintro workspace -
      refine ⟨rfl, ?_⟩
      rintro _ ⟨⟩
      exact ⟨rfl, void (sameDomain ▸ Domain.min?_eq_none_iff.mp smallest)⟩
  have writes : ∀ changed change, Mirrors cause
      (demand ((start.vars.table.replace variableId changed).mapError .fault) >>= fun _ =>
        lift (update change))
      (update change) start := by
    intro changed change
    rw [Table.replace, if_pos (show variableId < start.vars.table.size from inside)]
    exact .demand_bind rfl (.update change)
  have truth : ∀ {watched : Watched Unit} {plain : Build Unit}, Mirrors cause watched plain start →
      Mirrors cause
        (if (entry.domain ∩ .range 0 1).isEmpty then
          demand (entry.domain.minimum.mapError .fault) >>= fun smallest =>
            lift (refuse (.nonBooleanResult smallest)) >>= fun _ : Unit => watched
        else watched)
        (if (entry.domain ∩ .range 0 1).isEmpty then
          Build.demand entry.domain.minimum >>= fun smallest =>
            refuse (.nonBooleanResult smallest) >>= fun _ : Unit => plain
        else plain) start := by
    intro watched plain mirrors
    split
    · exact least.bind_any fun smallest middle =>
        (Mirrors.refuse _).bind_of_refuses ⟨_, Gives.refuse _⟩
    · exact mirrors
  apply Mirrors.model_bind
  rw [sameDomain]
  refine .demand_bind isEntry ?_
  dsimp only
  cases entry.domain.solvedValue? with
  | none => exact truth (writes _ _)
  | some value => exact .refused_if _ (truth (writes _ _))

/-- A result is resolved in the same way; only the least value of a truth value without values is
missing. -/
theorem mirrors_resolveResult {operator : Operator} {operand : Operand} {refused : Model → Prop}
    (truth : Leads (ConstraintSearch.resolveOperand operand) start
      (fun variableId after => variableId < after.vars.size ∧
        (operator.isReified → (after.vars.domainOf variableId).isEmpty → cause)) refused) :
    Mirrors cause (resolveResult operator operand)
    (ConstraintSearch.resolveResult operator operand) start := by
  rw [resolveResult, ConstraintSearch.resolveResult]
  cases reified : operator.isReified with
  | false => exact mirrors_resolveOperand operand start
  | true =>
    have truthful : Mirrors cause (do
        let variableId ← resolveOperand operand
        restrictToTruth variableId
        pure variableId) (do
        let variableId ← ConstraintSearch.resolveOperand operand
        ConstraintSearch.restrictToTruth variableId
        pure variableId) start :=
      (mirrors_resolveOperand operand start).bind truth fun variableId middle led =>
        (mirrors_restrictToTruth led.1 (led.2 reified)).bind_any fun _ _ => .pure variableId
    simp only [Bool.not_true, Bool.false_eq_true, if_false]
    cases operand with
    | named name => exact truthful
    | position variableId => exact truthful
    | literal value => exact .refused_if _ truthful

/-! ### Constraints -/

/-- A comparison without a result is declared in the same way. -/
theorem mirrors_addComparison (operator : Operator) (operands : List Operand) :
    Mirrors cause (addComparison operator operands)
      (ConstraintSearch.addComparison operator operands) start := by
  refine (Mirrors.check _).bind_any fun _ _ =>
    (mirrors_resolveOperands operands).bind_any fun variableIds middle => ?_
  apply Mirrors.model_bind
  split
  · exact .update _
  · exact .pure _

/-- The index of the constraints leads to entries. -/
theorem declaredResult_eq (model : Model) (operator : Operator) (operands : List VariableId) :
    declaredResult model operator operands = .ok
      ((model.declared? operator operands).bind Constraint.result) := by
  rw [declaredResult, Model.declared?, Directory.find?]
  cases found : model.constraints.keyOf? (signature operator operands) with
  | none => rfl
  | some key =>
    obtain ⟨entry, isEntry, _⟩ := Directory.exists_get?_of_keyOf? found
    rw [Option.bind_some, isEntry]
    dsimp only
    rw [bind_of_passed (Table.watch_of_get? isEntry)]
    rfl

/-- The names of the results exist. -/
theorem mirrors_unify (operator : Operator) {existing result : VariableId}
    (existingInside : existing < start.vars.size) (resultInside : result < start.vars.size) :
    Mirrors cause (do
      let vars := (← lift Build.model).vars
      let kept ← demand (vars.table.watch existing)
      let unified ← demand (vars.table.watch result)
      lift (report (.resultsUnified operator.name kept.name unified.name))
      addComparison (.compare .eq) [.position existing, .position result]
      pure result) (do
      let vars := (← Build.model).vars
      report (.resultsUnified operator.name (vars.nameOf existing) (vars.nameOf result))
      ConstraintSearch.addComparison (.compare .eq) [.position existing, .position result]
      pure result) start := by
  obtain ⟨kept, isKept, _, keptName⟩ := Directory.exists_watch existingInside
  obtain ⟨unified, isUnified, _, unifiedName⟩ := Directory.exists_watch resultInside
  apply Mirrors.model_bind
  dsimp only
  rw [keptName, unifiedName]
  refine .demand_bind isKept (.demand_bind isUnified ?_)
  exact (Mirrors.report _).bind_any fun _ _ => (mirrors_addComparison _ _).bind_any fun _ _ =>
    .pure _

/-- Once the operands are resolved, only a variable that was declared can be without values. -/
theorem mirrors_addValueConstraint {operator : Operator} {operands : List Operand}
    {result : Option Operand} (sound : start.Sound) (names : start.vars.Distinct)
    (fixesLiterals : start.FixesLiterals) (productive : operator.producesValue = true)
    (void : start.BindsVoid operator operands result → cause) :
    Mirrors cause (addValueConstraint operator operands result)
      (ConstraintSearch.addValueConstraint operator operands result) start := by
  refine .check_bind fun _ passed => ?_
  have resolves : Follows (ConstraintSearch.resolveOperands operands)
      (Model.Adds (operands ++ result.toList)) :=
    follows_adds_resolveOperands fun _ => List.mem_append_left _
  refine (mirrors_resolveOperands operands).bind_gives (.resolveOperands Model.stable_true operands)
    ((leads_resolveOperands operands).and (resolves start)) ?_
  rintro variableIds middle gives ⟨⟨grows, unprepared, _⟩, adds⟩
  have mirrorsResult : ∀ operand, result = some operand →
      Mirrors cause (resolveResult operator operand)
      (ConstraintSearch.resolveResult operator operand) middle := by
    rintro operand rfl
    have inside : operand ∈ operands ++ (some operand).toList :=
      List.mem_append_right _ List.mem_cons_self
    refine mirrors_resolveResult (((leads_resolveOperand unprepared operand).and
      (follows_adds_resolveOperand inside middle)).imp ?_ fun _ led => led)
    rintro variableId after ⟨⟨upper, found⟩, upperAdds⟩
    -- The domain is looked at behind all operands, but the cause is about the model in front of
    -- them.
    have afterFixes := upper.fixesLiterals (grows.fixesLiterals fixesLiterals)
    refine ⟨afterFixes.lt_size_of_referent? found, fun reified empty => void ?_⟩
    obtain ⟨declared, valueless⟩ :=
      (adds.trans upperAdds).referent?_of_isEmpty names afterFixes found empty
    exact ⟨reified, passed, ⟨variableIds, middle, gives⟩, operand, variableId, rfl,
      declared, valueless⟩
  apply Mirrors.model_bind
  refine .demand_bind (declaredResult_eq middle operator variableIds) ?_
  cases declared : (middle.declared? operator variableIds).bind Constraint.result with
  | none =>
    cases result with
    | none =>
      exact (mirrors_pushAnonymous _).bind_any fun _ _ => (Mirrors.update _).bind_any fun _ _ =>
        .pure _
    | some operand =>
      exact (mirrorsResult operand rfl).bind_any fun _ _ => (Mirrors.update _).bind_any fun _ _ =>
        .pure _
  | some existing =>
    cases result with
    | none => exact .pure existing
    | some operand =>
      apply (mirrorsResult operand rfl).bind (leads_resolveResult unprepared operator operand)
      rintro variableId after ⟨upper, found, _⟩
      dsimp only
      split
      · have existingInside := sound.lt_size_of_declared? grows.constraints_eq productive declared
        have resultInside :=
          (upper.fixesLiterals (grows.fixesLiterals fixesLiterals)).lt_size_of_referent? found
        exact mirrors_unify operator
          (Nat.lt_of_lt_of_le existingInside (Nat.le_trans grows.size_le upper.size_le))
          resultInside
      · exact .pure variableId

/-- Declaring a constraint is mirrored, and has a fault only where it binds a truth value to a
variable without values. -/
theorem mirrors_addConstraint {operator : Operator} {operands : List Operand}
    {result : Option Operand} (sound : start.Sound) (names : start.vars.Distinct)
    (fixesLiterals : start.FixesLiterals)
    (void : start.BindsVoid operator operands result → cause) :
    Mirrors cause (addConstraint operator operands result)
      (ConstraintSearch.addConstraint operator operands result) start := by
  rw [addConstraint, ConstraintSearch.addConstraint]
  split
  · rename_i productive
    exact (mirrors_addValueConstraint sound names fixesLiterals productive void).map some
  · split
    · exact (mirrors_addComparison operator operands).bind_any fun _ _ => .pure none
    · exact .refuse _

/-! ### Networks -/

/-- The constraints of a sound model are well-formed, and the propagators of a network read
variables that it has. -/
theorem mirrors_prepare (sound : start.Sound) :
    Mirrors cause prepare ConstraintSearch.prepare start := by
  apply Mirrors.model_bind
  cases prepared : start.network with
  | some network => exact .pure network
  | none =>
    have each : Resolves start (start.vars.toList.mapM fun entry =>
        entry.strategy.mapM (ValueStrategy.resolve entry.name)) (ResolvedStrategies start) :=
      Resolves.mapM fun entry _ => Resolves.optionMapM fun declared _ =>
        resolves_strategy prepared entry.name declared
    refine .resolve_bind sound (.resolveOrder _) (resolves_order prepared _) fun order _ => ?_
    refine .resolve_bind sound (.resolveStrategy _ _) (resolves_strategy prepared _ _)
      fun strategy resolvedFrom => ?_
    refine .resolve_bind sound (.mapM (fun entry : Variable =>
      .optionMapM (.resolveStrategy entry.name) entry.strategy) _) each fun strategies resolved =>
        ?_
    refine .resolve_bind sound (.resolveTargets _) (resolves_targets prepared _)
      fun targeted targets => ?_
    have built :=
      @Network.builtFor_build start targeted order strategy _ sound.wellFormed sound.inside
        (markov_lt_of_resolved resolved) (fun _ _ => isWeighted_of_resolved resolved)
        targets.1 targets.2
      (isMarkov_eq_of_resolved resolved)
        (deterministic_of_resolved resolved (resolvedFrom.deterministic sound.strategy_plain))
      (size_of_resolved resolved)
    refine .demand_bind (Network.buildWatched_eq sound.wellFormed fun propagator isPropagator => ?_)
      ?_
    · obtain ⟨_, found⟩ := Table.mem_toList_iff.mp isPropagator
      exact built.coherent.scope_lt found
    · exact (Mirrors.report _).bind_any fun _ _ => (Mirrors.update _).bind_any fun _ _ => .pure _

/-! ### Requests -/

/-- Declaring a variable mirrors itself: it asks for nothing that may be missing. -/
theorem mirrors_addVariable (name : String) (domain : Domain) :
    Mirrors cause (lift (addVariable name domain)) (addVariable name domain) start := by
  refine .lift_bind (.check _) fun _ _ => .lift_bind (.of_ok Gives.model) fun _ _ => ?_
  dsimp only
  split
  · exact .lift_bind (.refuse _) fun _ _ => .lift_bind .invalidate fun _ _ => .of_ok (gives_push _)
  · exact .lift_bind .invalidate fun _ _ => .of_ok (gives_push _)

/-- A variable without a name is declared in the same way. -/
theorem mirrors_addAnonymous (domain : Domain) :
    Mirrors cause (addAnonymous domain) (ConstraintSearch.addAnonymous domain) start :=
  Mirrors.invalidate.bind_any fun _ _ => mirrors_pushAnonymous domain

/-- A setting mirrors itself. -/
theorem mirrors_setting (change : Model → Model) :
    Mirrors cause (lift (do invalidate; update change)) (do invalidate; update change) start :=
  .lift_bind .invalidate fun _ _ => .update change

/-- Whatever is requested, nothing happens under watch but what happens anyway. -/
theorem mirrors_watched (request : Request) (sound : start.Sound) (names : start.vars.Distinct)
    (fixesLiterals : start.FixesLiterals) :
    Mirrors (request.BindsVoid start) request.watched request.answer start := by
  cases request with
  | declare name domain => exact (mirrors_addVariable name domain).map some
  | declareRange name lower upper =>
    exact .map some (.lift_bind (.check _) fun domain _ => mirrors_addVariable name domain)
  | declareAnonymous domain => exact (mirrors_addAnonymous domain).map some
  | declareAnonymousRange lower upper =>
    exact .map some ((Mirrors.check _).bind_any fun domain _ => mirrors_addAnonymous domain)
  | declareConstant value =>
    exact .map some ((Mirrors.check _).bind_any fun value _ =>
      Mirrors.invalidate.bind_any fun _ _ => mirrors_constantFor value)
  | declareConstraint operator operands result =>
    exact mirrors_addConstraint sound names fixesLiterals fun void =>
      ⟨operator, operands, result, rfl, void⟩
  | target targets => exact (mirrors_setting _).map _
  | orderBy order => exact (mirrors_setting _).map _
  | divideBy strategy =>
    apply Mirrors.map
    rw [setStrategy]
    dsimp only
    split
    · exact .lift_bind (.refuse _) fun _ _ => mirrors_setting _
    · exact mirrors_setting _
  | divideVariableBy name strategy =>
    exact .map _ (.lift_bind .invalidate fun _ _ =>
      .lift_bind (.of_consults (.lookup name)) fun _ _ => .update _)
  | prepare => exact (mirrors_prepare sound).map _

end Watched

namespace Build

/-- The least of no values is asked for. -/
theorem gives_restrictToTruth_of_isEmpty {variableId : VariableId} {start : Model}
    (void : (start.vars.domainOf variableId).isEmpty) :
    Gives (restrictToTruth variableId) start (.error (.fault .emptyMinimum)) start := by
  have valueless := Domain.isEmpty_iff.mp void
  have unsolved : (start.vars.domainOf variableId).solvedValue? = none :=
    Option.eq_none_iff_forall_ne_some.mpr fun value solved =>
      valueless value (Domain.mem_of_solvedValue? solved)
  have restricted : (start.vars.domainOf variableId ∩ .range 0 1).isEmpty :=
    Domain.isEmpty_iff.mpr fun value member => valueless value (Domain.mem_inter.mp member).1
  apply Gives.model.bind
  dsimp only
  rw [unsolved]
  dsimp only
  rw [if_pos restricted, Domain.minimum, Domain.min?_eq_none_iff.mpr void]
  rintro workspace rfl
  exact ⟨rfl, rfl⟩

/-- Nothing saves such a declaration from the fault, whether the same comparison was declared before
or not. -/
theorem exists_gives_fault {operator : Operator} {operands : List Operand} {result : Option Operand}
    {start : Model} (fixesLiterals : start.FixesLiterals)
    (void : start.BindsVoid operator operands result) :
    ∃ after, Gives (addConstraint operator operands result) start
      (.error (.fault .emptyMinimum)) after := by
  obtain ⟨reified, passed, ⟨variableIds, middle, gives⟩, operand, variableId, rfl, found,
      valueless⟩ := void
  have productive : operator.producesValue := by
    cases operator with
    | reify comparison => rfl
    | _ => cases reified
  obtain ⟨grows, unprepared, _⟩ := (leads_resolveOperands operands).done_of_gives gives
  have foundAgain := grows.referent?_of_some found
  have adds := (follows_adds_resolveOperands (fun _ => id) start).done_of_gives gives
  have void : (middle.vars.domainOf variableId).isEmpty := by
    rwa [Directory.domainOf, adds.get?_eq variableId (fixesLiterals.lt_size_of_referent? found)]
  have resolved := @gives_resolveOperand middle operand variableId
  rw [Model.opened_of_unprepared unprepared] at resolved
  have fails : Gives (resolveResult operator operand) middle (.error (.fault .emptyMinimum))
      middle := by
    have truthful : Gives (do
        let variableId ← resolveOperand operand
        restrictToTruth variableId
        pure variableId) middle (.error (.fault .emptyMinimum)) middle :=
      (resolved foundAgain).bind (gives_restrictToTruth_of_isEmpty void).bind_error
    rw [resolveResult, reified]
    cases operand with
    | named name => exact truthful
    | position other => exact truthful
    | literal value =>
      -- A literal other than 0 and 1 would be refused first, but literals have values anyway.
      rw [Operand.referent?, Option.ite_none_right_eq_some] at found
      exact absurd (fixesLiterals value variableId found.2).2.1
        (Domain.isEmpty_iff.mp valueless value)
  refine ⟨middle, ?_⟩
  rw [addConstraint, if_pos productive, map_eq_pure_bind]
  refine ((Gives.check passed).bind (gives.bind (Gives.model.bind ?_))).bind_error
  cases (middle.declared? operator variableIds).bind Constraint.result with
  | none => exact fails.bind_error
  | some existing => exact fails.bind_error

end Build

/-- Under watch, a request to a reachable model comes to the same as without. It halts with
something that must not happen only if it binds the truth of a comparison to a variable that has
been declared without values, and then it always does. -/
theorem Workspace.Reachable.broken_iff {workspace : Workspace} (reachable : workspace.Reachable)
    (request : Request) :
    request.watched.run workspace = (Watched.lift request.answer).run workspace ∧
      ∀ mishap, (request.watched.run workspace).1 = .error (.broken mishap) ↔
        mishap = .fault .emptyMinimum ∧ request.BindsVoid workspace.model := by
  obtain ⟨same, faults⟩ := Watched.mirrors_watched request reachable.sound reachable.orderly.names
    reachable.orderly.fixesLiterals workspace rfl
  refine ⟨same, fun mishap => ?_⟩
  rw [same, Watched.run_lift]
  constructor
  · intro broken
    cases outcome : (request.answer.run workspace).1 with
    | ok result =>
      rw [outcome] at broken
      cases broken
    | error refusal =>
      rw [outcome] at broken
      cases refusal with
      | invalid error => cases broken
      | fault missing =>
        cases broken
        obtain ⟨rfl, void⟩ := faults missing outcome
        exact ⟨rfl, void⟩
  · rintro ⟨rfl, operator, operands, result, rfl, void⟩
    obtain ⟨after, gives⟩ := Build.exists_gives_fault reachable.orderly.fixesLiterals void
    rw [Request.answer, (gives workspace rfl).1]
    rfl

/-- One variable from 0 to 9, and one without values. -/
def Workspace.valueless : Workspace :=
  .ofRequests [.declareRange "A" 0 9, .declare "R" ∅]

/-- The truth of a comparison can be bound to the first variable, but not to the second one. -/
theorem Workspace.broken_iff_valueless :
    (∃ mishap, ((Request.declareConstraint (.reify .eq) [.named "A", .named "A"]
      (some (.named "R"))).watched.run valueless).1 =
        .error (.broken mishap)) ∧
      ¬ ∃ mishap, ((Request.declareConstraint (.reify .eq) [.named "A", .named "A"]
        (some (.named "A"))).watched.run valueless).1 = .error (.broken mishap) := by
  have broken :=
    fun result => ((reachable_ofRequests [.declareRange "A" 0 9, .declare "R" ∅]).broken_iff
      (.declareConstraint (.reify .eq) [.named "A", .named "A"] (some (.named result)))).2
  have resolved : Build.Gives (resolveOperands [.named "A", .named "A"]) valueless.model
      (.ok [0, 0]) valueless.model.opened :=
    Build.gives_resolveOperands (by decide +kernel)
  constructor
  · refine ⟨.fault .emptyMinimum,
      (broken "R" _).mpr ⟨rfl, _, _, _, rfl, rfl, rfl, ⟨_, _, resolved⟩, _, 1, rfl, ?_, ?_⟩⟩
    · decide +kernel
    · decide +kernel
  · rintro ⟨mishap, halted⟩
    obtain ⟨rfl, _, _, _, ⟨rfl, rfl, rfl⟩, _, _, _, _, variableId, ⟨rfl⟩, found, void⟩ :=
      (broken "A" mishap).mp halted
    obtain rfl : 0 = variableId :=
      Option.some.inj ((show _ = some 0 by decide +kernel).symm.trans found)
    exact absurd void (by decide +kernel)

end ConstraintSearch
