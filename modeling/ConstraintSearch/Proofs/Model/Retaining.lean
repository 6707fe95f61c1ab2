import ConstraintSearch.Proofs.Model.Arrangement
import ConstraintSearch.Proofs.Model.Consulting

/-!
# What requests leave as it was

A request adds to a model but takes nothing away: names and literals keep their variables, whether
the request succeeds or is refused. Only declarations of constraints that succeed change the
constraints.

`Build.Leads` tells what a step comes to from a given model, both where it succeeds and where it is
refused; a step that relates the models before and after it in the same way in both cases follows
the relation (`Build.Follows`).
-/

namespace ConstraintSearch

open Build

namespace Model

/-- The variable of a literal takes just its value. -/
def FixesLiterals (model : Model) : Prop :=
  ∀ value variableId, model.constant? value = some variableId →
    variableId < model.vars.size ∧ value ∈ model.vars.domainOf variableId ∧
      model.vars.domainOf variableId ⊆ .value value

/-- The empty model has no literals. -/
theorem fixesLiterals_empty : ({} : Model).FixesLiterals :=
  nofun

/-- The later model has the variables, names and literals of the former one. -/
structure Retains (former later : Model) : Prop where
  size_le : former.vars.size ≤ later.vars.size
  keyOf?_of_some : ∀ {name variableId}, former.vars.keyOf? name = some variableId →
    later.vars.keyOf? name = some variableId
  distinct : former.vars.Distinct → later.vars.Distinct
  /-- No domain loses its last value. -/
  nonempty : ∀ {variableId}, (former.vars.domainOf variableId).Nonempty →
    (later.vars.domainOf variableId).Nonempty
  constant?_of_some : ∀ {value variableId}, former.constant? value = some variableId →
    later.constant? value = some variableId
  fixesLiterals : former.FixesLiterals → later.FixesLiterals

/-- The later model also has the constraints of the former one, and no others. -/
structure Keeps (former later : Model) : Prop extends Retains former later where
  constraints_eq : later.constraints = former.constraints

/-- Besides, the later model is not prepared unless the former one is. -/
structure Grows (former later : Model) : Prop extends Keeps former later where
  unprepared : former.network = none → later.network = none

variable {former middle later : Model}

/-- Nothing is lost where nothing happens. -/
theorem Retains.refl (model : Model) : model.Retains model where
  size_le := Nat.le_refl _
  keyOf?_of_some := id
  distinct := id
  nonempty := id
  constant?_of_some := id
  fixesLiterals := id

/-- A step that leaves the variables and the literals alone loses none of them. -/
theorem Retains.of_eq (sameVars : later.vars = former.vars)
    (sameConstants : later.constants = former.constants) : former.Retains later := by
  obtain ⟨vars, constants, _, _, _, _, _⟩ := later
  cases sameVars
  cases sameConstants
  exact ⟨Nat.le_refl _, id, id, id, id, id⟩

/-- What two steps in a row each keep is still there after both. -/
theorem Retains.trans (lower : former.Retains middle) (upper : middle.Retains later) :
    former.Retains later where
  size_le := Nat.le_trans lower.size_le upper.size_le
  keyOf?_of_some found := upper.keyOf?_of_some (lower.keyOf?_of_some found)
  distinct := upper.distinct ∘ lower.distinct
  nonempty hasValues := upper.nonempty (lower.nonempty hasValues)
  constant?_of_some found := upper.constant?_of_some (lower.constant?_of_some found)
  fixesLiterals := upper.fixesLiterals ∘ lower.fixesLiterals

theorem Keeps.refl (model : Model) : model.Keeps model :=
  ⟨.refl model, rfl⟩

/-- Two steps in a row that keep the constraints keep them together. -/
theorem Keeps.trans (lower : former.Keeps middle) (upper : middle.Keeps later) :
    former.Keeps later :=
  ⟨lower.toRetains.trans upper.toRetains, upper.constraints_eq.trans lower.constraints_eq⟩

theorem Grows.refl (model : Model) : model.Grows model :=
  ⟨.refl model, id⟩

/-- Neither of two steps in a row prepares a model that is not prepared. -/
theorem Grows.trans (lower : former.Grows middle) (upper : middle.Grows later) :
    former.Grows later :=
  ⟨lower.toKeeps.trans upper.toKeeps, upper.unprepared ∘ lower.unprepared⟩

/-- An operand that stands for a variable goes on to stand for it. -/
theorem Retains.referent?_of_some (retains : former.Retains later) {operand : Operand}
    {variableId : VariableId} (found : operand.referent? former = some variableId) :
    operand.referent? later = some variableId := by
  cases operand with
  | named name => exact retains.keyOf?_of_some found
  | position other =>
    simp only [Operand.referent?] at found ⊢
    split at found
    · rename_i inside
      rw [if_pos (Nat.lt_of_lt_of_le inside retains.size_le)]
      exact found
    · cases found
  | literal value =>
    simp only [Operand.referent?] at found ⊢
    split at found
    · rename_i inside
      rw [if_pos inside]
      exact retains.constant?_of_some found
    · cases found

/-- The entries that are there keep their positions, as a new one goes to the end. -/
theorem keyOf?_push_of_some {vars : Variables} (entry : Variable) {name : String}
    {variableId : VariableId} (found : vars.keyOf? name = some variableId) :
    (vars.push entry).keyOf? name = some variableId := by
  rw [Directory.keyOf?_eq_findKey?] at found ⊢
  change (vars.table.push entry).findKey? _ = _
  rw [Table.findKey?_push, found]
  rfl

/-- A further variable is not that of any literal. -/
theorem FixesLiterals.push (fixes : former.FixesLiterals) (entry : Variable) :
    FixesLiterals { former with vars := former.vars.push entry } := by
  intro value variableId found
  obtain ⟨inside, fixed⟩ := fixes value variableId found
  dsimp only
  rw [Directory.size_push, Directory.domainOf_push_of_lt entry inside]
  exact ⟨Nat.lt_succ_of_lt inside, fixed⟩

/-- A further variable under a new name adds to the model. -/
theorem grows_push (model : Model) (entry : Variable) (new : model.vars.keyOf? entry.name = none) :
    model.Grows { model with vars := model.vars.push entry } where
  size_le := by
    rw [Directory.size_push]
    exact Nat.le_succ _
  keyOf?_of_some := keyOf?_push_of_some entry
  distinct distinct := distinct.push new
  nonempty {variableId} hasValues := by
    obtain ⟨value, member⟩ := hasValues
    obtain ⟨old, found, _⟩ := Directory.exists_get?_of_mem_domainOf member
    have inside : variableId < model.vars.size :=
      (model.vars.table.get?_isSome_iff variableId).mp (Option.isSome_of_mem found)
    dsimp only
    rw [Directory.domainOf_push_of_lt entry inside]
    exact ⟨value, member⟩
  constant?_of_some := id
  fixesLiterals fixes := fixes.push entry
  constraints_eq := rfl
  unprepared := id

/-- A variable that is not named by the caller takes a name that is new, so it adds to the model. -/
theorem grows_pushAnonymous (model : Model) (domain : Domain) :
    model.Grows { model with vars := model.vars.pushAnonymous domain } :=
  model.grows_push _ (keyOf?_unusedName model.vars)

section Modified

variable {model : Model} {key : Nat} {change : Variable → Variable}
  (keeps : ∀ entry, (change entry).name = entry.name)
  (subset : ∀ entry, model.vars.get? key = some entry → (change entry).domain ⊆ entry.domain)
  (nonempty : ∀ entry, model.vars.get? key = some entry → entry.domain.Nonempty →
  (change entry).domain.Nonempty)

include subset nonempty

/-- A domain that does not grow or lose its last value keeps its only value. -/
theorem FixesLiterals.modify (fixes : model.FixesLiterals) :
    FixesLiterals { model with vars := model.vars.modify key change keeps } := by
  intro value variableId found
  obtain ⟨inside, member, only⟩ := fixes value variableId found
  dsimp only
  rw [Directory.size_modify, Directory.domainOf_modify]
  refine ⟨inside, ?_⟩
  split
  · rename_i same
    subst same
    obtain ⟨entry, isEntry, isDomain⟩ := Directory.exists_get?_of_mem_domainOf member
    rw [isDomain] at member only
    rw [isEntry]
    obtain ⟨other, left⟩ := nonempty entry isEntry ⟨value, member⟩
    obtain ⟨rfl, -⟩ := Domain.mem_value.mp (only other (subset entry isEntry other left))
    exact ⟨left, Domain.Subset.trans (subset entry isEntry) only⟩
  · exact ⟨member, only⟩

/-- A variable may be changed as long as its domain does not grow or lose its last value. -/
theorem grows_modify : model.Grows { model with vars := model.vars.modify key change keeps } where
  size_le := Nat.le_of_eq (Directory.size_modify _ _ _ keeps).symm
  keyOf?_of_some := id
  distinct distinct := distinct.modify key change keeps
  nonempty {variableId} hasValues := by
    dsimp only
    rw [Directory.domainOf_modify]
    split
    · rename_i same
      subst same
      obtain ⟨value, member⟩ := hasValues
      obtain ⟨entry, isEntry, isDomain⟩ := Directory.exists_get?_of_mem_domainOf member
      rw [isEntry]
      exact nonempty entry isEntry ⟨value, isDomain ▸ member⟩
    · exact hasValues
  constant?_of_some := id
  fixesLiterals fixes := fixes.modify keeps subset nonempty
  constraints_eq := rfl
  unprepared := id

end Modified

/-- The model with a further variable that stands for the literal. -/
def withLiteral (model : Model) (value : Int) : Model :=
  { model with
    vars := model.vars.pushAnonymous (.value value)
    constants := (value, model.vars.size) :: model.constants }

/-- The literal has the new variable, and every other literal the one that it had. -/
theorem constant?_withLiteral (model : Model) (value other : Int) :
    (model.withLiteral value).constant? other = if other = value then some model.vars.size
      else model.constant? other := by
  rw [constant?, withLiteral, List.lookup_cons, constant?]
  split <;> simp_all

/-- Adding a new literal adds to the model, and its variable takes just its value. -/
theorem grows_withLiteral (model : Model) {value : Int} (new : model.constant? value = none)
    (bounds : valueFloor ≤ value ∧ value ≤ valueCeiling) :
    model.Grows (model.withLiteral value) where
  size_le := (model.grows_pushAnonymous _).size_le
  keyOf?_of_some := (model.grows_pushAnonymous _).keyOf?_of_some
  distinct := (model.grows_pushAnonymous _).distinct
  nonempty := (model.grows_pushAnonymous _).nonempty
  constant?_of_some {other variableId} found := by
    rw [constant?_withLiteral, if_neg]
    · exact found
    · rintro rfl
      cases new.symm.trans found
  fixesLiterals fixes := by
    intro other variableId found
    rw [constant?_withLiteral] at found
    split at found
    · rename_i same
      cases found
      subst same
      constructor
      · change _ < (model.vars.push _).size
        rw [Directory.size_push]
        exact Nat.lt_succ_self _
      · rw [withLiteral, Directory.domainOf_pushAnonymous_size]
        exact ⟨Domain.mem_value.mpr ⟨rfl, bounds⟩, Domain.Subset.refl _⟩
    · exact fixes.push _ other variableId found
  constraints_eq := rfl
  unprepared := id

/-- A declared variable is found by its name, also if the model is prepared. -/
theorem Sound.keyOf?_eq_none_of_find? {model : Model} (sound : model.Sound) {name : String}
    (unknown : model.find? name = none) : model.vars.keyOf? name = none := by
  cases known : model.vars.keyOf? name with
  | none => rfl
  | some variableId =>
    obtain ⟨entry, found, rfl⟩ := Directory.exists_get?_of_keyOf? known
    have foundAgain : model.allVariables.get? variableId = some entry := by
      rw [allVariables]
      cases prepared : model.network with
      | none => exact found
      | some network =>
        exact ((sound.built network prepared).get?_eq (Directory.lt_size_of_keyOf? known)).trans
          found
    have visible := Directory.keyOf?_isSome_of_get? foundAgain
    rw [show model.allVariables.keyOf? entry.name = none from unknown] at visible
    cases visible

end Model

namespace Build

/-! ### What a step leads to -/

/-- From the model, the step succeeds with a result and a model of the first kind, or is refused and
leaves a model of the second kind. -/
def Leads {α : Type} (step : Build α) (start : Model) (done : α → Model → Prop)
    (refused : Model → Prop) : Prop :=
  ∀ workspace : Workspace, workspace.model = start →
    match step.run workspace with
    | (.ok result, after) => done result after.model
    | (.error _, after) => refused after.model

namespace Leads

variable {α β : Type} {start : Model} {done : α → Model → Prop} {refused : Model → Prop}

/-- What a step leads to is read off a run that succeeds. -/
theorem done_of_ok {step : Build α} {workspace : Workspace} {result : α}
    (leads : Leads step workspace.model done refused)
    (succeeds : (step.run workspace).1 = .ok result) :
    done result (step.run workspace).2.model := by
  have led := leads workspace rfl
  split at led <;> rename_i ran <;> rw [ran] at succeeds <;> cases succeeds
  rw [ran]
  exact led

/-- What a refusal leaves is read off a run that is refused. -/
theorem refused_of_error {step : Build α} {workspace : Workspace} {refusal : Refusal}
    (leads : Leads step workspace.model done refused)
    (fails : (step.run workspace).1 = .error refusal) :
    refused (step.run workspace).2.model := by
  have led := leads workspace rfl
  split at led <;> rename_i ran <;> rw [ran] at fails <;> cases fails
  rw [ran]
  exact led

/-- A step leads to whatever follows from what it leads to. -/
theorem imp {step : Build α} {laxer : α → Model → Prop} {lax : Model → Prop}
    (leads : Leads step start done refused)
    (success : ∀ result after, done result after → laxer result after)
    (refusal : ∀ after, refused after → lax after) : Leads step start laxer lax := by
  intro workspace starts
  have led := leads workspace starts
  split at led
  · exact success _ _ led
  · exact refusal _ led

/-- What a refusal leaves may be weakened on its own. -/
theorem imp_refused {step : Build α} {lax : Model → Prop} (leads : Leads step start done refused)
    (refusal : ∀ after, refused after → lax after) : Leads step start done lax :=
  leads.imp (fun _ _ => id) refusal

/-- Two descriptions of a step hold together. -/
theorem and {step : Build α} {also : α → Model → Prop} {alsoRefused : Model → Prop}
    (leads : Leads step start done refused) (leadsToo : Leads step start also alsoRefused) :
    Leads step start (fun result after => done result after ∧ also result after) fun after =>
      refused after ∧ alsoRefused after := by
  intro workspace starts
  have led := leads workspace starts
  have ledToo := leadsToo workspace starts
  split at led <;> rename_i ran <;> rw [ran] at ledToo <;> exact ⟨led, ledToo⟩

/-- A step whose outcome is known. -/
theorem of_gives {step : Build α} {result : α} {after : Model}
    (gives : Gives step start (.ok result) after) (holds : done result after) :
    Leads step start done refused := by
  intro workspace starts
  obtain ⟨succeeded, left⟩ := gives workspace starts
  rcases ran : step.run workspace with ⟨outcome, later⟩
  rw [ran] at succeeded left
  subst succeeded left
  exact holds

/-- A step that is known to be refused leads to anything where it succeeds. -/
theorem of_refuses {step : Build α} {after : Model} (refuses : Refuses step start after)
    (holds : refused after) : Leads step start done refused := by
  intro workspace starts
  obtain ⟨refusal, gives⟩ := refuses
  obtain ⟨failed, left⟩ := gives workspace starts
  rcases ran : step.run workspace with ⟨outcome, later⟩
  rw [ran] at failed left
  subst failed left
  exact holds

/-- A step that only returns a result leads from a model to itself. -/
theorem pure {result : α} (holds : done result start) :
    Leads (Pure.pure result) start done refused :=
  of_gives (Gives.pure result) holds

/-- A step that only refuses leaves the model as it was. -/
theorem refuse (error : ModelError) (holds : refused start) :
    Leads (Build.refuse error : Build α) start done refused :=
  of_refuses ⟨_, Gives.refuse error⟩ holds

/-- The second step is described from each model that the first one may leave, and refusals of
either end the sequence. -/
theorem bind {step : Build α} {next : α → Build β} {between : α → Model → Prop}
    {done : β → Model → Prop} (first : Leads step start between refused)
    (second : ∀ result middle, between result middle → Leads (next result) middle done refused) :
    Leads (step >>= next) start done refused := by
  intro workspace starts
  have led := first workspace starts
  rw [run_bind]
  rcases ran : step.run workspace with ⟨refusal | result, middle⟩ <;> rw [ran] at led
  · exact led
  · exact second result middle.model led middle rfl

/-- Nothing happens behind a refusal. -/
theorem refuse_bind {done : β → Model → Prop} (error : ModelError) (next : α → Build β)
    (holds : refused start) : Leads (Build.refuse error >>= next) start done refused := by
  have never : Leads (Build.refuse error : Build α) start (fun _ _ => False) refused :=
    refuse error holds
  exact never.bind nofun

/-- If the outcome of the first step is known, only the second one is left to describe. -/
theorem bind_of_gives {step : Build α} {next : α → Build β} {result : α} {middle : Model}
    {done : β → Model → Prop} (gives : Gives step start (.ok result) middle)
    (continues : Leads (next result) middle done refused) :
    Leads (step >>= next) start done refused := by
  refine bind (of_gives gives ⟨rfl, rfl⟩ : Leads step start
    (fun seen after => seen = result ∧ after = middle) refused) ?_
  rintro _ _ ⟨rfl, rfl⟩
  exact continues

/-- A check does not change the model, whether it passes or not. -/
theorem check {checked : Except ModelError α}
    (passes : ∀ result, checked = .ok result → done result start) (fails : refused start) :
    Leads (Build.check checked) start done refused := by
  cases checked with
  | ok result => exact pure (passes result rfl)
  | error error => exact refuse error fails

/-- What comes after a check is described for the result that passes. -/
theorem check_bind {checked : Except ModelError α} {next : α → Build β} {done : β → Model → Prop}
    (passes : ∀ result, checked = .ok result → Leads (next result) start done refused)
    (fails : refused start) :
    Leads (Build.check checked >>= next) start done refused := by
  cases checked with
  | ok result => exact passes result rfl
  | error error => exact refuse_bind error next fails

/-- The result is not used. -/
theorem discard {step : Build α} {holds : Model → Prop}
    (leads : Leads step start (fun _ => holds) holds) :
    Leads (Functor.discard step) start (fun _ => holds) holds := by
  change Leads (Functor.map (Function.const α ()) step) start _ _
  rw [map_eq_pure_bind]
  exact leads.bind fun _ _ reached => .pure reached

/-- What holds of the model after the step, whether it succeeds or is refused. -/
theorem along {step : Build α} {workspace : Workspace} {holds : Model → Prop}
    (leads : Leads step workspace.model (fun _ => holds) holds) :
    holds (step.run workspace).2.model := by
  have led := leads workspace rfl
  split at led <;> rename_i ran <;> rw [ran] <;> exact led

end Leads

/-! ### Relations along steps -/

/-- A relation between models that holds if nothing happens, and adds up. -/
structure Trend (Along : Model → Model → Prop) : Prop where
  refl : ∀ model, Along model model
  trans : ∀ {first second third}, Along first second → Along second third → Along first third

/-- Whether the step succeeds or is refused, it follows the relation. -/
def Follows {α : Type} (step : Build α) (Along : Model → Model → Prop) : Prop :=
  ∀ start, Leads step start (fun _ => Along start) (Along start)

/-- Adding to a model is a relation that adds up along steps. -/
theorem trend_grows : Trend Model.Grows :=
  ⟨.refl, .trans⟩

namespace Follows

variable {α β : Type} {Along : Model → Model → Prop}

/-- A step follows every laxer relation. -/
theorem weaken {Laxer : Model → Model → Prop} {step : Build α} (follows : Follows step Along)
    (lax : ∀ {former later}, Along former later → Laxer former later) : Follows step Laxer :=
  fun start => (follows start).imp (fun _ _ => lax) fun _ => lax

/-- A change of the model follows a relation that holds between each model and the changed one. -/
theorem update {change : Model → Model} (along : ∀ model, Along model (change model)) :
    Follows (Build.update change) Along :=
  fun start => .of_gives (Gives.update change) (along start)

variable (trend : Trend Along)

include trend

theorem pure (result : α) : Follows (Pure.pure result : Build α) Along :=
  fun start => .pure (trend.refl start)

/-- A refusal leaves the model as it is. -/
theorem refuse (error : ModelError) : Follows (Build.refuse error : Build α) Along :=
  fun start => .refuse error (trend.refl start)

/-- Reading the model leaves it as it is. -/
theorem model : Follows Build.model Along :=
  fun start => .of_gives Gives.model (trend.refl start)

/-- Reporting an event leaves the model as it is. -/
theorem report (event : Event) : Follows (Build.report event) Along :=
  fun start => .of_gives (Gives.report event) (trend.refl start)

/-- Steps in a row follow the relation, since it adds up, also if the second one is refused. -/
theorem bind {step : Build α} {next : α → Build β} (first : Follows step Along)
    (second : ∀ result, Follows (next result) Along) : Follows (step >>= next) Along := by
  intro start
  refine (first start).bind fun result middle lower => (second result middle).imp ?_ ?_
  · exact fun _ _ => trend.trans lower
  · exact fun _ => trend.trans lower

/-- A step that is taken first under a condition. -/
theorem guarded {condition : Prop} [Decidable condition] {step : Build Unit} {rest : Build α}
    (first : Follows step Along) (second : Follows rest Along) :
    Follows (if condition then step >>= fun _ => rest else rest) Along := by
  split
  · exact bind trend first fun _ => second
  · exact second

/-- A check leaves the model as it is, whether it passes or not. -/
theorem check (checked : Except ModelError α) : Follows (Build.check checked) Along :=
  fun start => .check (fun _ _ => trend.refl start) (trend.refl start)

/-- A step for each entry of a list follows the relation as the single steps do. -/
theorem mapM {step : α → Build β} {entries : List α}
    (each : ∀ entry ∈ entries, Follows (step entry) Along) : Follows (entries.mapM step) Along := by
  induction entries with
  | nil => exact pure trend []
  | cons first rest inductionHypothesis =>
    rw [List.mapM_cons]
    obtain ⟨ofFirst, ofRest⟩ := List.forall_mem_cons.mp each
    exact bind trend ofFirst fun _ => bind trend (inductionHypothesis ofRest) fun _ => pure trend _

/-- Looking a name up leaves the model as it is, whether it is found or not. -/
theorem lookup (name : String) : Follows (Build.lookup name) Along := by
  refine bind trend (model trend) fun seen => ?_
  split
  · exact pure trend _
  · exact refuse trend _

end Follows

/-! ### Variables -/

/-- A pushed variable gets the number of variables before it as its position. -/
theorem gives_push {start : Model} (entry : Variable) :
    Gives (push entry) start (.ok start.vars.size)
      { start with vars := start.vars.push entry } := by
  rintro workspace rfl
  exact ⟨rfl, rfl⟩

/-- So does a variable without a name of its own. -/
theorem gives_pushAnonymous {start : Model} (domain : Domain) :
    Gives (pushAnonymous domain) start (.ok start.vars.size)
      { start with vars := start.vars.pushAnonymous domain } := by
  rintro workspace rfl
  exact ⟨rfl, rfl⟩

/-- Dropping the network takes nothing from the model. -/
theorem follows_invalidate : Follows invalidate Model.Grows := by
  refine .bind trend_grows (.model trend_grows) fun seen => ?_
  split
  · refine .bind trend_grows (.report trend_grows _) fun _ => .update fun model => ?_
    exact ⟨⟨.of_eq rfl rfl, rfl⟩, fun _ => rfl⟩
  · exact .pure trend_grows _

/-- A variable without a name of its own adds to the model. -/
theorem follows_pushAnonymous (domain : Domain) : Follows (pushAnonymous domain) Model.Grows :=
  fun start => .of_gives (gives_pushAnonymous domain) (start.grows_pushAnonymous domain)

/-- A name that is not found is new, also if the model is prepared. -/
theorem leads_addVariable {start : Model} (sound : start.Sound) (name : String) (domain : Domain) :
    Leads (addVariable name domain) start (fun _ => start.Grows) start.Grows := by
  have checks : Leads (Build.check (checkName name)) start (fun _ after => after = start)
      start.Grows :=
    .check (fun _ _ => rfl) (.refl start)
  apply checks.bind
  rintro _ _ rfl
  rename_i start
  apply Leads.bind_of_gives Gives.model
  dsimp only
  split
  · exact .refuse_bind _ _ (.refl start)
  · rename_i unknown
    have new : start.vars.keyOf? name = none :=
      sound.keyOf?_eq_none_of_find? (Option.not_isSome_iff_eq_none.mp unknown)
    have opens : start.Grows start.opened := ⟨⟨.of_eq rfl rfl, rfl⟩, fun _ => rfl⟩
    refine .bind_of_gives gives_invalidate (.of_gives (gives_push { name, domain }) ?_)
    exact opens.trans (start.opened.grows_push { name, domain } new)

/-- Declaring a variable by its bounds adds to the model, or leaves it alone if the bounds are
refused. -/
theorem leads_addRange {start : Model} (sound : start.Sound) (name : String) (lower upper : Int) :
    Leads (addRange name lower upper) start (fun _ => start.Grows) start.Grows := by
  have checks : Leads (Build.check (checkRange lower upper)) start (fun _ after => after = start)
      start.Grows :=
    .check (fun _ _ => rfl) (.refl start)
  apply checks.bind
  rintro domain _ rfl
  exact leads_addVariable sound name domain

/-- Declaring a variable without a name adds to the model. -/
theorem follows_addAnonymous (domain : Domain) : Follows (addAnonymous domain) Model.Grows :=
  .bind trend_grows follows_invalidate fun _ => follows_pushAnonymous domain

/-- So does declaring one by its bounds. -/
theorem follows_addAnonymousRange (lower upper : Int) :
    Follows (addAnonymousRange lower upper) Model.Grows :=
  .bind trend_grows (.check trend_grows _) fun domain => follows_addAnonymous domain

/-- A value that passes its check is returned as it is and lies within the supported bounds. -/
theorem leads_checkValue {start : Model} {refused : Model → Prop} (unchanged : refused start)
    (value : Int) : Leads (Build.check (checkValue value)) start
      (fun checked after => after = start ∧ checked = value ∧ valueFloor ≤ value ∧
        value ≤ valueCeiling) refused := by
  refine .check (fun checked passed => ?_) unchanged
  rw [checkValue] at passed
  split at passed
  · rename_i bounds
    cases passed
    exact ⟨rfl, rfl, bounds⟩
  · cases passed

/-- The variable of a literal is added only if there is none yet. -/
theorem leads_constantFor (start : Model) {value : Int}
    (bounds : valueFloor ≤ value ∧ value ≤ valueCeiling) : Leads (constantFor value) start
      (fun variableId after => start.Grows after ∧ after.constant? value = some variableId)
        start.Grows := by
  apply Leads.bind_of_gives Gives.model
  split
  · rename_i variableId found
    exact .pure ⟨.refl _, found⟩
  · rename_i new
    refine .bind_of_gives (gives_pushAnonymous _)
      (.bind_of_gives (Gives.update _) (.pure ⟨start.grows_withLiteral new bounds, ?_⟩))
    exact (start.constant?_withLiteral value value).trans (if_pos rfl)

/-- Declaring a literal adds to the model, whether or not it was declared before. -/
theorem follows_addConstant (value : Int) : Follows (addConstant value) Model.Grows := by
  intro start
  apply (leads_checkValue (.refl start) value).bind
  rintro _ _ ⟨rfl, rfl, bounds⟩
  rename_i value start
  refine (follows_invalidate start).bind fun _ middle lower => ?_
  exact (leads_constantFor middle bounds).imp (fun _ _ led => lower.trans led.1) fun _ =>
    lower.trans

/-! ### Targets and strategies -/

/-- A setting is no variable, name or literal. -/
theorem follows_setting {change : Model → Model}
    (grows : ∀ model : Model, model.Grows (change model)) :
    Follows (do invalidate; update change) Model.Grows :=
  .bind trend_grows follows_invalidate fun _ => .update grows

/-- Setting the targets adds to the model. -/
theorem follows_setTargets (targets : Targets) : Follows (setTargets targets) Model.Grows :=
  follows_setting fun _ => ⟨⟨.of_eq rfl rfl, rfl⟩, id⟩

/-- So does setting the order of the variables. -/
theorem follows_setOrder (order : VariableOrder String) : Follows (setOrder order) Model.Grows :=
  follows_setting fun _ => ⟨⟨.of_eq rfl rfl, rfl⟩, id⟩

/-- So does setting the strategy for values, which may be refused. -/
theorem follows_setStrategy (strategy : ValueStrategy String) :
    Follows (setStrategy strategy) Model.Grows := by
  rw [setStrategy]
  refine .guarded trend_grows (.refuse trend_grows _) ?_
  exact follows_setting fun _ => ⟨⟨.of_eq rfl rfl, rfl⟩, id⟩

/-- The strategy of a variable is not part of its name or domain. -/
theorem follows_setVariableStrategy (name : String) (strategy : ValueStrategy String) :
    Follows (setVariableStrategy name strategy) Model.Grows :=
  .bind trend_grows follows_invalidate fun _ =>
    .bind trend_grows (.lookup trend_grows name) fun _ =>
      .update fun _ => Model.grows_modify _ (fun _ _ => Domain.Subset.refl _) fun _ _ => id

/-- Preparing a model only puts a network on top of it. -/
theorem follows_prepare : Follows prepare Model.Keeps := by
  intro start
  cases prepared : start.network with
  | some network => exact .of_gives (gives_prepare_of_prepared prepared) (.refl start)
  | none =>
    rcases coincides_prepare (.refl start) rfl prepared prepared
      with ⟨refusal, gives, _⟩ | ⟨network, gives, _⟩
    · exact .of_refuses ⟨_, gives⟩ (.refl start)
    · exact .of_gives gives ⟨.of_eq rfl rfl, rfl⟩

end Build

/-- The request is to declare a constraint. -/
def Request.Constrains (request : Request) : Prop :=
  ∃ operator operands result, request = .declareConstraint operator operands result

/-- Only the declaration of a constraint changes the constraints. -/
theorem Request.keeps_after {request : Request} (other : ¬ request.Constrains)
    {workspace : Workspace} (sound : workspace.model.Sound) :
    workspace.model.Keeps (request.after workspace).model := by
  suffices leads : Leads request.step workspace.model (fun _ => workspace.model.Keeps)
      workspace.model.Keeps from leads.along
  have grows : ∀ {α : Type} {step : Build α}, Follows step Model.Grows → Follows step Model.Keeps :=
    fun follows => follows.weaken Model.Grows.toKeeps
  cases request with
  | declare name domain =>
    exact .discard ((leads_addVariable sound name domain).imp (fun _ _ => Model.Grows.toKeeps)
      fun _ => Model.Grows.toKeeps)
  | declareRange name lower upper =>
    exact .discard ((leads_addRange sound name lower upper).imp (fun _ _ => Model.Grows.toKeeps)
      fun _ => Model.Grows.toKeeps)
  | declareAnonymous domain => exact .discard (grows (follows_addAnonymous _) _)
  | declareAnonymousRange lower upper =>
    exact .discard (grows (follows_addAnonymousRange lower upper) _)
  | declareConstant value => exact .discard (grows (follows_addConstant _) _)
  | declareConstraint operator operands result =>
    exact absurd ⟨operator, operands, result, rfl⟩ other
  | target targets => exact grows (follows_setTargets _) _
  | orderBy order => exact grows (follows_setOrder _) _
  | divideBy strategy => exact grows (follows_setStrategy _) _
  | divideVariableBy name strategy => exact grows (follows_setVariableStrategy name strategy) _
  | prepare => exact .discard (follows_prepare _)

end ConstraintSearch
