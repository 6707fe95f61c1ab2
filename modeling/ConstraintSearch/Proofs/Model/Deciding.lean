import ConstraintSearch.Model.Prepare
import ConstraintSearch.Proofs.Model.Declared

/-!
# Steps that decide

Resolving the names in a declaration either replaces every name by the variable that it names, or is
refused because of a flaw. `Build.Decides` says of a step exactly when it is refused and what it
gives otherwise, and `Build.Decides.resolveStrategy` and its companions say this of the parts of a
model that name variables.
-/

namespace ConstraintSearch

open Build

/-- The strategy and its fallbacks. -/
def ValueStrategy.levels {Guard : Type} : ValueStrategy Guard → List (ValueStrategy Guard)
  | list values fallback => list values fallback :: fallback.levels
  | other => [other]

/-! ### Declarations with other names -/

section Renaming

variable {Name Other : Type} (change : Name → Other)

/-- The criterion with other names for what it lists. -/
def Criterion.map : Criterion Name → Criterion Other
  | .naive => .naive
  | .size => .size
  | .min => .min
  | .max => .max
  | .markov => .markov
  | .list listed inverted => .list (listed.map change) inverted

/-- The order with other names for what its criteria list. -/
def VariableOrder.map (order : VariableOrder Name) : VariableOrder Other where
  first := order.first.map change
  ties := order.ties.map (Criterion.map change)

/-- The row with another name for its guard. -/
def MarkovRow.map (row : MarkovRow Name) : MarkovRow Other where
  weights := row.weights
  guard := row.guard.map change

/-- The matrix with other names for its guards. -/
def MarkovMatrix.map (matrix : MarkovMatrix Name) : MarkovMatrix Other where
  legend := matrix.legend
  rows := matrix.rows.map (MarkovRow.map change)
  expansion := matrix.expansion

/-- The strategy with other names for its guards. -/
def ValueStrategy.map : ValueStrategy Name → ValueStrategy Other
  | .min => .min
  | .max => .max
  | .mid => .mid
  | .splitMin => .splitMin
  | .splitMax => .splitMax
  | .minMaxCycle => .minMaxCycle
  | .list values fallback => .list values fallback.map
  | .markov matrix => .markov (matrix.map change)

/-- Renaming an order renames each of its criteria. -/
theorem VariableOrder.criteria_map (order : VariableOrder Name) :
    (order.map change).criteria = order.criteria.map (Criterion.map change) :=
  rfl

/-- Strategies keep their levels under other names. -/
theorem ValueStrategy.levels_map (strategy : ValueStrategy Name) :
    (strategy.map change).levels = strategy.levels.map (ValueStrategy.map change) := by
  induction strategy with
  | list values fallback inductionHypothesis => exact congrArg _ inductionHypothesis
  | min | max | mid | splitMin | splitMax | minMaxCycle | markov => rfl

end Renaming

/-- The targeted variables, none where all are targeted. -/
def Targets.variables (variableOf : String → VariableId) : Targets → Option (List VariableId)
  | .all => none
  | .named names => some (names.map variableOf)

/-! ### Flaws -/

/-- The matrix has rows of finite weights that are not negative, which are not longer than the
legend unless they are expanded, and its guards are names that are declared. -/
structure MarkovMatrix.WellPosed (matrix : MarkovMatrix String) (declared : String → Prop) :
    Prop where
  rows_ne_nil : matrix.rows ≠ []
  weights : ∀ row ∈ matrix.rows, ∀ weight ∈ row.weights, isWeight weight
  expansion : ∀ weight, matrix.expansion = some weight → isWeight weight
  length_le : matrix.expansion = none → ∀ row ∈ matrix.rows,
    row.weights.length ≤ matrix.legend.length
  guards : ∀ row ∈ matrix.rows, ∀ name, row.guard = some name → declared name

/-- Nothing is wrong with finite weights that are not negative, of which there are not more than
values in the legend unless the legend is expanded. -/
theorem MarkovMatrix.rowFlaw?_eq_none_iff {Guard : Type} {matrix : MarkovMatrix Guard}
    {row : MarkovRow Guard} (index : Nat) :
    matrix.rowFlaw? row index = none ↔ (∀ weight ∈ row.weights, isWeight weight) ∧
      (matrix.expansion = none → row.weights.length ≤ matrix.legend.length) := by
  rw [rowFlaw?]
  split
  · simp_all
  · split <;> simp_all

/-- A matrix is well posed if it has rows and each of its parts is. -/
theorem MarkovMatrix.wellPosed_iff {matrix : MarkovMatrix String} {declared : String → Prop} :
    matrix.WellPosed declared ↔
      matrix.rows ≠ [] ∧ (∀ weight, matrix.expansion = some weight → isWeight weight) ∧
        ∀ row ∈ matrix.rows, ((∀ weight ∈ row.weights, isWeight weight) ∧
          (matrix.expansion = none → row.weights.length ≤ matrix.legend.length)) ∧ ∀ name,
            row.guard = some name → declared name := by
  constructor
  · rintro ⟨rows_ne_nil, weights, expansion, length_le, guards⟩
    exact ⟨rows_ne_nil, expansion, fun row inside =>
      ⟨⟨weights row inside, fun unexpanded => length_le unexpanded row inside⟩, guards row inside⟩⟩
  · rintro ⟨rows_ne_nil, expansion, rows⟩
    exact ⟨rows_ne_nil, fun row inside => (rows row inside).1.1, expansion,
      fun unexpanded row inside => (rows row inside).1.2 unexpanded, fun row inside =>
        (rows row inside).2⟩

/-- No list falls back to a matrix, and a matrix is well posed. -/
structure ValueStrategy.WellPosed (strategy : ValueStrategy String) (declared : String → Prop) :
    Prop where
  fallbacks : ∀ values fallback, .list values fallback ∈ strategy.levels → fallback.isMarkov = false
  matrix : ∀ matrix, strategy = .markov matrix → matrix.WellPosed declared

namespace Build

/-- The step leaves the model as it is, has the result where the condition is met, and is refused
elsewhere. -/
def Decides {α : Type} (current : Model) (step : Build α) (condition : Prop) (result : α) : Prop :=
  (condition ∧ Gives step current (.ok result) current) ∨
    ¬ condition ∧ ∃ error, Gives step current (.error (.invalid error)) current

namespace Decides

variable {α β : Type} {current : Model} {condition later : Prop}

/-- A result is returned under no condition. -/
theorem pure (result : α) : Decides current (Pure.pure result) True result :=
  .inl ⟨trivial, Gives.pure result⟩

/-- The condition may be said in other words. -/
theorem imp {step : Build α} {result : α} (decides : Decides current step condition result)
    (same : condition ↔ later) : Decides current step later result := by
  rwa [← propext same]

/-- Steps in a row are decided by both conditions. -/
theorem bind {step : Build α} {next : α → Build β} {result : α} {final : β}
    (first : Decides current step condition result)
    (second : Decides current (next result) later final) :
    Decides current (step >>= next) (condition ∧ later) final := by
  rcases first with ⟨met, gives⟩ | ⟨unmet, error, gives⟩
  · rcases second with ⟨metToo, givesToo⟩ | ⟨unmet, error, givesToo⟩
    · exact .inl ⟨⟨met, metToo⟩, gives.bind givesToo⟩
    · exact .inr ⟨fun both => unmet both.2, error, gives.bind givesToo⟩
  · exact .inr ⟨fun both => unmet both.1, error, gives.bind_error⟩

/-- What is done to the result afterwards. -/
theorem map {step : Build α} {result : α} (decides : Decides current step condition result)
    (image : α → β) :
    Decides current (step >>= fun result => Pure.pure (image result)) condition (image result) :=
  (decides.bind (pure (image result))).imp (Iff.of_eq (and_true _))

/-- A flaw for which the step is refused before the rest. -/
theorem refused {flawed : Prop} [Decidable flawed] {rest : Build α} {result : α}
    (error : ModelError) (decides : Decides current rest condition result) :
    Decides current (if flawed then (refuse error : Build Unit) >>= fun _ => rest else rest)
      (¬ flawed ∧ condition) result := by
  split
  · rename_i flaw
    exact .inr ⟨fun both => both.1 flaw, _, (Gives.refuse error).bind_error⟩
  · rename_i flawless
    exact decides.imp (iff_and_self.mpr fun _ => flawless)

/-- What is reported before the rest does not matter. -/
theorem reported {noted : Prop} [Decidable noted] {rest : Build α} {result : α} (event : Event)
    (decides : Decides current rest condition result) :
    Decides current (if noted then report event >>= fun _ => rest else rest) condition result := by
  split
  · have first : Decides current (report event) True () := .inl ⟨trivial, Gives.report event⟩
    exact (first.bind decides).imp (Iff.of_eq (true_and _))
  · exact decides

/-- The entries of a list are decided one by one. -/
theorem mapM {step : α → Build β} {conditions : α → Prop} {results : α → β} (entries : List α)
    (each : ∀ entry ∈ entries, Decides current (step entry) (conditions entry) (results entry)) :
    Decides current (entries.mapM step) (∀ entry ∈ entries, conditions entry)
      (entries.map results) := by
  induction entries with
  | nil => exact (pure []).imp (by simp)
  | cons first rest inductionHypothesis =>
    have others :=
      inductionHypothesis fun entry inside => each entry (List.mem_cons_of_mem _ inside)
    rw [List.mapM_cons, List.map_cons]
    exact ((each first List.mem_cons_self).bind (others.map _)).imp (List.forall_mem_cons).symm

/-- The entries are taken with their places, which do not matter. -/
theorem mapM_zipIdx {step : α → Nat → Build β} {conditions : α → Prop} {results : α → β}
    (entries : List α) (each : ∀ entry index,
      Decides current (step entry index) (conditions entry) (results entry)) :
    Decides current (entries.zipIdx.mapM fun placed => step placed.1 placed.2)
    (∀ entry ∈ entries, conditions entry)
      (entries.map results) := by
  have all := mapM entries.zipIdx fun placed _ => each placed.1 placed.2
  have same : entries = entries.zipIdx.map Prod.fst := (List.zipIdx_map_fst 0 entries).symm
  rw [same, List.map_map]
  refine Decides.imp ?_ List.forall_mem_map.symm
  rw [← same]
  exact all

/-- What may be missing is decided if it is there. -/
theorem optionMapM {step : α → Build β} {conditions : α → Prop} {results : α → β} (entry : Option α)
    (each : ∀ present, Decides current (step present) (conditions present) (results present)) :
    Decides current (entry.mapM step) (∀ present, entry = some present → conditions present)
      (entry.map results) := by
  cases entry with
  | none => exact (pure none).imp (by simp)
  | some present =>
    change Decides current (some <$> step present) _ _
    rw [map_eq_pure_bind]
    exact ((each present).map some).imp (by simp)

/-! ### Names -/

/-- A step for a name that gives the variable of the name, if there is one. -/
theorem lookup (name : String) :
    Decides current (Build.lookup name) (current.find? name).isSome
      ((current.find? name).getD 0) := by
  cases found : current.find? name with
  | none =>
    refine .inr ⟨by simp, .unknownVariable name, Gives.model.bind ?_⟩
    rw [found]
    exact Gives.refuse _
  | some variableId =>
    refine .inl ⟨rfl, Gives.model.bind ?_⟩
    rw [found]
    exact Gives.pure _

variable {declared : String → Prop} {variableOf : String → VariableId}
  (names : ∀ name, Decides current (Build.lookup name) (declared name) (variableOf name))

include names

/-- A criterion is resolved just if all names that it lists are declared. -/
theorem resolveCriterion (criterion : Criterion String) :
    Decides current criterion.resolve (∀ listed inverted, criterion = .list listed inverted →
      ∀ name ∈ listed, declared name) (criterion.map variableOf) := by
  cases criterion with
  | list listed inverted =>
    rw [Criterion.resolve]
    exact (reported _ ((mapM listed fun name _ => names name).map _)).imp (by simp)
  | naive | size | min | max | markov => exact (pure _).imp (by simp)

/-- So is an order, by all of its criteria. -/
theorem resolveOrder (order : VariableOrder String) :
    Decides current order.resolve (∀ listed inverted, .list listed inverted ∈ order.criteria →
      ∀ name ∈ listed, declared name) (order.map variableOf) := by
  have ties := (mapM order.ties fun criterion _ => resolveCriterion names criterion).map fun ties =>
    ({ first := order.first.map variableOf, ties } : VariableOrder VariableId)
  refine ((resolveCriterion names order.first).bind ties).imp ?_
  rw [VariableOrder.criteria]
  constructor
  · rintro ⟨first, others⟩ listed inverted inside
    rcases List.mem_cons.mp inside with isFirst | isTie
    · exact first listed inverted isFirst.symm
    · exact others _ isTie listed inverted rfl
  · intro all
    refine ⟨fun listed inverted isFirst => ?_, fun criterion isTie listed inverted same => ?_⟩
    · exact all listed inverted (isFirst ▸ List.mem_cons_self)
    · exact all listed inverted (same ▸ List.mem_cons_of_mem _ isTie)

/-- A row is resolved just if its weights are sound and not too many, and its guard is declared. -/
theorem resolveRow (matrix : MarkovMatrix String) (owner : String) (row : MarkovRow String)
    (index : Nat) : Decides current (matrix.resolveRow owner row index)
      (((∀ weight ∈ row.weights, isWeight weight) ∧
        (matrix.expansion = none → row.weights.length ≤ matrix.legend.length)) ∧
          ∀ name, row.guard = some name → declared name) (row.map variableOf) := by
  have guard := (optionMapM row.guard names).map fun guard =>
    ({ weights := row.weights, guard } : MarkovRow VariableId)
  rw [MarkovMatrix.resolveRow, ← MarkovMatrix.rowFlaw?_eq_none_iff index]
  dsimp only
  split
  · rename_i flaw isFlaw
    exact .inr ⟨by simp [isFlaw], _, (Gives.refuse _).bind_error⟩
  · rename_i noFlaw
    have none : matrix.rowFlaw? row index = none := Option.eq_none_iff_forall_ne_some.mpr noFlaw
    exact (reported _ guard).imp (by simp [none])

/-- A matrix is resolved just if it is well posed. -/
theorem resolveMatrix (matrix : MarkovMatrix String) (owner : String) :
    Decides current (matrix.resolve owner) (matrix.WellPosed declared) (matrix.map variableOf) := by
  have rows := (mapM_zipIdx matrix.rows fun row index =>
    resolveRow names matrix owner row index).map fun rows =>
      ({ legend := matrix.legend, rows, expansion := matrix.expansion } : MarkovMatrix VariableId)
  rw [MarkovMatrix.resolve, MarkovMatrix.wellPosed_iff]
  dsimp only
  refine (refused _ ?_).imp (and_congr_left fun _ => not_congr List.isEmpty_iff)
  split
  · rename_i weight expanded
    exact (refused _ rows).imp (and_congr_left fun _ => by simp [expanded])
  · rename_i unexpanded
    exact rows.imp (iff_and_self.mpr fun _ weight expanded => absurd expanded (unexpanded weight))

/-- So is a strategy, of which a list falls back to another one, but not to a matrix. -/
theorem resolveStrategy (owner : String) (strategy : ValueStrategy String) :
    Decides current (strategy.resolve owner) (strategy.WellPosed declared)
      (strategy.map variableOf) := by
  induction strategy with
  | list values fallback inductionHypothesis =>
    rw [ValueStrategy.resolve]
    refine (refused _ (inductionHypothesis.map _)).imp ⟨?_, fun posed => ⟨?_, ?_⟩⟩
    · rintro ⟨plain, posed⟩
      refine ⟨fun others next inside => ?_, by rintro _ ⟨⟩⟩
      rcases List.mem_cons.mp inside with isFirst | isLater
      · cases isFirst
        exact Bool.eq_false_iff.mpr plain
      · exact posed.fallbacks others next isLater
    · exact Bool.eq_false_iff.mp (posed.fallbacks values fallback List.mem_cons_self)
    · refine ⟨fun others next inside => posed.fallbacks others next (List.mem_cons_of_mem _ inside),
        ?_⟩
      rintro matrix rfl
      exact absurd (posed.fallbacks values _ List.mem_cons_self) (by simp [ValueStrategy.isMarkov])
  | markov matrix =>
    refine ((resolveMatrix names matrix owner).map _).imp
      ⟨fun posed => ⟨?_, ?_⟩, fun posed => posed.matrix matrix rfl⟩
    · intro values fallback inside
      cases List.mem_singleton.mp inside
    · rintro _ ⟨rfl⟩
      exact posed
  | min | max | mid | splitMin | splitMax | minMaxCycle =>
    refine (pure _).imp ⟨fun _ => ⟨fun values fallback inside => ?_, by rintro _ ⟨⟩⟩,
      fun _ => trivial⟩
    cases List.mem_singleton.mp inside

/-- Targets are resolved just if all of them are declared. -/
theorem resolveTargets (targets : Targets) :
    Decides current targets.resolve (∀ listed, targets = .named listed → ∀ name ∈ listed,
      declared name) (targets.variables variableOf) := by
  cases targets with
  | all => exact (pure _).imp (by simp)
  | named listed =>
    rw [Targets.resolve]
    exact (reported _ ((mapM listed fun name _ => names name).map _)).imp (by simp)

end Decides

end Build

end ConstraintSearch
