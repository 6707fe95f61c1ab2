import ConstraintSearch.Proofs.Model.Posing
import ConstraintSearch.Puzzle

/-!
# Boards of puzzles

The variables of a puzzle are declared first, under names that are all different. The model is then
a board on which the constraints pose the puzzle.
-/

namespace ConstraintSearch

open Build

namespace Model

/-- The model with just the listed variables. -/
def ofVariables (entries : List Variable) : Model :=
  { vars := entries.foldl Directory.push ∅ }

/-- One more variable is pushed behind the others. -/
theorem ofVariables_concat (entries : List Variable) (entry : Variable) :
    ofVariables (entries ++ [entry]) =
      { ofVariables entries with vars := (ofVariables entries).vars.push entry } := by
  simp only [ofVariables, List.foldl_append, List.foldl_cons, List.foldl_nil]

/-- The listed variables make up the table. -/
theorem table_ofVariables (entries : List Variable) :
    (ofVariables entries).vars.table = .ofList entries := by
  induction entries using List.reverseRecOn with
  | nil => rfl
  | append_singleton before entry inductionHypothesis =>
    rw [ofVariables_concat]
    change (ofVariables before).vars.table.push entry = _
    rw [inductionHypothesis, Table.push, Table.ofList, List.push_toArray, Table.ofList]

/-- There are as many variables as listed. -/
theorem size_ofVariables (entries : List Variable) :
    (ofVariables entries).vars.size = entries.length := by
  rw [Directory.size, table_ofVariables, Table.size, Table.ofList, List.size_toArray]

/-- Each variable has the position that it has in the list. -/
theorem get?_ofVariables (entries : List Variable) (variableId : VariableId) :
    (ofVariables entries).vars.get? variableId = entries[variableId]? := by
  rw [Directory.get?, table_ofVariables, Table.get?, Table.ofList, List.getElem?_toArray]

/-- A position beyond the list has the empty domain. -/
theorem domainOf_ofVariables (entries : List Variable) (variableId : VariableId) :
    (ofVariables entries).vars.domainOf variableId =
      (entries[variableId]?.map Variable.domain).getD ∅ := by
  rw [Directory.domainOf, get?_ofVariables]

/-- A name that was not listed is not found. -/
theorem keyOf?_ofVariables_eq_none {entries : List Variable} {name : String}
    (unlisted : name ∉ entries.map Variable.name) :
    (ofVariables entries).vars.keyOf? name = none := by
  cases found : (ofVariables entries).vars.keyOf? name with
  | none => rfl
  | some variableId =>
    obtain ⟨entry, isEntry, rfl⟩ := Directory.exists_get?_of_keyOf? found
    rw [get?_ofVariables] at isEntry
    exact absurd (List.mem_map_of_mem (List.mem_of_getElem? isEntry)) unlisted

/-- Variables with different names are found by them. -/
theorem keyOf?_ofVariables {entries : List Variable} (different : (entries.map Variable.name).Nodup)
    {variableId : VariableId} {entry : Variable} (isEntry : entries[variableId]? = some entry) :
    (ofVariables entries).vars.keyOf? entry.name = some variableId := by
  have distinct : (ofVariables entries).vars.Distinct := by
    intro first second left right isLeft isRight sameName
    rw [get?_ofVariables] at isLeft isRight
    obtain ⟨inside, -⟩ := List.getElem?_eq_some_iff.mp isLeft
    refine (List.getElem?_inj (by simpa using inside) different).mp ?_
    rw [List.getElem?_map, List.getElem?_map, isLeft, isRight, Option.map_some,
      Option.map_some, sameName]
  exact distinct.keyOf?_eq_some_iff.mpr ⟨entry,
    (get?_ofVariables entries variableId).trans isEntry, rfl⟩

/-- Variables alone make a board. -/
theorem poses_ofVariables (entries : List Variable) :
    (ofVariables entries).Poses (ofVariables entries) fun _ => True :=
  .refl ⟨nofun, nofun, nofun, nofun, rfl, nofun⟩ nofun rfl rfl

/-- The model with just the named variables, which share a domain and a strategy. -/
def board (names : List String) (domain : Domain) (strategy : Option (ValueStrategy String)) :
    Model :=
  .ofVariables (names.map fun name => { name, domain, strategy })

end Model

/-! ### Declaring the board -/

namespace Directory

/-- A new name is that of the last entry. -/
theorem keyOf?_push_of_new {vars : Variables} {entry : Variable}
    (new : vars.keyOf? entry.name = none) :
    (vars.push entry).keyOf? entry.name = some vars.size := by
  rw [keyOf?_eq_findKey?] at new ⊢
  change (vars.table.push entry).findKey? _ = _
  rw [Table.findKey?_push, new, if_pos (decide_eq_true rfl)]
  rfl

/-- Changing the last entry is the same as pushing it changed. -/
theorem modify_push (vars : Variables) (entry : Variable) (change : Variable → Variable)
    (keeps : ∀ other, (change other).name = other.name) :
    (vars.push entry).modify vars.size change keeps = vars.push (change entry) := by
  have sameTable : (vars.table.push entry).modify vars.table.size change =
      vars.table.push (change entry) := by
    refine congrArg Table.mk (Array.ext_getElem? fun place => ?_)
    simp only [Table.push, Table.size, Array.getElem?_modify, Array.getElem?_push]
    by_cases last : place = vars.table.entries.size
    · simp [last]
    · simp [last, Ne.symm last]
  have sameIndex : vars.index.insertIfNew entry.name vars.table.size =
      vars.index.insertIfNew (change entry).name vars.table.size := by
    rw [keeps]
  simp only [push, modify, mk.injEq]
  exact ⟨sameTable, sameIndex⟩

end Directory

namespace Build

variable {model : Model}

/-- A variable with a valid and new name is declared at the end. -/
theorem gives_addVariable (unprepared : model.network = none) {name : String}
    (valid : checkName name = .ok ()) (new : model.vars.keyOf? name = none) (domain : Domain) :
    Gives (addVariable name domain) model (.ok model.vars.size)
      { model with vars := model.vars.push { name, domain } } := by
  refine (Gives.check valid).bind (Gives.model.bind ?_)
  have unknown : model.find? name = none := by
    rw [Model.find?, Model.allVariables, unprepared]
    exact new
  dsimp only
  rw [if_neg (by simp [unknown])]
  exact (gives_invalidate_of_unprepared unprepared).bind (gives_push _)

/-- So is one with bounds that are in order and supported. -/
theorem gives_addRange (unprepared : model.network = none) {name : String}
    (valid : checkName name = .ok ()) (new : model.vars.keyOf? name = none) {lower upper : Int}
    (ordered : lower ≤ upper) (floor : valueFloor ≤ lower) (ceiling : upper ≤ valueCeiling) :
    Gives (addRange name lower upper) model (.ok model.vars.size)
      { model with vars := model.vars.push { name, domain := .range lower upper } } := by
  refine (Gives.check ?_).bind (gives_addVariable unprepared valid new _)
  have lowerPasses : checkValue lower = .ok lower := if_pos ⟨floor, Int.le_trans ordered ceiling⟩
  have upperPasses : checkValue upper = .ok upper := if_pos ⟨Int.le_trans floor ordered, ceiling⟩
  rw [checkRange, if_neg (Int.not_lt.mpr ordered), lowerPasses, upperPasses]
  rfl

/-- A declared variable is given its strategy. -/
theorem gives_setVariableStrategy (unprepared : model.network = none) {name : String}
    {variableId : VariableId} (found : model.vars.keyOf? name = some variableId)
    (strategy : ValueStrategy String) : Gives (setVariableStrategy name strategy) model (.ok ())
      { model with
        vars :=
      model.vars.modify variableId ({ · with strategy := some strategy }) fun _ => rfl } := by
  refine (gives_invalidate_of_unprepared unprepared).bind
    (Gives.bind (Gives.model.bind ?_) (Gives.update _))
  have known : model.find? name = some variableId := by
    rw [Model.find?, Model.allVariables, unprepared]
    exact found
  rw [known]
  exact Gives.pure variableId

/-- A board is declared by pushing its variables one after the other. -/
theorem gives_declareBoard {step : String → Build Unit} {names : List String} {domain : Domain}
    {strategy : Option (ValueStrategy String)} (different : names.Nodup)
    (declares : ∀ start : Model, ∀ name ∈ names, start.network = none →
      start.vars.keyOf? name = none → Gives (step name) start (.ok ())
    { start with vars := start.vars.push { name, domain, strategy } }) :
    Gives (names.forM step) {} (.ok ()) (.board names domain strategy) := by
  let entry (name : String) : Variable := { name, domain, strategy }
  have general : ∀ listed rest, listed ++ rest = names →
      Gives (rest.forM step) (.ofVariables (listed.map entry)) (.ok ())
      (.ofVariables (names.map entry)) := by
    intro listed rest parts
    induction rest generalizing listed with
    | nil =>
      rw [← parts, List.append_nil]
      exact Gives.pure ()
    | cons first rest inductionHypothesis =>
      have unlisted : first ∉ (listed.map entry).map Variable.name := by
        rw [List.map_map, show Variable.name ∘ entry = id from rfl, List.map_id]
        intro member
        exact (List.nodup_append.mp (parts.symm ▸ different)).2.2 first member first
          List.mem_cons_self rfl
      have member : first ∈ names := parts ▸ List.mem_append_right _ List.mem_cons_self
      have declared := declares _ first member rfl (Model.keyOf?_ofVariables_eq_none unlisted)
      rw [← Model.ofVariables_concat] at declared
      refine declared.bind ?_
      have others :=
        inductionHypothesis (listed ++ [first]) (by rw [List.append_assoc, ← parts]; rfl)
      rwa [List.map_append] at others
  exact general [] names rfl

end Build

/-- A name that starts with a letter is no number. -/
theorem checkName_eq_ok {name : String} {first : Char} {rest : List Char}
    (isFirst : name.toList = first :: rest) (notDash : first ≠ '-')
    (notDigit : first.isDigit = false) : checkName name = .ok () := by
  have notEmpty : name.isEmpty = false := by
    rw [Bool.eq_false_iff, ne_eq, String.isEmpty_iff]
    rintro rfl
    cases isFirst
  have notNumeric : isNumericName name = false := by
    rw [isNumericName, isFirst]
    split
    · rename_i isDash
      cases isDash
      exact absurd rfl notDash
    · simp [notDigit]
  rw [checkName, notEmpty, notNumeric]
  rfl

/-- Operands that are named stand for the variables with the names. -/
theorem mapM_referent?_named {model : Model} {ι : Type} {entries : List ι} {name : ι → String}
    {place : ι → VariableId} (found : ∀ entry ∈ entries,
      model.vars.keyOf? (name entry) = some (place entry)) :
    (entries.map fun entry => Operand.named (name entry)).mapM (Operand.referent? model) = some
    (entries.map place) := by
  refine mapM_of_forall₂ (List.forall₂_map_left_iff.mpr (List.forall₂_map_right_iff.mpr ?_))
  exact List.forall₂_same.mpr found

/-! ### What a puzzle comes to -/

namespace Model

/-- The named variables are the first ones, their values satisfy the model together with values of
the others exactly under the condition, and there is no choice for the others. -/
structure Captures (model : Model) (names : List String) (condition : (Nat → Int) → Prop) :
    Prop where
  find?_eq : ∀ {index : Nat} {name : String}, names[index]? = some name →
    model.find? name = some index
  exists_iff : ∀ cells : Nat → Int,
    (∃ assignment, (∀ index < names.length, assignment index = cells index) ∧
      model.Satisfied assignment) ↔ condition cells
  unique : ∀ {first second}, model.Satisfied first → model.Satisfied second →
    (∀ index < names.length, first index = second index) → ∀ variableId < model.vars.size,
      first variableId = second variableId

/-- Every variable with a Markov strategy has a value whose weight is positive. Guards are told by
their names. -/
def Weighed (model : Model) (assignment : VariableId → Int) : Prop :=
  ∀ variableId matrix, (model.vars.get? variableId).bind Variable.strategy = some (.markov matrix) →
    0.0 < matrix.weightOf (assignment variableId) (.value (assignment variableId)) fun guard =>
      (model.find? guard).any fun guardId => assignment guardId == 1

variable {names : List String} {domain : Domain} {strategy : Option (ValueStrategy String)}

/-- A board has a variable for each name. -/
theorem size_board : (board names domain strategy).vars.size = names.length := by
  rw [board, size_ofVariables, List.length_map]

/-- It admits the values of its common domain. -/
theorem admits_board_iff {cells : VariableId → Int} :
    (board names domain strategy).vars.Admits cells ↔
      ∀ index < names.length, cells index ∈ domain := by
  rw [Directory.Admits, size_board]
  refine forall₂_congr fun index inside => ?_
  rw [board, domainOf_ofVariables, List.getElem?_map, List.getElem?_eq_getElem inside]
  rfl

/-- Only the variables of the board have its strategy. -/
theorem lt_length_of_strategy_board {variableId : VariableId} {own : ValueStrategy String}
    (isStrategy : ((board names domain strategy).vars.get? variableId).bind
      Variable.strategy = some own) :
    variableId < names.length ∧ strategy = some own := by
  rw [board, get?_ofVariables, List.getElem?_map] at isStrategy
  obtain ⟨entry, isEntry, isOwn⟩ := Option.bind_eq_some_iff.mp isStrategy
  obtain ⟨name, isName, rfl⟩ := Option.map_eq_some_iff.mp isEntry
  exact ⟨(List.getElem?_eq_some_iff.mp isName).1, isOwn⟩

/-- Each name is that of the variable at its place, if all names are different. -/
theorem keyOf?_board (different : names.Nodup) {index : Nat} {name : String}
    (isName : names[index]? = some name) :
    (board names domain strategy).vars.keyOf? name = some index := by
  have isEntry : (names.map fun name => ({ name, domain, strategy } : Variable))[index]? =
      some { name, domain, strategy } := by
    rw [List.getElem?_map, isName]
    rfl
  exact keyOf?_ofVariables (by simpa [Function.comp_def] using different) isEntry

/-- Keeping the variables of a board apart requires that their values differ. -/
theorem requires_distinct (different : names.Nodup) : Requires (board names domain strategy)
    (addComparison .distinct (names.map .named)) fun cells =>
      ((List.range names.length).map cells).Nodup := by
  intro model requirement poses
  have found : (names.map .named).mapM (Operand.referent? model) =
      some (List.range names.length) := by
    refine mapM_of_forall₂ (List.forall₂_map_left_iff.mpr
      (List.forall₂_iff_get.mpr ⟨List.length_range.symm, ?_⟩))
    intro index inside listed
    rw [List.get_eq_getElem, List.get_eq_getElem, List.getElem_range]
    exact poses.retains.keyOf?_of_some (keyOf?_board different (List.getElem?_eq_getElem inside))
  have accepts : ∀ count, Operator.distinct.arity.accepts count :=
    fun count => decide_eq_true (Nat.zero_le count)
  refine succeeds_addComparison poses rfl (accepts _) found (fun _ _ => Iff.rfl)
    fun first second same => ?_
  rw [List.map_congr_left fun index inside =>
    same index (size_board.symm ▸ List.mem_range.mp inside)]

/-- What is posed on a board captures the cells, as the board does not restrict them further. -/
theorem Poses.captures {model : Model} {requirement : (VariableId → Int) → Prop}
    (different : names.Nodup) (poses : (board names domain strategy).Poses model requirement) :
    model.Captures names fun cells =>
      (∀ index < names.length, cells index ∈ domain) ∧ requirement cells where
  find?_eq isName := by
    rw [find?, allVariables, poses.unprepared]
    exact poses.retains.keyOf?_of_some (keyOf?_board different isName)
  exists_iff cells := by
    rw [← @admits_board_iff names domain strategy, ← poses.exists_iff, size_board]
  unique firstSatisfied secondSatisfied same :=
    poses.unique firstSatisfied secondSatisfied (size_board.symm ▸ same)

/-- The condition on the cells may be said in other words. -/
theorem Captures.congr {model : Model} {condition other : (Nat → Int) → Prop}
    (captures : model.Captures names condition) (same : ∀ cells, condition cells ↔ other cells) :
    model.Captures names other where
  find?_eq := captures.find?_eq
  exists_iff cells := (captures.exists_iff cells).trans (same cells)
  unique := captures.unique

end Model

namespace Puzzle

variable {puzzle : Puzzle} {size : Nat} {done : List String → Model → Prop} {journal : Journal}

/-- A puzzle that is not refused has a model. -/
theorem exists_model_of_succeeds (succeeds : Succeeds (puzzle.build size) {} done)
    (journal : Journal) :
    ∃ result, (puzzle.model size journal).1 = .ok result ∧ done result.output result.model := by
  have led := succeeds { journal } rfl
  rw [Puzzle.model]
  rcases ran : (puzzle.build size).run { journal } with ⟨refusal | output, workspace⟩ <;>
    rw [ran] at led
  · exact led.elim
  · exact ⟨_, rfl, led⟩

/-- A puzzle that is built is what its declarations lead to from the empty model. -/
theorem done_of_model {refused : Model → Prop} {result : PuzzleModel}
    (leads : Leads (puzzle.build size) {} done refused)
    (isModel : (puzzle.model size journal).1 = .ok result) : done result.output result.model := by
  have led := leads { journal } rfl
  rw [Puzzle.model] at isModel
  rcases ran : (puzzle.build size).run { journal } with ⟨refusal | output, workspace⟩ <;>
    rw [ran] at led isModel <;> cases isModel
  exact led

end Puzzle

end ConstraintSearch
