import ConstraintSearch.Proofs.Model.Opening

/-!
# Preparing is undone by modifications

The variables of a network are the declared ones, behind which those stand that the lowering has
added. Cutting them off again gives back the declared variables with their names
(`Directory.truncate`), however many were added. So a modification starts from the model as it was
before it was prepared, and a model that declares the same problem again is given the same network.
-/

namespace ConstraintSearch

open Build

/-! ### Directories that are cut off -/

namespace Directory

variable {α κ : Type} [Ord κ] [DecidableEq κ] {label : α → κ} {directory other : Directory α label}

/-- Directories with the same entries find the same ones. -/
theorem keyOf?_congr (same : directory.table = other.table) (sought : κ) :
    directory.keyOf? sought = other.keyOf? sought := by
  rw [keyOf?_eq_findKey?, keyOf?_eq_findKey?, same]

/-- The index of entries with the labels, which were entered one after the other. -/
def indexOf (labels : List κ) : Std.TreeMap κ Nat :=
  labels.zipIdx.foldl (fun index entry => index.insertIfNew entry.1 entry.2) ∅

/-- The index is the one of the labels, as if no entry had ever been changed. -/
def Indexed (directory : Directory α label) : Prop :=
  directory.index = indexOf (directory.toList.map label)

/-- The table of such a directory determines it. -/
theorem Indexed.eq_of_table_eq (indexed : directory.Indexed) (indexedToo : other.Indexed)
    (same : directory.table = other.table) : directory = other := by
  obtain ⟨table, index, _⟩ := directory
  obtain ⟨otherTable, otherIndex, _⟩ := other
  cases same
  obtain rfl : index = otherIndex := Eq.trans indexed (Eq.symm indexedToo)
  rfl

/-- Changing an entry without its label leaves the index right. -/
theorem Indexed.modify (indexed : directory.Indexed) (key : Nat) (change : α → α)
    (keeps : ∀ entry, label (change entry) = label entry) :
    (directory.modify key change keeps).Indexed := by
  have sameLabels : (directory.modify key change keeps).toList.map label =
      directory.toList.map label := by
    apply List.ext_getElem?
    intro place
    simp only [List.getElem?_map, toList, Table.toList, Array.getElem?_toList]
    rw [show (directory.modify key change keeps).table.entries[place]? = _
      from Table.get?_modify directory.table key place change]
    split
    · subst_vars
      change Option.map label (Option.map change directory.table.entries[_]?) = _
      cases directory.table.entries[place]? <;> simp [keeps]
    · rfl
  rw [Indexed, sameLabels]
  exact indexed

variable [Std.TransOrd κ] [Std.LawfulEqOrd κ]

omit [Std.LawfulEqOrd κ] in
/-- The empty index is right for the empty table. -/
theorem indexed_empty : (∅ : Directory α label).Indexed :=
  rfl

/-- A pushed entry is entered into the index, unless an earlier one has its label. -/
theorem Indexed.push (indexed : directory.Indexed) (entry : α) :
    (directory.push entry).Indexed := by
  have appended : (directory.push entry).toList.map label = directory.toList.map label ++
      [label entry] := by
    rw [toList_push, List.map_append]
    rfl
  have next : (directory.toList.map label).length = directory.table.size := by
    rw [List.length_map]
    rfl
  rw [Indexed, appended, indexOf, List.zipIdx_append, List.foldl_append, ← indexOf, ← indexed, next]
  simp [Directory.push]

/-- The directory of the entries under the first keys. The labels of the others are forgotten. -/
def truncate (directory : Directory α label) (count : Nat) : Directory α label where
  table := ⟨directory.table.entries.take count⟩
  index := directory.index.filter fun _ key => key < count
  index_eq sought := by
    rw [Std.TreeMap.getElem?_filter', directory.index_eq, Table.findKey?, Table.findKey?,
      Array.findIdx?_take]
    cases directory.table.entries.findIdx? _ <;> rfl

/-- Entries beyond the count are gone. -/
theorem get?_truncate (directory : Directory α label) (count key : Nat) :
    (directory.truncate count).get? key = if key < count then directory.get? key else none := by
  change (directory.table.entries.take count)[key]? = if key < count
    then directory.table.entries[key]? else none
  rw [Array.take_eq_extract, Array.getElem?_extract, Nat.zero_add]
  grind

end Directory

/-- Without the variables that the lowering has added, a network has the variables of its model. -/
theorem Network.BuiltFor.table_truncate {network : Network} {model : Model}
    (built : network.BuiltFor model) :
    (network.vars.truncate network.declared).table = model.vars.table := by
  have sameEntries : ∀ variableId, (network.vars.truncate network.declared).get? variableId =
      model.vars.get? variableId := by
    intro variableId
    rw [Directory.get?_truncate, built.declared_eq]
    split
    · rename_i declared
      exact built.get?_eq declared
    · rename_i beyond
      exact ((model.vars.table.get?_eq_none_iff variableId).mpr (Nat.le_of_not_lt beyond)).symm
  exact congrArg Table.mk (Array.ext_getElem? sameEntries)

/-! ### What a modification starts from -/

/-- The index of the declared variables is that of their names. -/
theorem Model.stable_indexed : Stable fun model => model.vars.Indexed where
  opened indexed := indexed
  push indexed entry := indexed.push entry
  modify indexed key change keeps := indexed.modify key change keeps
  literals indexed _ := indexed
  constrain indexed _ := indexed
  set indexed _ _ _ := indexed

/-- A modification either is refused and leaves the model as it is, or comes to the same without the
network and leaves none. -/
theorem Request.unchanged_or_opened {request : Request} {start : Model} (sound : start.Sound)
    (modifies : request ≠ .prepare) : ∃ outcome after, Gives request.answer start outcome after ∧
      (after = start ∨ after.network = none ∧ Gives request.answer start.opened outcome after) := by
  by_cases collides : request.Collides start
  · obtain ⟨name, declares, known, unknown⟩ := collides
    exact ⟨_, start, (gives_of_collides sound declares known unknown).1, .inl rfl⟩
  · rcases opens_answer sound modifies collides
      with ⟨refusal, gives, _⟩ | ⟨outcome, after, gives, givesToo, unprepared⟩
    · exact ⟨_, start, gives, .inl rfl⟩
    · exact ⟨outcome, after, gives, .inr ⟨unprepared, givesToo⟩⟩

/-- Preparing changes nothing, or puts a network on a model without one. -/
theorem Build.gives_prepare (start : Model) : (∃ outcome, Gives prepare start outcome start) ∨
    start.network = none ∧ ∃ network,
      Gives prepare start (.ok network) { start with network := some network } := by
  cases prepared : start.network with
  | some network => exact .inl ⟨_, gives_prepare_of_prepared prepared⟩
  | none =>
    rcases coincides_prepare (.refl start) rfl prepared prepared
      with ⟨refusal, gives, _⟩ | ⟨network, gives, _⟩
    · exact .inl ⟨_, gives⟩
    · exact .inr ⟨rfl, network, gives⟩

namespace Workspace.Reachable

variable {workspace : Workspace}

/-- The model after preparing is the one that it gives. -/
theorem model_after_prepare {outcome : Except Refusal Network} {after : Model}
    (gives : Gives prepare workspace.model outcome after) :
    (Request.prepare.after workspace).model = after :=
  gives.discard workspace rfl

/-- The index of every reachable model is right. -/
theorem indexed (reachable : workspace.Reachable) : workspace.model.vars.Indexed := by
  induction reachable with
  | empty journal => exact Directory.indexed_empty
  | @request workspace _ request inductionHypothesis =>
    by_cases modifies : request = .prepare
    · subst modifies
      rcases gives_prepare workspace.model with ⟨outcome, gives⟩ | ⟨_, network, gives⟩
      · rwa [model_after_prepare gives]
      · rwa [model_after_prepare gives]
    · obtain ⟨outcome, after, gives, indexed⟩ :=
        request.maintains_answer modifies Model.stable_indexed workspace.model inductionHypothesis
      rwa [Request.after_eq, (gives workspace rfl).2]

/-- Without its network, the model would be given the same network again. -/
theorem gives_prepare_opened (reachable : workspace.Reachable) {network : Network}
    (prepared : workspace.model.network = some network) :
    Gives prepare workspace.model.opened (.ok network) workspace.model := by
  induction reachable generalizing network with
  | empty journal => cases prepared
  | @request workspace reachable request inductionHypothesis =>
    by_cases modifies : request = .prepare
    · subst modifies
      rcases gives_prepare workspace.model with ⟨outcome, gives⟩ | ⟨unprepared, other, gives⟩
      · rw [model_after_prepare gives] at prepared ⊢
        exact inductionHypothesis prepared
      · rw [model_after_prepare gives] at prepared ⊢
        cases prepared
        rwa [show Model.opened { workspace.model with network := some network } = workspace.model
          from Model.opened_of_unprepared unprepared]
    · obtain ⟨outcome, after, gives, unchanged | ⟨unprepared, _⟩⟩ :=
        request.unchanged_or_opened reachable.sound modifies
      · rw [Request.after_eq, (gives workspace rfl).2, unchanged] at prepared ⊢
        exact inductionHypothesis prepared
      · rw [Request.after_eq, (gives workspace rfl).2, unprepared] at prepared
        cases prepared

/-- Models with the same problem have the same network. -/
theorem run_prepare_of_sameProblem (reachable : workspace.Reachable) {again : Workspace}
    (reachableAgain : again.Reachable) (same : workspace.model.SameProblem again.model)
    {network : Network} (unprepared : workspace.model.network = none)
    (prepares : (prepare.run workspace).1 = .ok network) : (prepare.run again).1 = .ok network := by
  have sameVars := reachable.indexed.eq_of_table_eq reachableAgain.indexed same.vars_eq
  have sameOpened : workspace.model.SameProblem again.model.opened :=
    ⟨same.1, same.2, same.3, same.4, same.5⟩
  have given : Gives prepare again.model.opened (.ok network)
      { again.model.opened with network := some network } := by
    rcases coincides_prepare sameOpened sameVars unprepared rfl
      with ⟨refusal, gives, _⟩ | ⟨other, gives, givesAgain⟩
    · cases (gives workspace rfl).1.symm.trans prepares
    · cases (gives workspace rfl).1.symm.trans prepares
      exact givesAgain
  cases prepared : again.model.network with
  | none =>
    exact (given again (Model.opened_of_unprepared prepared).symm).1
  | some other =>
    obtain ⟨sameOutcome, _⟩ := given { model := again.model.opened } rfl
    cases ((reachableAgain.gives_prepare_opened prepared) { model := again.model.opened }
      rfl).1.symm.trans sameOutcome
    exact (gives_prepare_of_prepared prepared again rfl).1

/-- Preparing is undone by every modification. Cut off at the declared variables, those of the
network are the ones from before. The modification starts from the model as it was before it was
prepared, unless it is refused at once. As long as the problem is the same, preparing gives the same
network, with the same added variables, propagators and targets. -/
theorem undoes_prepare (reachable : workspace.Reachable) {network : Network}
    (unprepared : workspace.model.network = none)
    (prepares : (prepare.run workspace).1 = .ok network) :
    ((network.vars.truncate network.declared).table = workspace.model.vars.table ∧
      ∀ name, (network.vars.truncate network.declared).keyOf? name =
        workspace.model.vars.keyOf? name) ∧
    (invalidate.run (Request.prepare.after workspace)).2.model = workspace.model ∧
    (∀ request : Request, request ≠ .prepare →
      (request.after (Request.prepare.after workspace)).model =
        (Request.prepare.after workspace).model ∨
      (request.after (Request.prepare.after workspace)).model = (request.after workspace).model) ∧
    ∀ again : Workspace, again.Reachable → workspace.model.SameProblem again.model →
      (prepare.run again).1 = .ok network := by
  have sameTable := (reachable.builtFor_of_prepare prepares).table_truncate
  have prepared : (Request.prepare.after workspace).model =
      { workspace.model with network := some network } := by
    rcases coincides_prepare (.refl workspace.model) rfl unprepared unprepared
      with ⟨refusal, gives, _⟩ | ⟨other, gives, _⟩
    · cases (gives workspace rfl).1.symm.trans prepares
    · cases (gives workspace rfl).1.symm.trans prepares
      exact model_after_prepare gives
  have opened : (Request.prepare.after workspace).model.opened = workspace.model := by
    rw [prepared]
    exact Model.opened_of_unprepared unprepared
  refine ⟨⟨sameTable, Directory.keyOf?_congr sameTable⟩, ?_, fun request modifies => ?_,
    fun again reachableAgain same => ?_⟩
  · rw [(gives_invalidate _ rfl).2, opened]
  · obtain ⟨outcome, after, gives, unchanged | ⟨_, givesToo⟩⟩ :=
      request.unchanged_or_opened (reachable.request .prepare).sound modifies
    · left
      rw [Request.after_eq, (gives _ rfl).2, unchanged]
    · right
      rw [request.after_eq (Request.prepare.after workspace), request.after_eq workspace,
        (gives _ rfl).2, (givesToo workspace opened.symm).2]
  · exact reachable.run_prepare_of_sameProblem reachableAgain same unprepared prepares

end Workspace.Reachable

/-- The inner sum of the network is cut off, and preparing after the order has been set once more
gives it again. -/
theorem Workspace.undoes_prepare_sumOfThree :
    ∃ network, (prepare.run sumOfThree).1 = .ok network ∧ network.vars.keyOf? "__4" = some 4 ∧
      (network.vars.truncate network.declared).keyOf? "__4" = none ∧
      (prepare.run ((Request.orderBy sumOfThree.model.order).after
        (Request.prepare.after sumOfThree))).1 = .ok network := by
  have summed : (prepare.run sumOfThree).1.toOption.map (fun network => network.vars.keyOf? "__4") =
      some (some 4) := by
    decide +kernel
  have unprepared : sumOfThree.model.network = none :=
    Option.isNone_iff_eq_none.mp (by decide +kernel)
  have unknown : sumOfThree.model.vars.keyOf? "__4" = none := by decide +kernel
  obtain ⟨network, isNetwork, inner⟩ := Option.map_eq_some_iff.mp summed
  have prepares : (prepare.run sumOfThree).1 = .ok network := by
    revert isNetwork
    cases (prepare.run sumOfThree).1 <;> simp [Except.toOption]
  obtain ⟨⟨_, sameNames⟩, restores, _, renews⟩ :=
    reachable_sumOfThree.undoes_prepare unprepared prepares
  refine ⟨network, prepares, inner, (sameNames _).trans unknown,
    renews _ ((reachable_sumOfThree.request _).request _) ?_⟩
  have set : ((Request.orderBy sumOfThree.model.order).after
      (Request.prepare.after sumOfThree)).model =
        { (Request.prepare.after sumOfThree).model.opened with order := sumOfThree.model.order } :=
    (gives_invalidate.bind (Gives.update _) _ rfl).2
  rw [(gives_invalidate _ rfl).2] at restores
  rw [set, restores]
  exact .refl _

end ConstraintSearch
