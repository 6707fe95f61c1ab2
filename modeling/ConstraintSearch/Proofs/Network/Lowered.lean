import ConstraintSearch.Proofs.Model.Naming
import ConstraintSearch.Proofs.Network.Consistent

/-!
# What lowering adds

Lowering a constraint adds propagators and variables and leaves those that were made before. The
added propagators read former and added variables only, so what they keep is still kept when more
variables follow. An added variable has a generated name and every value, and an added operation
never stands alone: another added propagator reads its result too.
-/

namespace ConstraintSearch

/-- No operation is the only propagator of the list that reads its result. -/
def Accompanied (propagators : List Propagator) : Prop :=
  ∀ index operation left right result, propagators[index]? =
    some (.ring operation left right result) → ∃ (other : Nat) (companion : Propagator),
      other ≠ index ∧ propagators[other]? = some companion ∧ result ∈ companion.scope

namespace Accompanied

/-- Two lists without lone operations have none together. -/
theorem append {first second : List Propagator} (ofFirst : Accompanied first)
    (ofSecond : Accompanied second) : Accompanied (first ++ second) := by
  intro index operation left right result found
  by_cases early : index < first.length
  · rw [List.getElem?_append_left early] at found
    obtain ⟨other, companion, different, foundOther, reads⟩ := ofFirst _ _ _ _ _ found
    have otherEarly : other < first.length := (List.getElem?_eq_some_iff.mp foundOther).1
    exact ⟨other, companion, different, by rwa [List.getElem?_append_left otherEarly], reads⟩
  · have late : first.length ≤ index := Nat.le_of_not_lt early
    rw [List.getElem?_append_right late] at found
    obtain ⟨other, companion, different, foundOther, reads⟩ := ofSecond _ _ _ _ _ found
    refine ⟨first.length + other, companion, by omega, ?_, reads⟩
    rwa [List.getElem?_append_right (Nat.le_add_right _ _), Nat.add_sub_cancel_left]

/-- A list without operations has none that stands alone. -/
theorem of_forall_not_ring {propagators : List Propagator}
    (none : ∀ propagator ∈ propagators, propagator.isRing = false) : Accompanied propagators := by
  intro index operation left right result found
  exact absurd (none _ (List.mem_of_getElem? found)) (by simp [Propagator.isRing])

/-- Each of the propagators of an operation is accompanied by the other two. -/
theorem ofRing (operation : RingOperation) (left right result : VariableId) :
    Accompanied (Propagator.ofRing operation left right result) := by
  intro index otherOperation otherLeft otherRight otherResult found
  have reads : otherResult ∈
      (Propagator.ring otherOperation otherLeft otherRight otherResult).scope := by simp
  have inside := List.mem_of_getElem? found
  -- All three propagators read the same variables, and there is one at another place.
  have readsAll : ∀ companion ∈ Propagator.ofRing operation left right result,
      otherResult ∈ companion.scope :=
    fun companion companionInside =>
      (Propagator.mem_scope_ofRing companionInside).mpr
        ((Propagator.mem_scope_ofRing inside).mp reads)
  by_cases first : index = 0
  · refine ⟨1, .ring operation.inverse result right left, by omega, rfl, readsAll _ ?_⟩
    simp [Propagator.ofRing]
  · refine ⟨0, .ring operation left right result, Ne.symm first, rfl, readsAll _ ?_⟩
    simp [Propagator.ofRing]

end Accompanied

/-! ### Growth -/

/-- What a step of the lowering adds to what was made before: propagators behind the former ones,
and variables, behind the former ones, with generated names and every value. -/
structure Lowering.Grows (before after : Lowering) (added : List Propagator) : Prop where
  propagators_eq : after.propagators.toList = before.propagators.toList ++ added
  size_le : before.vars.size ≤ after.vars.size
  get?_eq : ∀ {variableId}, variableId < before.vars.size →
    after.vars.get? variableId = before.vars.get? variableId
  generated : ∀ {variableId}, before.vars.size ≤ variableId → variableId < after.vars.size →
    ∃ attempt, after.vars.get? variableId = some ⟨generatedName variableId attempt, .full, none⟩
  distinct : before.vars.Distinct → after.vars.Distinct
  scope_lt : ∀ propagator ∈ added, ∀ variableId ∈ propagator.scope, variableId < after.vars.size
  unweighted : ∀ propagator ∈ added, propagator.isMarkov = false
  accompanied : Accompanied added

/-- The second family has the same domains for the former variables, and values for those that were
added. -/
structure Lowering.Prolongs (before after : Lowering) (former family : Family) : Prop where
  agree : ∀ variableId < before.vars.size, family variableId = former variableId
  nonempty : ∀ variableId, before.vars.size ≤ variableId → variableId < after.vars.size →
    (family variableId).Nonempty

namespace Lowering

variable {before middle after : Lowering}

namespace Grows

/-- An added variable can take every value. -/
theorem domainOf_full {added : List Propagator} (grows : before.Grows after added)
    {variableId : VariableId} (late : before.vars.size ≤ variableId)
    (inside : variableId < after.vars.size) : after.vars.domainOf variableId = .full := by
  obtain ⟨attempt, found⟩ := grows.generated late inside
  rw [Directory.domainOf, found]
  rfl

/-- Nothing is added where nothing happens. -/
theorem refl (lowering : Lowering) : lowering.Grows lowering [] where
  propagators_eq := (List.append_nil _).symm
  size_le := Nat.le_refl _
  get?_eq _ := rfl
  generated late inside := absurd inside (Nat.not_lt.mpr late)
  distinct := id
  scope_lt := by simp
  unweighted := by simp
  accompanied := .of_forall_not_ring (by simp)

/-- What two steps in a row add is added in that order. -/
theorem trans {first second : List Propagator} (lower : before.Grows middle first)
    (upper : middle.Grows after second) : before.Grows after (first ++ second) where
  propagators_eq := by rw [upper.propagators_eq, lower.propagators_eq, List.append_assoc]
  size_le := Nat.le_trans lower.size_le upper.size_le
  get?_eq inside :=
    (upper.get?_eq (Nat.lt_of_lt_of_le inside lower.size_le)).trans (lower.get?_eq inside)
  generated {variableId} late inside := by
    by_cases early : variableId < middle.vars.size
    · obtain ⟨attempt, found⟩ := lower.generated late early
      exact ⟨attempt, (upper.get?_eq early).trans found⟩
    · exact upper.generated (Nat.le_of_not_lt early) inside
  distinct := upper.distinct ∘ lower.distinct
  scope_lt propagator inside variableId reads := by
    rcases List.mem_append.mp inside with inFirst | inSecond
    · exact Nat.lt_of_lt_of_le (lower.scope_lt propagator inFirst variableId reads) upper.size_le
    · exact upper.scope_lt propagator inSecond variableId reads
  unweighted propagator inside :=
    (List.mem_append.mp inside).elim (lower.unweighted propagator) (upper.unweighted propagator)
  accompanied := lower.accompanied.append upper.accompanied

end Grows

/-- A family prolongs itself where no variable is added. -/
theorem Prolongs.refl (lowering : Lowering) (family : Family) :
    lowering.Prolongs lowering family family where
  agree _ _ := rfl
  nonempty _ late inside := absurd inside (Nat.not_lt.mpr late)

/-- A family is prolonged from step to step. -/
theorem Prolongs.trans {first second third : Family} {added : List Propagator}
    (grows : before.Grows middle added) (lower : before.Prolongs middle first second)
    (upper : middle.Prolongs after second third) : before.Prolongs after first third where
  agree variableId inside :=
    (upper.agree variableId (Nat.lt_of_lt_of_le inside grows.size_le)).trans
      (lower.agree variableId inside)
  nonempty variableId late inside := by
    by_cases early : variableId < middle.vars.size
    · rw [upper.agree variableId early]
      exact lower.nonempty variableId late early
    · exact upper.nonempty variableId (Nat.le_of_not_lt early) inside

/-- Propagators keep a family that was extended to variables which they do not read. -/
theorem Grows.keeps_of_prolongs {added : List Propagator} (grows : before.Grows middle added)
    {former family : Family} (prolongs : middle.Prolongs after former family)
    (keeps : ∀ propagator ∈ added, propagator.Keeps former) :
    ∀ propagator ∈ added, propagator.Keeps family := fun propagator inside =>
      (keeps propagator inside).congr fun variableId reads =>
        (prolongs.agree variableId (grows.scope_lt propagator inside variableId reads)).symm

/-! ### Single steps -/

/-- A pushed entry comes last. -/
theorem toList_push {α : Type} (table : Table α) (entry : α) :
    (table.push entry).toList = table.toList ++ [entry] :=
  Array.toList_push

/-- A table has as many entries as its list. -/
theorem length_toList {α : Type} (table : Table α) : table.toList.length = table.size :=
  Array.length_toList

/-- An operation is added as its propagators. -/
theorem toList_addRing (lowering : Lowering) (operation : RingOperation)
    (left right result : VariableId) :
    (lowering.addRing operation left right result).propagators.toList =
      lowering.propagators.toList ++ Propagator.ofRing operation left right result := by
  simp only [addRing, add, toList_push, List.append_assoc, List.cons_append, List.nil_append,
    Propagator.ofRing]

/-- Propagators that are added one after the other are added in that order, and no variable is. -/
theorem foldl_add (propagators : List Propagator) (lowering : Lowering) :
    (propagators.foldl add lowering).vars = lowering.vars ∧
      (propagators.foldl add lowering).propagators.toList =
        lowering.propagators.toList ++ propagators := by
  induction propagators generalizing lowering with
  | nil => simp
  | cons head rest inductionHypothesis =>
    obtain ⟨vars, propagators⟩ := inductionHypothesis (lowering.add head)
    refine ⟨vars, propagators.trans ?_⟩
    rw [add, toList_push, List.append_assoc]
    rfl

/-- Adding a propagator that is no operation adds just that. -/
theorem grows_add {lowering : Lowering} {propagator : Propagator}
    (notRing : propagator.isRing = false) (unweighted : propagator.isMarkov = false)
    (inside : ∀ variableId ∈ propagator.scope, variableId < lowering.vars.size) :
    lowering.Grows (lowering.add propagator) [propagator] where
  propagators_eq := toList_push _ _
  size_le := Nat.le_refl _
  get?_eq _ := rfl
  generated late inside := absurd inside (Nat.not_lt.mpr late)
  distinct := id
  scope_lt other member := by
    rw [List.mem_singleton.mp member]
    exact inside
  unweighted := by simpa using unweighted
  accompanied := .of_forall_not_ring (by simpa using notRing)

/-- Adding an operation over variables of the lowering adds its propagators. -/
theorem grows_addRing {lowering : Lowering} {operation : RingOperation}
    {left right result : VariableId} (leftInside : left < lowering.vars.size)
    (rightInside : right < lowering.vars.size) (resultInside : result < lowering.vars.size) :
    lowering.Grows (lowering.addRing operation left right result)
      (Propagator.ofRing operation left right result) where
  propagators_eq := toList_addRing ..
  size_le := Nat.le_refl _
  get?_eq _ := rfl
  generated late inside := absurd inside (Nat.not_lt.mpr late)
  distinct := id
  scope_lt propagator inside variableId reads := by
    rcases (Propagator.mem_scope_ofRing inside).mp reads with rfl | rfl | rfl
    · exact leftInside
    · exact rightInside
    · exact resultInside
  unweighted propagator inside := by
    simp only [Propagator.ofRing, List.mem_cons, List.not_mem_nil, or_false] at inside
    rcases inside with rfl | rfl | rfl <;> rfl
  accompanied := .ofRing operation left right result

/-- One variable is added. -/
theorem size_addVariable (lowering : Lowering) :
    lowering.addVariable.2.vars.size = lowering.vars.size + 1 :=
  Table.size_push ..

/-- It comes last, can take every value and has a name that is new. -/
theorem get?_addVariable (lowering : Lowering) (variableId : VariableId) :
    lowering.addVariable.2.vars.get? variableId =
      if variableId = lowering.vars.size then some ⟨unusedName lowering.vars, .full, none⟩
      else lowering.vars.get? variableId :=
  Table.get?_push ..

/-- Adding a variable adds no propagator. -/
theorem grows_addVariable (lowering : Lowering) : lowering.Grows lowering.addVariable.2 [] where
  propagators_eq := (List.append_nil _).symm
  size_le := by
    rw [size_addVariable]
    exact Nat.le_succ _
  get?_eq inside := by
    rw [get?_addVariable, if_neg (Nat.ne_of_lt inside)]
  generated {variableId} late inside := by
    rw [size_addVariable] at inside
    obtain rfl : variableId = lowering.vars.size := Nat.le_antisymm (Nat.le_of_lt_succ inside) late
    obtain ⟨attempt, named⟩ := exists_unusedName_eq lowering.vars
    exact ⟨attempt, by rw [get?_addVariable, if_pos rfl, named]⟩
  distinct distinct := distinct.pushAnonymous .full
  scope_lt := by simp
  unweighted := by simp
  accompanied := .of_forall_not_ring (by simp)

/-- A relation adds the propagator of its comparison. -/
theorem addRelation_eq_add (lowering : Lowering) (comparison : Comparison)
    (left right : VariableId) :
    lowering.addRelation comparison left right =
      lowering.add (.ofComparison comparison left right) := by
  cases comparison <;> rfl

/-- A reified comparison adds its own propagator. -/
theorem addReified_eq_add (lowering : Lowering) (comparison : Comparison)
    (left right result : VariableId) :
    lowering.addReified comparison left right result =
      lowering.add (.ofReified comparison left right result) := by
  cases comparison <;> rfl

end Lowering

end ConstraintSearch
