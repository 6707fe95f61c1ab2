import ConstraintSearch.Proofs.Network.Lowered

/-!
# The meaning of lowering steps

What a step of the lowering adds is fulfilled by an assignment that gives the added variables values
of their domains and satisfies the added propagators. A step means a relation of the former
variables if their values can be extended to the added ones, and then in one way only, exactly when
they satisfy the relation. Meanings are put together step by step.
-/

namespace ConstraintSearch

/-- Only the variables that a propagator reads matter to its relation. -/
theorem Propagator.Holds.congr {propagator : Propagator} {first second : VariableId → Int}
    (holds : propagator.Holds first) (unweighted : propagator.isMarkov = false)
    (agree : ∀ variableId ∈ propagator.scope, first variableId = second variableId) :
    propagator.Holds second := by
  cases propagator with
  | markov weighted matrix => cases unweighted
  | relation comparison left right =>
    rw [Holds, ← agree left (by simp), ← agree right (by simp)]
    exact holds
  | reified comparison left right result =>
    rw [Holds, ← agree left (by simp), ← agree right (by simp), ← agree result (by simp)]
    exact holds
  | ring operation left right result =>
    rw [Holds, ← agree left (by simp), ← agree right (by simp), ← agree result (by simp)]
    exact holds

/-- The propagators of a sum or product all say the same, since values may be moved to the other
side of the equation. -/
theorem Propagator.holds_ofRing_iff {operation : RingOperation}
    (forward : operation = .plus ∨ operation = .mul) {left right result : VariableId}
    {assignment : VariableId → Int} :
    (∀ propagator ∈ ofRing operation left right result, propagator.Holds assignment) ↔
      operation.Holds (assignment left) (assignment right) (assignment result) := by
  simp only [ofRing, List.forall_mem_cons, List.not_mem_nil, false_implies, implies_true,
    and_true, Holds]
  refine and_iff_left_of_imp fun holds => ?_
  rcases forward with rfl | rfl
  · simp only [RingOperation.Holds, RingOperation.inverse] at holds ⊢
    omega
  · simp only [RingOperation.Holds, RingOperation.inverse] at holds ⊢
    exact ⟨holds, (Int.mul_comm _ _).trans holds⟩

/-! ### Extensions of assignments -/

namespace Lowering

/-- The propagators that a step of the lowering added. -/
def addedPropagators (before after : Lowering) : List Propagator :=
  after.propagators.toList.drop before.propagators.toList.length

/-- An assignment fulfils what a step of the lowering added: it gives every added variable a value
of its domain and satisfies the relation of every added propagator. -/
structure Fulfilled (before after : Lowering) (assignment : VariableId → Int) : Prop where
  admitted : ∀ variableId, before.vars.size ≤ variableId → variableId < after.vars.size →
    assignment variableId ∈ after.vars.domainOf variableId
  holds : ∀ propagator ∈ before.addedPropagators after, propagator.Holds assignment

/-- The second assignment keeps the values of the former variables and fulfils what a step of the
lowering added. -/
structure Extends (before after : Lowering) (assignment extended : VariableId → Int) : Prop where
  agree : ∀ variableId < before.vars.size, extended variableId = assignment variableId
  fulfilled : before.Fulfilled after extended

variable {before middle after : Lowering} {assignment : VariableId → Int}

namespace Grows

/-- What a step adds is what is found behind the former propagators. -/
theorem addedPropagators_eq {added : List Propagator} (grows : before.Grows after added) :
    before.addedPropagators after = added := by
  rw [addedPropagators, grows.propagators_eq, List.drop_left]

/-- It is fulfilled where the added variables have values and the added propagators hold. -/
theorem fulfilled_iff {added : List Propagator} (grows : before.Grows after added) :
    before.Fulfilled after assignment ↔
      (∀ variableId, before.vars.size ≤ variableId → variableId < after.vars.size →
        assignment variableId ∈ Domain.full) ∧ ∀ propagator ∈ added,
          propagator.Holds assignment := by
  constructor
  · rintro ⟨admitted, holds⟩
    rw [grows.addedPropagators_eq] at holds
    exact ⟨fun variableId late inside => grows.domainOf_full late inside ▸
      admitted variableId late inside, holds⟩
  · rintro ⟨admitted, holds⟩
    rw [← grows.addedPropagators_eq] at holds
    exact ⟨fun variableId late inside => (grows.domainOf_full late inside).symm ▸
      admitted variableId late inside, holds⟩

/-- What two steps added is fulfilled if each of them is. -/
theorem fulfilled_trans_iff {first second : List Propagator} (lower : before.Grows middle first)
    (upper : middle.Grows after second) :
    before.Fulfilled after assignment ↔
      before.Fulfilled middle assignment ∧ middle.Fulfilled after assignment := by
  rw [(lower.trans upper).fulfilled_iff, lower.fulfilled_iff, upper.fulfilled_iff,
    List.forall_mem_append]
  constructor
  · rintro ⟨admitted, ofFirst, ofSecond⟩
    exact ⟨⟨fun variableId late inside =>
      admitted variableId late (Nat.lt_of_lt_of_le inside upper.size_le), ofFirst⟩,
      ⟨fun variableId late inside =>
        admitted variableId (Nat.le_trans lower.size_le late) inside, ofSecond⟩⟩
  · rintro ⟨⟨admittedFirst, ofFirst⟩, admittedSecond, ofSecond⟩
    refine ⟨fun variableId late inside => ?_, ofFirst, ofSecond⟩
    by_cases early : variableId < middle.vars.size
    · exact admittedFirst variableId late early
    · exact admittedSecond variableId (Nat.le_of_not_lt early) inside

/-- Only the values of the variables that exist after a step matter to what it added. -/
theorem fulfilled_congr {added : List Propagator} (grows : before.Grows after added)
    {other : VariableId → Int} (fulfilled : before.Fulfilled after assignment)
    (agree : ∀ variableId < after.vars.size, other variableId = assignment variableId) :
    before.Fulfilled after other := by
  rw [grows.fulfilled_iff] at fulfilled ⊢
  refine ⟨fun variableId late inside => ?_, fun propagator inside => ?_⟩
  · rw [agree variableId inside]
    exact fulfilled.1 variableId late inside
  · exact (fulfilled.2 propagator inside).congr (grows.unweighted propagator inside)
      fun variableId reads =>
        (agree variableId (grows.scope_lt propagator inside variableId reads)).symm

/-- An assignment is extended step by step. -/
theorem extends_trans {first second : List Propagator} (lower : before.Grows middle first)
    (upper : middle.Grows after second) {extended longest : VariableId → Int}
    (ofFirst : before.Extends middle assignment extended)
    (ofSecond : middle.Extends after extended longest) :
    before.Extends after assignment longest where
  agree variableId inside :=
    (ofSecond.agree variableId (Nat.lt_of_lt_of_le inside lower.size_le)).trans
      (ofFirst.agree variableId inside)
  fulfilled :=
    (lower.fulfilled_trans_iff upper).mpr ⟨lower.fulfilled_congr ofFirst.fulfilled ofSecond.agree,
      ofSecond.fulfilled⟩

end Grows

/-- A variable that is added on its own may have every supported value. -/
theorem fulfilled_addVariable_iff {lowering : Lowering} :
    lowering.Fulfilled lowering.addVariable.2 assignment ↔
      assignment lowering.vars.size ∈ Domain.full := by
  rw [(grows_addVariable lowering).fulfilled_iff, size_addVariable]
  constructor
  · rintro ⟨admitted, _⟩
    exact admitted _ (Nat.le_refl _) (Nat.lt_succ_self _)
  · refine fun admitted => ⟨fun variableId late inside => ?_, by simp⟩
    rwa [Nat.le_antisymm (Nat.le_of_lt_succ inside) late]

/-! ### Meanings -/

/-- What a step of the lowering added comes down to a relation of the former variables: their values
can be extended to the added variables, and then in one way only, exactly if they satisfy it. -/
structure Means (before after : Lowering) (meaning : (VariableId → Int) → Prop) : Prop where
  exists_grows : ∃ added, before.Grows after added
  means : ∀ {assignment}, before.Fulfilled after assignment → meaning assignment
  extend : ∀ {assignment}, meaning assignment → ∃ extended, before.Extends after assignment extended
  unique : ∀ {first second}, before.Fulfilled after first → before.Fulfilled after second →
    (∀ variableId < before.vars.size, first variableId = second variableId) →
      ∀ variableId < after.vars.size, first variableId = second variableId
  former : ∀ {first second : VariableId → Int}, meaning first →
    (∀ variableId < before.vars.size, first variableId = second variableId) → meaning second

namespace Means

variable {meaning other : (VariableId → Int) → Prop}

/-- A meaning holds of an assignment just if it can be extended. -/
theorem iff_exists_extends (means : before.Means after meaning) :
    meaning assignment ↔ ∃ extended, before.Extends after assignment extended := by
  refine ⟨means.extend, ?_⟩
  rintro ⟨extended, extension⟩
  exact means.former (means.means extension.fulfilled) extension.agree

/-- Extensions do not differ on any variable. -/
theorem eq_of_extends (means : before.Means after meaning) {first second : VariableId → Int}
    (ofFirst : before.Extends after assignment first)
    (ofSecond : before.Extends after assignment second) :
    ∀ variableId < after.vars.size, first variableId = second variableId :=
  means.unique ofFirst.fulfilled ofSecond.fulfilled fun variableId inside =>
    (ofFirst.agree variableId inside).trans (ofSecond.agree variableId inside).symm

/-- A meaning may be said in other words. -/
theorem imp (means : before.Means after meaning)
    (same : ∀ assignment, meaning assignment ↔ other assignment) : before.Means after other where
  exists_grows := means.exists_grows
  means fulfilled := (same _).mp (means.means fulfilled)
  extend holds := means.extend ((same _).mpr holds)
  unique := means.unique
  former holds agree := (same _).mp (means.former ((same _).mpr holds) agree)

/-- A step that adds propagators only means their relations. -/
theorem of_grows {added : List Propagator} (grows : before.Grows after added)
    (sameVars : after.vars = before.vars)
    (same : ∀ assignment, (∀ propagator ∈ added, propagator.Holds assignment) ↔
      meaning assignment) : before.Means after meaning := by
  have fulfilled_iff : ∀ assignment, before.Fulfilled after assignment ↔ meaning assignment := by
    intro assignment
    rw [grows.fulfilled_iff, sameVars, same]
    exact and_iff_right fun _ late inside => absurd inside (Nat.not_lt.mpr late)
  refine ⟨⟨added, grows⟩, (fulfilled_iff _).mp, fun {assignment} holds => ?_, fun _ _ agree =>
    sameVars ▸ agree, ?_⟩
  · exact ⟨assignment, fun _ _ => rfl, (fulfilled_iff _).mpr holds⟩
  · intro first second holds agree
    rw [← fulfilled_iff] at holds ⊢
    exact grows.fulfilled_congr holds fun variableId inside =>
      (agree variableId (sameVars ▸ inside)).symm

/-- A step that adds nothing means nothing. -/
theorem refl (lowering : Lowering) : lowering.Means lowering fun _ => True :=
  .of_grows (.refl lowering) rfl fun _ => by simp

/-- One step after the other means both. The second one may be about variables that the first one
added, as long as what these have been made to be turns it into a relation of the former
variables. -/
theorem trans {relation : (VariableId → Int) → Prop} (lower : before.Means middle meaning)
    (upper : middle.Means after other)
    (same : ∀ {assignment}, before.Fulfilled middle assignment →
      (other assignment ↔ relation assignment))
    (former : ∀ {first second : VariableId → Int}, relation first →
      (∀ variableId < before.vars.size, first variableId = second variableId) → relation second) :
        before.Means after fun assignment => meaning assignment ∧ relation assignment := by
  obtain ⟨_, lowerGrows⟩ := lower.exists_grows
  obtain ⟨_, upperGrows⟩ := upper.exists_grows
  have fulfilled_iff :=
    fun assignment => @Grows.fulfilled_trans_iff _ _ _ assignment _ _ lowerGrows upperGrows
  refine ⟨⟨_, lowerGrows.trans upperGrows⟩, fun fulfilled => ?_, ?_,
    fun ofFirst ofSecond agree => ?_, ?_⟩
  · obtain ⟨ofLower, ofUpper⟩ := (fulfilled_iff _).mp fulfilled
    exact ⟨lower.means ofLower, (same ofLower).mp (upper.means ofUpper)⟩
  · rintro assignment ⟨ofLower, ofUpper⟩
    obtain ⟨extended, lowerExtends⟩ := lower.extend ofLower
    have related :=
      former ofUpper fun variableId inside => (lowerExtends.agree variableId inside).symm
    obtain ⟨longest, upperExtends⟩ := upper.extend ((same lowerExtends.fulfilled).mpr related)
    exact ⟨longest, lowerGrows.extends_trans upperGrows lowerExtends upperExtends⟩
  · obtain ⟨firstLower, firstUpper⟩ := (fulfilled_iff _).mp ofFirst
    obtain ⟨secondLower, secondUpper⟩ := (fulfilled_iff _).mp ofSecond
    exact upper.unique firstUpper secondUpper (lower.unique firstLower secondLower agree)
  · rintro first second ⟨ofLower, ofUpper⟩ agree
    exact ⟨lower.former ofLower agree, former ofUpper agree⟩

/-- An added variable whose value is determined may have every value that variables can have. -/
theorem addVariable {value : (VariableId → Int) → Int}
    (means : before.addVariable.2.Means after fun assignment =>
      meaning assignment ∧ value assignment = assignment before.vars.size)
    (former : ∀ {first second : VariableId → Int},
      (∀ variableId < before.vars.size, first variableId = second variableId) →
        (meaning first → meaning second) ∧ value first = value second) :
    before.Means after fun assignment => value assignment ∈ Domain.full ∧ meaning assignment := by
  obtain ⟨_, grows⟩ := means.exists_grows
  have addGrows := grows_addVariable before
  have fulfilled_iff :=
    fun assignment => @Grows.fulfilled_trans_iff _ _ _ assignment _ _ addGrows grows
  simp only [fulfilled_addVariable_iff] at fulfilled_iff
  refine ⟨⟨_, addGrows.trans grows⟩, fun fulfilled => ?_, ?_, fun ofFirst ofSecond agree => ?_, ?_⟩
  · obtain ⟨admitted, rest⟩ := (fulfilled_iff _).mp fulfilled
    obtain ⟨holds, determined⟩ := means.means rest
    exact ⟨determined ▸ admitted, holds⟩
  · rintro assignment ⟨admitted, holds⟩
    -- The added variable takes the value that the meaning determines, and the rest is extended from
    -- there.
    generalize isLonger : Function.update assignment before.vars.size (value assignment) = longer
    have agree : ∀ variableId < before.vars.size, assignment variableId = longer variableId :=
      fun variableId inside => isLonger ▸ (Function.update_of_ne (Nat.ne_of_lt inside) _ _).symm
    have added : longer before.vars.size = value assignment := isLonger ▸ Function.update_self _ _ _
    have determined : value longer = longer before.vars.size :=
      (former agree).2.symm.trans added.symm
    obtain ⟨longest, extension⟩ := means.extend ⟨(former agree).1 holds, determined⟩
    refine ⟨longest, addGrows.extends_trans grows
      ⟨fun variableId inside => (agree variableId inside).symm, ?_⟩ extension⟩
    rw [fulfilled_addVariable_iff, added]
    exact admitted
  · obtain ⟨_, firstRest⟩ := (fulfilled_iff _).mp ofFirst
    obtain ⟨_, secondRest⟩ := (fulfilled_iff _).mp ofSecond
    refine means.unique firstRest secondRest fun variableId inside => ?_
    rw [size_addVariable] at inside
    rcases Nat.lt_succ_iff_lt_or_eq.mp inside with early | rfl
    · exact agree variableId early
    · exact (means.means firstRest).2.symm.trans ((former agree).2.trans (means.means secondRest).2)
  · rintro first second ⟨admitted, holds⟩ agree
    exact ⟨(former agree).2 ▸ admitted, (former agree).1 holds⟩

/-- A relation means its comparison. -/
theorem addRelation {lowering : Lowering} {comparison : Comparison} {left right : VariableId}
    (leftInside : left < lowering.vars.size) (rightInside : right < lowering.vars.size) :
    lowering.Means (lowering.addRelation comparison left right) fun assignment =>
      comparison.Holds (assignment left) (assignment right) := by
  rw [addRelation_eq_add]
  refine .of_grows (grows_add (by cases comparison <;> rfl) (by cases comparison <;> rfl)
    fun variableId reads => ?_) rfl fun assignment => ?_
  · rcases Propagator.mem_scope_ofComparison.mp reads with rfl | rfl
    · exact leftInside
    · exact rightInside
  · rw [List.forall_mem_singleton, Propagator.holds_ofComparison_iff]

/-- A reified comparison means that the result tells whether the comparison holds. -/
theorem addReified {lowering : Lowering} {comparison : Comparison} {left right result : VariableId}
    (leftInside : left < lowering.vars.size) (rightInside : right < lowering.vars.size)
    (resultInside : result < lowering.vars.size) :
    lowering.Means (lowering.addReified comparison left right result) fun assignment =>
      (assignment result = 1 ∧ comparison.Holds (assignment left) (assignment right)) ∨
        (assignment result = 0 ∧ ¬ comparison.Holds (assignment left) (assignment right)) := by
  rw [addReified_eq_add]
  refine .of_grows (grows_add (by cases comparison <;> rfl) (by cases comparison <;> rfl)
    fun variableId reads => ?_) rfl fun assignment => ?_
  · rcases Propagator.mem_scope_ofReified.mp reads with rfl | rfl | rfl
    · exact leftInside
    · exact rightInside
    · exact resultInside
  · rw [List.forall_mem_singleton, Propagator.holds_ofReified_iff]

/-- A sum or a product of two variables means that the result has its value. -/
theorem addRing {lowering : Lowering} {operation : RingOperation}
    (forward : operation = .plus ∨ operation = .mul) {left right result : VariableId}
    (leftInside : left < lowering.vars.size) (rightInside : right < lowering.vars.size)
    (resultInside : result < lowering.vars.size) :
    lowering.Means (lowering.addRing operation left right result) fun assignment =>
      operation.Holds (assignment left) (assignment right) (assignment result) :=
  .of_grows (grows_addRing leftInside rightInside resultInside) rfl fun _ =>
    Propagator.holds_ofRing_iff forward

end Means

end Lowering

end ConstraintSearch
