import ConstraintSearch.Proofs.Network.Lowered

/-!
# Constraints enforced by propagators

The propagators added for a constraint enforce it: domains that they keep are consistent with the
constraint, and domains that are consistent with it can be extended to domains that they keep. None
of them orders a variable before itself unless the constraint does. The same is then shown for the
lowering of a list of constraints.
-/

namespace ConstraintSearch

open Lowering

/-- What the propagators added by a step of the lowering do: they accept some families, where those
count that have domains for the former variables; they may be strict in that one of them orders a
variable before itself. -/
structure Lowering.Enforces (before after : Lowering) (added : List Propagator) (strict : Prop)
    (accepts : Family → Prop) : Prop where
  grows : before.Grows after added
  strict_of_ordersItself : ∀ propagator ∈ added, ∀ family, propagator.OrdersItself family → strict
  accepted : ∀ {family : Family}, (∀ variableId < after.vars.size, (family variableId).Nonempty) →
    (∀ propagator ∈ added, propagator.Keeps family) → accepts family
  extend : ∀ {family : Family}, accepts family →
    ∃ longer, before.Prolongs after family longer ∧ ∀ propagator ∈ added, propagator.Keeps longer

namespace Lowering.Enforces

variable {before middle after : Lowering} {strict : Prop} {accepts : Family → Prop}

/-- Where nothing is added, every family is accepted. -/
theorem refl (lowering : Lowering) : lowering.Enforces lowering [] strict fun _ => True where
  grows := .refl lowering
  strict_of_ordersItself := by simp
  accepted _ _ := trivial
  extend {family} _ := ⟨family, .refl lowering family, by simp⟩

/-- What is accepted may be said in other words, and strictness may be weakened. -/
theorem imp {added : List Propagator} {laxer : Prop} {others : Family → Prop}
    (enforces : before.Enforces after added strict accepts) (weaken : strict → laxer)
    (same : ∀ family, accepts family ↔ others family) :
    before.Enforces after added laxer others where
  grows := enforces.grows
  strict_of_ordersItself propagator inside family demands :=
    weaken (enforces.strict_of_ordersItself propagator inside family demands)
  accepted nonempty keeps := (same _).mp (enforces.accepted nonempty keeps)
  extend accepted := enforces.extend ((same _).mpr accepted)

/-- One step after the other enforces both, if the second one is about former variables only. -/
theorem trans {first second : List Propagator} {others : Family → Prop}
    (lower : before.Enforces middle first strict accepts)
    (upper : middle.Enforces after second strict others)
    (former : ∀ {family longer : Family},
      (∀ variableId < before.vars.size, longer variableId = family variableId) → others family →
        others longer) :
    before.Enforces after (first ++ second) strict fun family =>
      accepts family ∧ others family where
  grows := lower.grows.trans upper.grows
  strict_of_ordersItself propagator inside :=
    (List.mem_append.mp inside).elim (lower.strict_of_ordersItself propagator)
      (upper.strict_of_ordersItself propagator)
  accepted nonempty keeps := by
    refine ⟨lower.accepted (fun variableId early => ?_) fun propagator inside => ?_,
      upper.accepted nonempty fun propagator inside =>
        keeps propagator (List.mem_append_right _ inside)⟩
    · exact nonempty variableId (Nat.lt_of_lt_of_le early upper.grows.size_le)
    · exact keeps propagator (List.mem_append_left _ inside)
  extend := by
    rintro family ⟨ofFirst, ofSecond⟩
    obtain ⟨longer, prolongs, keeps⟩ := lower.extend ofFirst
    obtain ⟨longest, restProlongs, restKeeps⟩ := upper.extend (former prolongs.agree ofSecond)
    refine ⟨longest, prolongs.trans lower.grows restProlongs, fun propagator inside => ?_⟩
    rcases List.mem_append.mp inside with inFirst | inSecond
    · exact lower.grows.keeps_of_prolongs restProlongs keeps propagator inFirst
    · exact restKeeps propagator inSecond

/-- A propagator that is added enforces what it keeps. -/
theorem add {lowering : Lowering} {propagator : Propagator} (notRing : propagator.isRing = false)
    (unweighted : propagator.isMarkov = false)
    (inside : ∀ variableId ∈ propagator.scope, variableId < lowering.vars.size)
    (onlyStrict : ∀ family, propagator.OrdersItself family → strict) :
    lowering.Enforces (lowering.add propagator) [propagator] strict propagator.Keeps where
  grows := grows_add notRing unweighted inside
  strict_of_ordersItself := by simpa using onlyStrict
  accepted _ keeps := keeps propagator List.mem_cons_self
  extend {family} keeps :=
    ⟨family, ⟨fun _ _ => rfl, fun _ late early => absurd early (Nat.not_lt.mpr late)⟩,
      by simpa using keeps⟩

/-- A relation enforces that of its comparison, and is strict only on a single variable. -/
theorem addRelation {lowering : Lowering} {comparison : Comparison} {left right : VariableId}
    (leftInside : left < lowering.vars.size) (rightInside : right < lowering.vars.size)
    (onlyStrict : comparison.isStrict ∧ left = right → strict) :
    lowering.Enforces (lowering.addRelation comparison left right)
      [.ofComparison comparison left right] strict
        (Propagator.ofComparison comparison left right).Keeps := by
  rw [addRelation_eq_add]
  refine add (by cases comparison <;> rfl) (by cases comparison <;> rfl)
    (fun variableId reads => ?_) fun family demands => ?_
  · rcases Propagator.mem_scope_ofComparison.mp reads with rfl | rfl
    · exact leftInside
    · exact rightInside
  · apply onlyStrict
    cases comparison with
    | gt => exact ⟨rfl, demands.2.symm⟩
    | gte => exact absurd demands.1 (by simp [Comparison.isStrict])
    | eq | neq | lt | lte => exact demands

/-- So does a reified comparison, of which either form may be strict. -/
theorem addReified {lowering : Lowering} {comparison : Comparison} {left right result : VariableId}
    (leftInside : left < lowering.vars.size) (rightInside : right < lowering.vars.size)
    (resultInside : result < lowering.vars.size)
    (onlyStrict : (comparison.isStrict ∨ comparison.negate.isStrict) ∧ left = right → strict) :
    lowering.Enforces (lowering.addReified comparison left right result)
      [.ofReified comparison left right result] strict
        (Propagator.ofReified comparison left right result).Keeps := by
  rw [addReified_eq_add]
  refine add (by cases comparison <;> rfl) (by cases comparison <;> rfl)
    (fun variableId reads => ?_) fun family demands => ?_
  · rcases Propagator.mem_scope_ofReified.mp reads with rfl | rfl | rfl
    · exact leftInside
    · exact rightInside
    · exact resultInside
  · apply onlyStrict
    cases comparison with
    | gt => exact ⟨.inl rfl, demands.1.symm⟩
    | gte => exact ⟨.inr rfl, demands.1.symm⟩
    | eq | neq | lt | lte => exact ⟨demands.2.imp And.right And.right, demands.1⟩

/-- An operation enforces that its operands and its result are consistent. -/
theorem addRing {lowering : Lowering} {operation : RingOperation} {left right result : VariableId}
    (leftInside : left < lowering.vars.size) (rightInside : right < lowering.vars.size)
    (resultInside : result < lowering.vars.size) :
    lowering.Enforces (lowering.addRing operation left right result)
      (Propagator.ofRing operation left right result) strict fun family =>
        operation.Consistent (family left) (family right) (family result) where
  grows := grows_addRing leftInside rightInside resultInside
  strict_of_ordersItself propagator inside family demands := by
    simp only [Propagator.ofRing, List.mem_cons, List.not_mem_nil, or_false] at inside
    rcases inside with rfl | rfl | rfl <;> exact False.elim demands
  accepted _ keeps := Propagator.keeps_ofRing_iff.mp keeps
  extend {family} consistent :=
    ⟨family, ⟨fun _ _ => rfl, fun _ late early => absurd early (Nat.not_lt.mpr late)⟩,
      Propagator.keeps_ofRing_iff.mpr consistent⟩

end Lowering.Enforces

/-! ### Trees -/

namespace OperandTree

variable {operation : RingOperation}

/-- What lowering a part of a tree adds, and how the variable of the part relates to the
operands. -/
structure PartAdded (operation : RingOperation) (tree : OperandTree) (before after : Lowering)
    (part : VariableId) (added : List Propagator) : Prop where
  grows : before.Grows after added
  part_lt : part < after.vars.size
  notStrict : ∀ propagator ∈ added, ∀ family, ¬ propagator.OrdersItself family
  yields : ∀ {family : Family}, (∀ variableId < after.vars.size, (family variableId).Nonempty) →
    (∀ propagator ∈ added, propagator.Keeps family) → tree.Yields operation family (family part)
  extend : ∀ {family : Family} {result : Domain}, tree.Yields operation family result →
    ∃ longer, before.Prolongs after family longer ∧ longer part = result ∧
      ∀ propagator ∈ added, propagator.Keeps longer

/-- Two parts lowered one after the other, followed by an operation on them, enforce the tree of
both parts. -/
theorem enforces_node {left right : OperandTree} {before middle after : Lowering}
    {leftPart rightPart result : VariableId} {leftAdded rightAdded : List Propagator}
    (leftLowered : left.PartAdded operation before middle leftPart leftAdded)
    (rightLowered : right.PartAdded operation middle after rightPart rightAdded)
    (rightLeaves : ∀ operand ∈ right.leaves, operand < before.vars.size)
    (resultInside : result < before.vars.size) {strict : Prop} :
    before.Enforces (after.addRing operation leftPart rightPart result)
      (leftAdded ++ rightAdded ++ Propagator.ofRing operation leftPart rightPart result) strict
      fun family => (node left right).Closes operation family (family result) := by
  have partsGrow := leftLowered.grows.trans rightLowered.grows
  have leftPartInside := Nat.lt_of_lt_of_le leftLowered.part_lt rightLowered.grows.size_le
  have combines : after.Enforces (after.addRing operation leftPart rightPart result)
      (Propagator.ofRing operation leftPart rightPart result) strict
      fun family => operation.Consistent (family leftPart) (family rightPart) (family result) :=
    .addRing leftPartInside rightLowered.part_lt (Nat.lt_of_lt_of_le resultInside partsGrow.size_le)
  constructor
  case grows => exact partsGrow.trans combines.grows
  case strict_of_ordersItself =>
    intro propagator inside family demands
    rcases List.mem_append.mp inside with inParts | inRing
    · rcases List.mem_append.mp inParts with inLeft | inRight
      · exact absurd demands (leftLowered.notStrict propagator inLeft family)
      · exact absurd demands (rightLowered.notStrict propagator inRight family)
    · exact combines.strict_of_ordersItself propagator inRing family demands
  case accepted =>
    intro family nonempty keeps
    have leftYields := leftLowered.yields
      (fun variableId early => nonempty variableId
        (Nat.lt_of_lt_of_le early rightLowered.grows.size_le))
      fun propagator inside =>
        keeps propagator (List.mem_append_left _ (List.mem_append_left _ inside))
    have rightYields := rightLowered.yields nonempty
      fun propagator inside =>
        keeps propagator (List.mem_append_left _ (List.mem_append_right _ inside))
    have consistent := combines.accepted nonempty fun propagator inside =>
      keeps propagator (List.mem_append_right _ inside)
    exact ⟨_, _, leftYields, rightYields, consistent⟩
  case extend =>
    rintro family ⟨leftDomain, rightDomain, leftYields, rightYields, consistent⟩
    -- The left part is prolonged first. The right part reads only older variables, so it yields the
    -- same from the longer family, and the third family still gives the left part its domain.
    obtain ⟨second, leftProlongs, leftDomainEq, leftKeeps⟩ := leftLowered.extend leftYields
    have rightYieldsSecond : right.Yields operation second rightDomain :=
      rightYields.congr fun operand inside =>
        (leftProlongs.agree operand (rightLeaves operand inside)).symm
    obtain ⟨third, rightProlongs, rightDomainEq, rightKeeps⟩ :=
      rightLowered.extend rightYieldsSecond
    have prolongs := leftProlongs.trans leftLowered.grows rightProlongs
    refine ⟨third, ⟨prolongs.agree, prolongs.nonempty⟩, fun propagator inside => ?_⟩
    rcases List.mem_append.mp inside with inParts | inRing
    · rcases List.mem_append.mp inParts with inLeft | inRight
      · exact leftLowered.grows.keeps_of_prolongs rightProlongs leftKeeps propagator inLeft
      · exact rightKeeps propagator inRight
    · refine Propagator.keeps_ofRing_iff.mpr ?_ propagator inRing
      have leftThird : third leftPart = leftDomain :=
        (rightProlongs.agree leftPart leftLowered.part_lt).trans leftDomainEq
      have resultThird : third result = family result := prolongs.agree result resultInside
      rw [leftThird, rightDomainEq, resultThird]
      exact consistent

/-- Lowering a part of a tree adds a variable that yields its value, by induction on the tree: each
operation takes the variables of its parts and prolongs their families by one result. -/
theorem exists_partAdded (operation : RingOperation) (tree : OperandTree) (before : Lowering)
    (inside : ∀ operand ∈ tree.leaves, operand < before.vars.size) :
    ∃ added, tree.PartAdded operation before (tree.lowerPart operation before).2
      (tree.lowerPart operation before).1 added := by
  induction tree generalizing before with
  | leaf operand =>
    refine ⟨[], Grows.refl before, inside operand List.mem_cons_self, by simp, fun _ _ => rfl, ?_⟩
    rintro family result rfl
    exact ⟨family, Prolongs.refl before family, rfl, by simp⟩
  | node left right leftHypothesis rightHypothesis =>
    generalize isFirst : before.addVariable.2 = first
    have firstGrows : before.Grows first [] := isFirst ▸ grows_addVariable before
    have firstSize : first.vars.size = before.vars.size + 1 := isFirst ▸ size_addVariable before
    have resultInside : before.vars.size < first.vars.size := by omega
    have insideFirst : ∀ operand ∈ (node left right).leaves, operand < first.vars.size :=
      fun operand member => Nat.lt_of_lt_of_le (inside operand member) firstGrows.size_le
    obtain ⟨leftAdded, leftLowered⟩ := leftHypothesis first fun operand member =>
      insideFirst operand (List.mem_append_left _ member)
    obtain ⟨rightAdded, rightLowered⟩ :=
      rightHypothesis (left.lowerPart operation first).2 fun operand member =>
        Nat.lt_of_lt_of_le (insideFirst operand (List.mem_append_right _ member))
          leftLowered.grows.size_le
    have enforces := @enforces_node operation _ _ _ _ _ _ _ _ _ _ leftLowered rightLowered
      (fun operand member => insideFirst operand (List.mem_append_right _ member))
      resultInside False
    have resultLater := Nat.lt_of_lt_of_le resultInside enforces.grows.size_le
    subst isFirst
    refine ⟨_, firstGrows.trans enforces.grows, resultLater, enforces.strict_of_ordersItself,
      fun nonempty keeps => ⟨nonempty _ resultLater, enforces.accepted nonempty keeps⟩, ?_⟩
    rintro family result ⟨nonempty, closes⟩
    -- The added variable takes the result, and the operands stay as they are.
    generalize isLonger : (fun variableId => if variableId = before.vars.size then result
      else family variableId) = longer
    have atResult : longer before.vars.size = result := isLonger ▸ if_pos rfl
    have agree : ∀ variableId < before.vars.size, longer variableId = family variableId :=
      fun variableId early => isLonger ▸ if_neg (Nat.ne_of_lt early)
    have prolongs : before.Prolongs before.addVariable.2 family longer := by
      refine ⟨agree, fun variableId late early => ?_⟩
      obtain rfl : variableId = before.vars.size := by omega
      exact atResult.symm ▸ nonempty
    have closesLonger : (node left right).Closes operation longer (longer before.vars.size) :=
      atResult.symm ▸ Closes.congr closes fun operand member =>
        (agree operand (inside operand member)).symm
    obtain ⟨longest, restProlongs, keeps⟩ := enforces.extend closesLonger
    exact ⟨longest, prolongs.trans firstGrows restProlongs,
      (restProlongs.agree _ resultInside).trans atResult, keeps⟩

/-- Lowering a tree enforces that the result closes it. -/
theorem exists_enforces (tree : OperandTree) (before : Lowering) {result : VariableId}
    {strict : Prop} (inside : ∀ operand ∈ tree.leaves, operand < before.vars.size)
    (resultInside : result < before.vars.size) :
    ∃ added, before.Enforces (tree.lower operation result before) added strict fun family =>
      tree.Closes operation family (family result) := by
  cases tree with
  | leaf operand =>
    have operandInside := inside operand List.mem_cons_self
    have enforces : before.Enforces (before.addRelation .eq operand result)
        [.ofComparison .eq operand result] strict
        (Propagator.ofComparison .eq operand result).Keeps :=
      .addRelation operandInside resultInside fun ⟨isStrict, _⟩ => by cases isStrict
    refine ⟨_, enforces.grows, enforces.strict_of_ordersItself, fun nonempty keeps => ?_,
      fun {family} closes => ?_⟩
    · have kept := enforces.accepted nonempty keeps
      exact (Propagator.keeps_relation_iff (nonempty operand operandInside)
        (nonempty result resultInside)).mp kept
    · -- Equal domains keep each other even where they have no values.
      apply enforces.extend
      intro rule inRules value valueInside supported support
      have member : rule ∈ Comparison.eq.rules operand result := inRules
      rcases Comparison.mem_rules.mp member with rfl | rfl
      · cases support
        obtain ⟨other, otherInside, rfl⟩ := closes.1 value valueInside
        exact otherInside
      · cases support
        obtain ⟨other, otherInside, rfl⟩ := closes.2 value valueInside
        exact otherInside
  | node left right =>
    have rightInside : ∀ operand ∈ right.leaves, operand < before.vars.size := fun operand member =>
      inside operand (List.mem_append_right _ member)
    obtain ⟨leftAdded, leftLowered⟩ := left.exists_partAdded operation before fun operand member =>
      inside operand (List.mem_append_left _ member)
    obtain ⟨rightAdded, rightLowered⟩ :=
      right.exists_partAdded operation (left.lowerPart operation before).2 fun operand member =>
        Nat.lt_of_lt_of_le (rightInside operand member) leftLowered.grows.size_le
    exact ⟨_, enforces_node leftLowered rightLowered rightInside resultInside⟩

end OperandTree

/-! ### Constraints -/

namespace Constraint

/-- Lowering pairs enforces that the variables of each of them differ. -/
theorem exists_enforces_pairs (pairs : List (VariableId × VariableId)) (before : Lowering)
    {strict : Prop} (inside : ∀ pair ∈ pairs, pair.1 < before.vars.size ∧
      pair.2 < before.vars.size) :
    ∃ added, before.Enforces
    (pairs.foldl (fun lowering pair => lowering.addRelation .neq pair.1 pair.2) before) added strict
      fun family => ∀ pair ∈ pairs, (Propagator.ofComparison .neq pair.1 pair.2).Keeps family := by
  induction pairs generalizing before with
  | nil => exact ⟨[], (Enforces.refl before).imp id (by simp)⟩
  | cons first rest inductionHypothesis =>
    obtain ⟨leftInside, rightInside⟩ := inside first List.mem_cons_self
    have step : before.Enforces (before.addRelation .neq first.1 first.2)
        [.ofComparison .neq first.1 first.2] strict
        (Propagator.ofComparison .neq first.1 first.2).Keeps :=
      .addRelation leftInside rightInside fun ⟨isStrict, _⟩ => by cases isStrict
    have restInside : ∀ pair ∈ rest, pair.1 < before.vars.size ∧ pair.2 < before.vars.size :=
      fun pair member => inside pair (List.mem_cons_of_mem _ member)
    obtain ⟨added, enforces⟩ :=
      inductionHypothesis (before.addRelation .neq first.1 first.2) restInside
    refine ⟨_, (step.trans enforces fun agree keeps pair member => ?_).imp id fun family => ?_⟩
    · refine (keeps pair member).congr fun variableId reads => (agree variableId ?_).symm
      rcases Propagator.mem_scope_ofComparison.mp reads with rfl | rfl
      · exact (restInside pair member).1
      · exact (restInside pair member).2
    · rw [List.forall_mem_cons]

/-- The propagators added for a constraint enforce it. -/
theorem exists_enforces {constraint : Constraint} (wellFormed : constraint.WellFormed)
    (before : Lowering) (inside : ∀ variableId ∈ constraint.scope, variableId < before.vars.size) :
    ∃ added, before.Enforces (constraint.lower before) added constraint.OrdersItself
      constraint.Consistent := by
  have ofTree : ∀ {operation : RingOperation} {result : VariableId}, constraint.operands ≠ [] →
      result ∈ constraint.scope →
      ∃ added, before.Enforces ((OperandTree.balanced? constraint.operands).elim before fun tree =>
        tree.lower operation result before) added constraint.OrdersItself fun family =>
          ∀ tree, OperandTree.balanced? constraint.operands = some tree →
              tree.Closes operation family (family result) := by
    intro operation result hasOperands resultInside
    obtain ⟨tree, balanced, treeLeaves⟩ := OperandTree.exists_balanced? hasOperands
    obtain ⟨added, enforces⟩ := tree.exists_enforces before
      (fun operand member => inside operand (List.mem_append_left _ (treeLeaves ▸ member)))
      (inside result resultInside)
    rw [balanced]
    exact ⟨added, enforces.imp id fun family => by simp⟩
  cases wellFormed with
  | compare comparison left right =>
    exact ⟨_, .addRelation (inside left (by simp [scope])) (inside right (by simp [scope])) id⟩
  | distinct operands =>
    apply exists_enforces_pairs (orderedPairs operands) before
    intro pair member
    have members := mem_of_mem_orderedPairs member
    exact ⟨inside pair.1 (List.mem_append_left _ members.1),
      inside pair.2 (List.mem_append_left _ members.2)⟩
  | plus left right result =>
    exact ⟨_, .addRing (inside left (by simp [scope])) (inside right (by simp [scope]))
      (inside result (by simp [scope]))⟩
  | minus left right result =>
    exact ⟨_, .addRing (inside result (by simp [scope])) (inside right (by simp [scope]))
      (inside left (by simp [scope]))⟩
  | mul left right result =>
    exact ⟨_, .addRing (inside left (by simp [scope])) (inside right (by simp [scope]))
      (inside result (by simp [scope]))⟩
  | div left right result =>
    exact ⟨_, .addRing (inside result (by simp [scope])) (inside right (by simp [scope]))
      (inside left (by simp [scope]))⟩
  | sum operands result hasOperands => exact ofTree hasOperands (by simp [scope])
  | product operands result hasOperands => exact ofTree hasOperands (by simp [scope])
  | reify comparison left right result =>
    exact ⟨_, .addReified (inside left (by simp [scope])) (inside right (by simp [scope]))
      (inside result (by simp [scope])) id⟩

end Constraint

/-! ### Lists of constraints -/

/-- What the lowering of a list of constraints adds. -/
structure Lowered (constraints : List Constraint) (before after : Lowering)
    (added : List Propagator) : Prop where
  grows : before.Grows after added
  /-- Propagators at rest enforce every constraint that does not order a variable before itself. -/
  consistent : ∀ {family : Family}, (∀ variableId < after.vars.size, (family variableId).Nonempty) →
    (∀ propagator ∈ added, propagator.Keeps family ∨ propagator.OrdersItself family) →
      ∀ constraint ∈ constraints, ¬ constraint.OrdersItself → constraint.Consistent family
  exists_ordersItself : ∀ propagator ∈ added, ∀ family, propagator.OrdersItself family →
    ∃ constraint ∈ constraints, constraint.OrdersItself
  extend : ∀ {family : Family}, (∀ constraint ∈ constraints, constraint.Consistent family) →
    ∃ longer, before.Prolongs after family longer ∧ ∀ propagator ∈ added, propagator.Keeps longer

/-- The constraints of a list are lowered one after the other, and what each of them adds is kept by
the families of all. -/
theorem exists_lowered (constraints : List Constraint) (before : Lowering)
    (wellFormed : ∀ constraint ∈ constraints, constraint.WellFormed)
    (inside : ∀ constraint ∈ constraints, ∀ variableId ∈ constraint.scope,
      variableId < before.vars.size) :
    ∃ added, Lowered constraints before
    (constraints.foldl (fun lowering constraint => constraint.lower lowering) before)
      added := by
  induction constraints generalizing before with
  | nil =>
    exact ⟨[], .refl before, by simp, by simp, fun {family} _ =>
      ⟨family, .refl before family, by simp⟩⟩
  | cons first rest inductionHypothesis =>
    have restWellFormed : ∀ constraint ∈ rest, constraint.WellFormed := fun constraint member =>
      wellFormed constraint (List.mem_cons_of_mem _ member)
    have restInside : ∀ constraint ∈ rest, ∀ variableId ∈ constraint.scope,
        variableId < before.vars.size :=
      fun constraint member => inside constraint (List.mem_cons_of_mem _ member)
    obtain ⟨added, enforces⟩ :=
      Constraint.exists_enforces (wellFormed first List.mem_cons_self) before
        (inside first List.mem_cons_self)
    obtain ⟨restAdded, lowered⟩ := inductionHypothesis (first.lower before) restWellFormed
      fun constraint member variableId reads =>
        Nat.lt_of_lt_of_le (restInside constraint member variableId reads) enforces.grows.size_le
    -- The rest is lowered onto what the first constraint left, so the families are prolonged twice;
    -- the other constraints read only variables on which the first family agrees.
    refine ⟨added ++ restAdded, enforces.grows.trans lowered.grows, ?_, ?_, ?_⟩
    · intro family nonempty rests constraint member possible
      rcases List.mem_cons.mp member with rfl | inRest
      · refine enforces.accepted (fun variableId early => ?_) fun propagator inAdded => ?_
        · exact nonempty variableId (Nat.lt_of_lt_of_le early lowered.grows.size_le)
        · refine (rests propagator (List.mem_append_left _ inAdded)).resolve_right fun demands =>
            possible ?_
          exact enforces.strict_of_ordersItself propagator inAdded family demands
      · exact lowered.consistent nonempty (fun propagator inAdded =>
          rests propagator (List.mem_append_right _ inAdded)) constraint inRest possible
    · intro propagator member family demands
      rcases List.mem_append.mp member with inAdded | inRest
      · exact ⟨first, List.mem_cons_self,
          enforces.strict_of_ordersItself propagator inAdded family demands⟩
      · obtain ⟨constraint, inside, strict⟩ :=
          lowered.exists_ordersItself propagator inRest family demands
        exact ⟨constraint, List.mem_cons_of_mem _ inside, strict⟩
    · intro family consistent
      obtain ⟨longer, prolongs, keeps⟩ := enforces.extend (consistent first List.mem_cons_self)
      obtain ⟨longest, restProlongs, restKeeps⟩ := lowered.extend fun constraint member =>
        (consistent constraint (List.mem_cons_of_mem _ member)).congr
          (restWellFormed constraint member) fun variableId reads =>
            (prolongs.agree variableId (restInside constraint member variableId reads)).symm
      refine ⟨longest, prolongs.trans enforces.grows restProlongs, fun propagator member => ?_⟩
      rcases List.mem_append.mp member with inAdded | inRest
      · exact enforces.grows.keeps_of_prolongs restProlongs keeps propagator inAdded
      · exact restKeeps propagator inRest

end ConstraintSearch
