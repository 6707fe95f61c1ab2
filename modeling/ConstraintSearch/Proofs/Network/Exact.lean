import ConstraintSearch.Proofs.Model.Reachable
import ConstraintSearch.Proofs.Network.Meaning

/-!
# Exactness of the lowering

A constraint holds exactly if the values of its operands and of its result can be extended to the
variables that the lowering adds, and then there is one such extension only. For a sum of many
operands this is because no inner result exceeds the whole: values are not negative. An inner result
of a product does exceed the whole if a factor elsewhere is zero, so that a product of zero can be
lost; `Constraint.exists_extends_product_iff` says when.
-/

namespace ConstraintSearch

/-! ### Trees -/

namespace OperandTree

open Lowering

variable {combine : Int → Int → Int} {assignment : VariableId → Int}

/-- Every operation of the tree gives a value that variables can have. -/
def Representable (combine : Int → Int → Int) (assignment : VariableId → Int) : OperandTree → Prop
  | leaf _ => True
  | node left right =>
    combine (left.value combine assignment) (right.value combine assignment) ∈ Domain.full ∧
      left.Representable combine assignment ∧ right.Representable combine assignment

/-- Every operation of the tree other than the last one, which gives the result, gives a value that
variables can have. -/
def InnerRepresentable (combine : Int → Int → Int) (assignment : VariableId → Int) :
    OperandTree → Prop
  | leaf _ => True
  | node left right =>
    left.Representable combine assignment ∧ right.Representable combine assignment

/-- The value of a tree depends on its operands. -/
theorem value_congr {tree : OperandTree} {first second : VariableId → Int}
    (agree : ∀ operand ∈ tree.leaves, first operand = second operand) :
    tree.value combine first = tree.value combine second := by
  induction tree with
  | leaf operand => exact agree operand List.mem_cons_self
  | node left right leftHypothesis rightHypothesis =>
    rw [value, value, leftHypothesis fun operand inside =>
      agree operand (List.mem_append_left _ inside), rightHypothesis fun operand inside =>
        agree operand (List.mem_append_right _ inside)]

/-- So does whether its results can be represented. -/
theorem Representable.congr {tree : OperandTree} {first second : VariableId → Int}
    (representable : tree.Representable combine first)
    (agree : ∀ operand ∈ tree.leaves, first operand = second operand) :
    tree.Representable combine second := by
  induction tree with
  | leaf operand => trivial
  | node left right leftHypothesis rightHypothesis =>
    have leftAgree : ∀ operand ∈ left.leaves, first operand = second operand :=
      fun operand inside => agree operand (List.mem_append_left _ inside)
    have rightAgree : ∀ operand ∈ right.leaves, first operand = second operand :=
      fun operand inside => agree operand (List.mem_append_right _ inside)
    obtain ⟨inside, leftRepresentable, rightRepresentable⟩ := representable
    rw [value_congr leftAgree, value_congr rightAgree] at inside
    exact ⟨inside, leftHypothesis leftRepresentable leftAgree,
      rightHypothesis rightRepresentable rightAgree⟩

/-- Lowering a part of a tree means that its operations give values which variables can have, and
the variable of the part then has the value of the whole part. -/
structure PartMeans (combine : Int → Int → Int) (tree : OperandTree) (before after : Lowering)
    (part : VariableId) : Prop where
  means : before.Means after (tree.Representable combine)
  part_lt : part < after.vars.size
  value_eq : ∀ {assignment}, before.Fulfilled after assignment →
    assignment part = tree.value combine assignment

variable {operation : RingOperation} (forward : operation = .plus ∨ operation = .mul)
  (combines : ∀ first second third, operation.Holds first second third ↔
    combine first second = third)

include forward combines

/-- Two parts lowered one after the other, followed by the operation on them. -/
theorem means_node {left right : OperandTree} {before middle after : Lowering}
    {leftPart rightPart result : VariableId}
    (ofLeft : left.PartMeans combine before middle leftPart)
    (ofRight : right.PartMeans combine middle after rightPart)
    (inside : ∀ operand ∈ (node left right).leaves, operand < before.vars.size)
    (resultInside : result < before.vars.size) :
    before.Means (after.addRing operation leftPart rightPart result) fun assignment =>
      (node left right).InnerRepresentable combine assignment ∧
        (node left right).value combine assignment = assignment result := by
  obtain ⟨_, leftGrows⟩ := ofLeft.means.exists_grows
  obtain ⟨_, rightGrows⟩ := ofRight.means.exists_grows
  have both := ofLeft.means.trans ofRight.means (fun _ => Iff.rfl) fun representable agree =>
    representable.congr fun operand member =>
      agree operand (inside operand (List.mem_append_right _ member))
  have ring :=
    Means.addRing forward (Nat.lt_of_lt_of_le ofLeft.part_lt rightGrows.size_le) ofRight.part_lt
      (Nat.lt_of_lt_of_le resultInside (leftGrows.trans rightGrows).size_le)
  refine both.trans ring (fun {assignment} fulfilled => ?_) fun {first second} holds agree => ?_
  · obtain ⟨leftFulfilled, rightFulfilled⟩ :=
      (leftGrows.fulfilled_trans_iff rightGrows).mp fulfilled
    rw [combines, ofLeft.value_eq leftFulfilled, ofRight.value_eq rightFulfilled, value]
  · rw [← agree result resultInside, ← holds]
    exact (value_congr fun operand member => agree operand (inside operand member)).symm

/-- The variable of a part has its value, by induction on the tree. -/
theorem partMeans_lowerPart (tree : OperandTree) (before : Lowering)
    (inside : ∀ operand ∈ tree.leaves, operand < before.vars.size) :
    tree.PartMeans combine before (tree.lowerPart operation before).2
      (tree.lowerPart operation before).1 := by
  induction tree generalizing before with
  | leaf operand => exact ⟨.refl before, inside operand List.mem_cons_self, fun _ => rfl⟩
  | node left right leftHypothesis rightHypothesis =>
    have addGrows := grows_addVariable before
    have insideAdded : ∀ operand ∈ (node left right).leaves,
        operand < before.addVariable.2.vars.size := fun operand member =>
          Nat.lt_of_lt_of_le (inside operand member) addGrows.size_le
    have resultInside : before.vars.size < before.addVariable.2.vars.size := by
      rw [size_addVariable]
      exact Nat.lt_succ_self _
    have ofLeft := leftHypothesis before.addVariable.2 fun operand member =>
      insideAdded operand (List.mem_append_left _ member)
    obtain ⟨_, leftGrows⟩ := ofLeft.means.exists_grows
    have ofRight :=
      rightHypothesis (left.lowerPart operation before.addVariable.2).2 fun operand member =>
        Nat.lt_of_lt_of_le (insideAdded operand (List.mem_append_right _ member)) leftGrows.size_le
    have means := means_node forward combines ofLeft ofRight insideAdded resultInside
    obtain ⟨_, grows⟩ := means.exists_grows
    refine ⟨means.addVariable fun {first second} agree => ⟨fun representable => ?_, ?_⟩,
      Nat.lt_of_lt_of_le resultInside grows.size_le, fun fulfilled => ?_⟩
    · exact ⟨representable.1.congr fun operand member =>
        agree operand (inside operand (List.mem_append_left _ member)),
        representable.2.congr fun operand member =>
          agree operand (inside operand (List.mem_append_right _ member))⟩
    · exact value_congr fun operand member => agree operand (inside operand member)
    · exact (means.means ((addGrows.fulfilled_trans_iff grows).mp fulfilled).2).2.symm

/-- Lowering a tree means that the result is its value and that all inner results can be
represented. -/
theorem means_lower (tree : OperandTree) (before : Lowering) {result : VariableId}
    (inside : ∀ operand ∈ tree.leaves, operand < before.vars.size)
    (resultInside : result < before.vars.size) :
    before.Means (tree.lower operation result before) fun assignment =>
      tree.InnerRepresentable combine assignment ∧
        tree.value combine assignment = assignment result := by
  cases tree with
  | leaf operand =>
    have equal := @Means.addRelation before .eq _ _ (inside operand List.mem_cons_self) resultInside
    exact equal.imp fun _ => ⟨fun same => ⟨trivial, same⟩, And.right⟩
  | node left right =>
    have ofLeft := left.partMeans_lowerPart forward combines before fun operand member =>
      inside operand (List.mem_append_left _ member)
    obtain ⟨_, leftGrows⟩ := ofLeft.means.exists_grows
    have ofRight := right.partMeans_lowerPart forward combines (left.lowerPart operation before).2
      fun operand member =>
        Nat.lt_of_lt_of_le (inside operand (List.mem_append_right _ member)) leftGrows.size_le
    exact means_node forward combines ofLeft ofRight inside resultInside

end OperandTree

namespace OperandTree

variable {combine : Int → Int → Int} {assignment : VariableId → Int}

/-- If all results can be represented, the inner ones can. -/
theorem Representable.inner {tree : OperandTree}
    (representable : tree.Representable combine assignment) :
    tree.InnerRepresentable combine assignment := by
  cases tree with
  | leaf operand => trivial
  | node left right => exact representable.2

/-- Where the operands of an operation are small whenever its value is, a tree with a small value
has only representable values inside. -/
theorem representable_of_small (small : Int → Prop)
    (le_ceiling : ∀ {value}, small value → value ≤ valueCeiling)
    (inherits : ∀ {left right}, valueFloor ≤ left → valueFloor ≤ right →
      valueFloor ≤ combine left right ∧ (small (combine left right) → small left ∧ small right))
    {tree : OperandTree} (leaves : ∀ operand ∈ tree.leaves, valueFloor ≤ assignment operand) :
    valueFloor ≤ tree.value combine assignment ∧
      (small (tree.value combine assignment) → tree.Representable combine assignment) := by
  induction tree with
  | leaf operand => exact ⟨leaves operand List.mem_cons_self, fun _ => trivial⟩
  | node left right leftHypothesis rightHypothesis =>
    obtain ⟨leftFloor, leftRepresentable⟩ := leftHypothesis fun operand inside =>
      leaves operand (List.mem_append_left _ inside)
    obtain ⟨rightFloor, rightRepresentable⟩ := rightHypothesis fun operand inside =>
      leaves operand (List.mem_append_right _ inside)
    obtain ⟨wholeFloor, ofSmall⟩ := inherits leftFloor rightFloor
    refine ⟨wholeFloor, fun smallWhole => ?_⟩
    obtain ⟨smallLeft, smallRight⟩ := ofSmall smallWhole
    exact ⟨Domain.mem_full.mpr ⟨wholeFloor, le_ceiling smallWhole⟩, leftRepresentable smallLeft,
      rightRepresentable smallRight⟩

/-- Operands of a sum that are not negative do not exceed it. -/
theorem representable_add {tree : OperandTree}
    (leaves : ∀ operand ∈ tree.leaves, valueFloor ≤ assignment operand)
    (small : tree.value (· + ·) assignment ≤ valueCeiling) :
    tree.Representable (· + ·) assignment := by
  refine (representable_of_small (· ≤ valueCeiling) id (fun {left right} leftFloor rightFloor => ?_)
    leaves).2 small
  simp only [valueFloor] at leftFloor rightFloor ⊢
  omega

/-- Factors that are not negative do not exceed their product, unless it is zero. -/
theorem representable_mul {tree : OperandTree}
    (leaves : ∀ operand ∈ tree.leaves, valueFloor ≤ assignment operand)
    (small : tree.value (· * ·) assignment ≤ valueCeiling)
    (nonzero : tree.value (· * ·) assignment ≠ 0) : tree.Representable (· * ·) assignment := by
  refine (representable_of_small (fun value => value ≤ valueCeiling ∧ value ≠ 0) And.left
    (fun {left right} leftFloor rightFloor => ⟨Int.mul_nonneg leftFloor rightFloor, ?_⟩) leaves).2
    ⟨small, nonzero⟩
  rintro ⟨wholeSmall, wholeNonzero⟩
  obtain ⟨leftNonzero, rightNonzero⟩ := Int.mul_ne_zero_iff.mp wholeNonzero
  simp only [valueFloor] at leftFloor rightFloor
  have leftLe : left * 1 ≤ left * right := Int.mul_le_mul_of_nonneg_left (by omega) leftFloor
  have rightLe : 1 * right ≤ left * right := Int.mul_le_mul_of_nonneg_right (by omega) rightFloor
  omega

end OperandTree

/-! ### Constraints -/

namespace Constraint

open Lowering

/-- Every inner result of the constraint is a value that variables can have. -/
def InnerRepresentable (constraint : Constraint) (assignment : VariableId → Int) : Prop :=
  match constraint.operator with
  | .sum =>
    ∀ tree, OperandTree.balanced? constraint.operands = some tree →
      tree.InnerRepresentable (· + ·) assignment
  | .product =>
    ∀ tree, OperandTree.balanced? constraint.operands = some tree →
      tree.InnerRepresentable (· * ·) assignment
  | _ => True

/-- Lowering pairs means that the variables of each of them differ. -/
theorem means_pairs (pairs : List (VariableId × VariableId)) (before : Lowering)
    (inside : ∀ pair ∈ pairs, pair.1 < before.vars.size ∧ pair.2 < before.vars.size) :
    before.Means (pairs.foldl (fun lowering pair => lowering.addRelation .neq pair.1 pair.2) before)
      fun assignment => ∀ pair ∈ pairs, assignment pair.1 ≠ assignment pair.2 := by
  induction pairs generalizing before with
  | nil => exact (Means.refl before).imp fun _ => by simp
  | cons first rest inductionHypothesis =>
    obtain ⟨leftInside, rightInside⟩ := inside first List.mem_cons_self
    have restInside : ∀ pair ∈ rest, pair.1 < before.vars.size ∧ pair.2 < before.vars.size :=
      fun pair member => inside pair (List.mem_cons_of_mem _ member)
    have ofFirst := @Means.addRelation before .neq _ _ leftInside rightInside
    have ofRest := inductionHypothesis (before.addRelation .neq first.1 first.2) restInside
    refine (ofFirst.trans ofRest (fun _ => Iff.rfl)
      fun {former other} different agree pair member => ?_).imp fun _ => ?_
    · rw [← agree pair.1 (restInside pair member).1, ← agree pair.2 (restInside pair member).2]
      exact different pair member
    · rw [List.forall_mem_cons]
      exact Iff.rfl

/-- Lowering a constraint means that it holds and that its inner results are values which variables
can have. -/
theorem means_lower {constraint : Constraint} (wellFormed : constraint.WellFormed)
    (before : Lowering) (inside : ∀ variableId ∈ constraint.scope, variableId < before.vars.size) :
    before.Means (constraint.lower before) fun assignment =>
      constraint.InnerRepresentable assignment ∧ constraint.Holds assignment := by
  have ofRing : ∀ {operation : RingOperation} {left right result : VariableId},
      operation = .plus ∨ operation = .mul → left ∈ constraint.scope → right ∈ constraint.scope →
        result ∈ constraint.scope →
          before.Means (before.addRing operation left right result) fun assignment =>
            operation.Holds (assignment left) (assignment right) (assignment result) :=
      fun forward leftInside rightInside resultInside =>
        .addRing forward (inside _ leftInside) (inside _ rightInside) (inside _ resultInside)
  have ofTree : ∀ {operation : RingOperation} {combine : Int → Int → Int} {result : VariableId},
      operation = .plus ∨ operation = .mul →
      (∀ first second third, operation.Holds first second third ↔ combine first second = third) →
      constraint.operands ≠ [] → result ∈ constraint.scope →
        ∃ tree, OperandTree.balanced? constraint.operands = some tree ∧
          tree.leaves = constraint.operands ∧
            before.Means ((OperandTree.balanced? constraint.operands).elim before fun tree =>
              tree.lower operation result before) fun assignment =>
                tree.InnerRepresentable combine assignment ∧
                  tree.value combine assignment = assignment result := by
    intro operation combine result forward combines hasOperands resultInside
    obtain ⟨tree, balanced, treeLeaves⟩ := OperandTree.exists_balanced? hasOperands
    refine ⟨tree, balanced, treeLeaves, ?_⟩
    rw [balanced]
    exact tree.means_lower forward combines before
      (fun operand member => inside operand (List.mem_append_left _ (treeLeaves ▸ member)))
      (inside result resultInside)
  cases wellFormed with
  | compare comparison left right =>
    exact (Means.addRelation (inside left (by simp [scope])) (inside right (by simp [scope]))).imp
      fun _ => ⟨fun holds => ⟨trivial, holds⟩, And.right⟩
  | distinct operands =>
    refine (means_pairs (orderedPairs operands) before fun pair member => ?_).imp fun assignment =>
      ?_
    · have members := mem_of_mem_orderedPairs member
      exact ⟨inside pair.1 (List.mem_append_left _ members.1),
        inside pair.2 (List.mem_append_left _ members.2)⟩
    · rw [@forall_orderedPairs_iff _ fun first second => assignment first ≠ assignment second,
        ← List.pairwise_map]
      exact ⟨fun different => ⟨trivial, different⟩, And.right⟩
  | plus left right result =>
    exact (ofRing (.inl rfl) (by simp [scope]) (by simp [scope]) (by simp [scope])).imp fun _ =>
      ⟨fun holds => ⟨trivial, holds⟩, And.right⟩
  | minus left right result =>
    refine (ofRing (.inl rfl) (by simp [scope]) (by simp [scope]) (by simp [scope])).imp
      fun assignment => ?_
    refine ⟨fun holds => ⟨trivial, Int.sub_eq_iff_eq_add.mpr holds.symm⟩, ?_⟩
    rintro ⟨_, difference⟩
    exact (Int.sub_eq_iff_eq_add.mp difference).symm
  | mul left right result =>
    exact (ofRing (.inr rfl) (by simp [scope]) (by simp [scope]) (by simp [scope])).imp fun _ =>
      ⟨fun holds => ⟨trivial, holds⟩, And.right⟩
  | div left right result =>
    exact (ofRing (.inr rfl) (by simp [scope]) (by simp [scope]) (by simp [scope])).imp fun _ =>
      ⟨fun holds => ⟨trivial, holds⟩, And.right⟩
  | sum operands result hasOperands =>
    obtain ⟨tree, balanced, treeLeaves, means⟩ :=
      ofTree (.inl rfl) (fun _ _ _ => Iff.rfl) hasOperands (show result ∈ _ by simp [scope])
    refine means.imp fun assignment => and_congr ?_ ?_
    · simp [InnerRepresentable, balanced]
    · rw [OperandTree.value_add, treeLeaves]
      exact Iff.rfl
  | product operands result hasOperands =>
    obtain ⟨tree, balanced, treeLeaves, means⟩ :=
      ofTree (.inr rfl) (fun _ _ _ => Iff.rfl) hasOperands (show result ∈ _ by simp [scope])
    refine means.imp fun assignment => and_congr ?_ ?_
    · simp [InnerRepresentable, balanced]
    · rw [OperandTree.value_mul, treeLeaves]
      exact Iff.rfl
  | reify comparison left right result =>
    exact (Means.addReified (inside left (by simp [scope])) (inside right (by simp [scope]))
      (inside result (by simp [scope]))).imp fun _ => ⟨fun holds => ⟨trivial, holds⟩, And.right⟩

/-- The inner results of a constraint that holds are values which variables can have, unless it is a
product of zero. -/
theorem innerRepresentable_of_holds {constraint : Constraint} {assignment : VariableId → Int}
    (wellFormed : constraint.WellFormed)
    (bounded : ∀ variableId ∈ constraint.scope, valueFloor ≤ assignment variableId ∧
      assignment variableId ≤ valueCeiling)
    (nonzero : constraint.operator = .product → ∀ result, constraint.result = some result →
      assignment result ≠ 0) (holds : constraint.Holds assignment) :
        constraint.InnerRepresentable assignment := by
  cases wellFormed with
  | sum operands result hasOperands =>
    intro tree balanced
    have treeLeaves := OperandTree.leaves_of_balanced? balanced
    have total : tree.value (· + ·) assignment = assignment result := by
      rw [OperandTree.value_add, treeLeaves]
      exact holds
    refine (OperandTree.representable_add (fun operand member => ?_) ?_).inner
    · exact (bounded operand (List.mem_append_left _ (treeLeaves ▸ member))).1
    · rw [total]
      exact (bounded result (by simp [scope])).2
  | product operands result hasOperands =>
    intro tree balanced
    have treeLeaves := OperandTree.leaves_of_balanced? balanced
    have total : tree.value (· * ·) assignment = assignment result := by
      rw [OperandTree.value_mul, treeLeaves]
      exact holds
    refine (OperandTree.representable_mul (fun operand member => ?_) ?_ ?_).inner
    · exact (bounded operand (List.mem_append_left _ (treeLeaves ▸ member))).1
    · rw [total]
      exact (bounded result (by simp [scope])).2
    · rw [total]
      exact nonzero rfl result rfl
  | _ => trivial

/-- **Products.** Values of the operands of a product and of its result can be extended to the added
variables exactly if the product is right and every inner product is a value that variables can
have, and then in one way only. The latter condition only matters to a product of zero, which is
lost where it fails. -/
theorem exists_extends_product_iff {operands : List VariableId} {result : VariableId}
    (hasOperands : operands ≠ []) {before : Lowering}
    (inside : ∀ variableId ∈ operands ++ [result], variableId < before.vars.size)
    {assignment : VariableId → Int} (bounded : ∀ variableId ∈ operands ++ [result],
      valueFloor ≤ assignment variableId ∧ assignment variableId ≤ valueCeiling) :
    ((∃ extended, before.Extends (lower ⟨.product, operands, some result⟩ before) assignment
      extended) ↔ (operands.map assignment).foldr (· * ·) 1 = assignment result ∧
        InnerRepresentable ⟨.product, operands, some result⟩ assignment) ∧
    (assignment result ≠ 0 →
      ((∃ extended, before.Extends (lower ⟨.product, operands, some result⟩ before) assignment
        extended) ↔ (operands.map assignment).foldr (· * ·) 1 = assignment result)) ∧
    (∀ first second, before.Extends (lower ⟨.product, operands, some result⟩ before) assignment
      first → before.Extends (lower ⟨.product, operands, some result⟩ before) assignment second →
        ∀ variableId < (lower ⟨.product, operands, some result⟩ before).vars.size,
          first variableId = second variableId) ∧
    ∀ variableId, before.vars.size ≤ variableId →
      variableId < (lower ⟨.product, operands, some result⟩ before).vars.size →
        (lower ⟨.product, operands, some result⟩ before).vars.domainOf variableId = .full := by
  have wellFormed := WellFormed.product operands result hasOperands
  have means := means_lower wellFormed before inside
  obtain ⟨_, grows⟩ := means.exists_grows
  have exists_iff := (@Means.iff_exists_extends _ _ assignment _ means).symm.trans and_comm
  refine ⟨exists_iff, fun nonzero => exists_iff.trans (and_iff_left_of_imp fun holds => ?_),
    fun _ _ => means.eq_of_extends, fun _ => grows.domainOf_full⟩
  refine innerRepresentable_of_holds wellFormed bounded (fun _ other isResult => ?_) holds
  cases isResult
  exact nonzero

end Constraint

/-- Three factors, the first of which is zero, while the product of the others is too great for a
variable. -/
def Workspace.vanishing : Workspace :=
  .ofRequests
    [.declareRange "A" 0 0, .declareRange "B" 20000 20000, .declareRange "C" 20000 20000,
      .declareRange "R" 0 0, .declareConstraint .product [.named "A", .named "B", .named "C"]
      (some (.named "R"))]

/-- The product is right, but the network has no room for the product of the last two factors. -/
theorem Workspace.not_exists_extends_vanishing :
    ⟨.product, [0, 1, 2], some 3⟩ ∈ vanishing.model.constraints.toList ∧
      Constraint.Holds ⟨.product, [0, 1, 2], some 3⟩ ([0, 20000, 20000, 0].getD · 0) ∧
      ¬ ∃ extended, vanishing.model.lowering.Extends
        (Constraint.lower ⟨.product, [0, 1, 2], some 3⟩ vanishing.model.lowering)
          ([0, 20000, 20000, 0].getD · 0) extended := by
  have declared : ⟨.product, [0, 1, 2], some 3⟩ ∈ vanishing.model.constraints.toList := by
    decide +kernel
  have inside : ∀ variableId ∈ [0, 1, 2, 3], variableId < vanishing.model.vars.size := by
    decide +kernel
  refine ⟨declared, rfl, fun extended => ?_⟩
  have bounded : ∀ variableId ∈ [0, 1, 2] ++ [3],
      valueFloor ≤ [0, 20000, 20000, 0].getD variableId 0 ∧
        [0, 20000, 20000, 0].getD variableId 0 ≤ valueCeiling := by
    decide
  obtain ⟨_, representable⟩ :=
    (Constraint.exists_extends_product_iff (by simp) inside bounded).1.mp extended
  have balanced : OperandTree.balanced? [0, 1, 2] =
      some (.node (.leaf 0) (.node (.leaf 1) (.leaf 2))) := by
    simp [OperandTree.balanced?]
  obtain ⟨_, room, _⟩ := representable _ balanced
  exact absurd (Domain.mem_full.mp room).2 (by decide)

/-- **Exactness.** Values of the operands and of the result of a constraint of a reachable model
that is not a product satisfy it exactly if they can be extended to the variables which lowering the
constraint adds, and then in one way only. It does not matter which constraints were lowered
before. -/
theorem Workspace.Reachable.holds_iff_exists_extends {workspace : Workspace}
    (reachable : workspace.Reachable) {constraint : Constraint}
    (declared : constraint ∈ workspace.model.constraints.toList)
    (notProduct : constraint.operator ≠ .product) {before : Lowering}
    (former : workspace.model.vars.size ≤ before.vars.size) {assignment : VariableId → Int}
    (bounded : ∀ variableId ∈ constraint.scope,
      valueFloor ≤ assignment variableId ∧ assignment variableId ≤ valueCeiling) :
    (constraint.Holds assignment ↔
      ∃ extended, before.Extends (constraint.lower before) assignment extended) ∧
    (∀ first second, before.Extends (constraint.lower before) assignment first →
      before.Extends (constraint.lower before) assignment second →
        ∀ variableId < (constraint.lower before).vars.size, first variableId = second variableId) ∧
    ∀ variableId, before.vars.size ≤ variableId → variableId < (constraint.lower before).vars.size →
      (constraint.lower before).vars.domainOf variableId = .full := by
  have wellFormed := reachable.sound.wellFormed constraint declared
  have means := Constraint.means_lower wellFormed before fun variableId reads =>
    Nat.lt_of_lt_of_le (reachable.sound.inside constraint declared variableId reads) former
  obtain ⟨_, grows⟩ := means.exists_grows
  refine ⟨?_, fun _ _ => means.eq_of_extends, fun _ => grows.domainOf_full⟩
  rw [← means.iff_exists_extends]
  exact (and_iff_right_of_imp (Constraint.innerRepresentable_of_holds wellFormed bounded
    fun isProduct => absurd isProduct notProduct)).symm

/-- Three summands, whose sum is kept in a variable without a name. -/
def Workspace.summed : Workspace :=
  .ofRequests
    [.declareRange "A" 0 9, .declareRange "B" 0 9, .declareRange "C" 0 9,
      .declareConstraint .sum [.named "A", .named "B", .named "C"] none]

/-- There is room for the sum of the last two summands. -/
theorem Workspace.exists_extends_summed :
    ∃ extended, summed.model.lowering.Extends
      (Constraint.lower ⟨.sum, [0, 1, 2], some 3⟩ summed.model.lowering) ([1, 2, 3, 6].getD · 0)
        extended := by
  have declared : ⟨.sum, [0, 1, 2], some 3⟩ ∈ summed.model.constraints.toList := by
    decide +kernel
  have bounded : ∀ variableId ∈ [0, 1, 2, 3], valueFloor ≤ [1, 2, 3, 6].getD variableId 0 ∧
      [1, 2, 3, 6].getD variableId 0 ≤ valueCeiling := by
    decide
  exact ((reachable_ofRequests _).holds_iff_exists_extends declared (by simp) (Nat.le_refl _)
    bounded).1.mp rfl

end ConstraintSearch
