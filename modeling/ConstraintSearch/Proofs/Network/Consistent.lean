import ConstraintSearch.Network.Lowering
import ConstraintSearch.Proofs.Propagation.Idempotence

/-!
# Constraints on domains

Domains are consistent with a constraint when all propagators that the constraint is lowered to keep
them, for suitable domains of the variables that the lowering adds. `Constraint.Consistent` says so
without those variables, as a property of the domains of the operands and of the result alone; on
fixed variables it comes down to the relation of the constraint.
-/

namespace ConstraintSearch

/-! ### Well-formed constraints -/

/-- The constraints that can be declared: as many operands as the operator takes, and a result if it
produces a value. -/
inductive Constraint.WellFormed : Constraint → Prop
  | compare (comparison : Comparison) (left right : VariableId) :
      WellFormed ⟨.compare comparison, [left, right], none⟩
  | distinct (operands : List VariableId) : WellFormed ⟨.distinct, operands, none⟩
  | plus (left right result : VariableId) : WellFormed ⟨.plus, [left, right], some result⟩
  | minus (left right result : VariableId) : WellFormed ⟨.minus, [left, right], some result⟩
  | mul (left right result : VariableId) : WellFormed ⟨.mul, [left, right], some result⟩
  | div (left right result : VariableId) : WellFormed ⟨.div, [left, right], some result⟩
  | sum (operands : List VariableId) (result : VariableId) (hasOperands : operands ≠ []) :
      WellFormed ⟨.sum, operands, some result⟩
  | product (operands : List VariableId) (result : VariableId) (hasOperands : operands ≠ []) :
      WellFormed ⟨.product, operands, some result⟩
  | reify (comparison : Comparison) (left right result : VariableId) :
      WellFormed ⟨.reify comparison, [left, right], some result⟩

namespace Constraint

/-- The operands of the constraint and its result. -/
def scope (constraint : Constraint) : List VariableId :=
  constraint.operands ++ constraint.result.toList

/-- The result of a reified comparison. -/
def truthVariable? (constraint : Constraint) : Option VariableId :=
  if constraint.operator.isReified then constraint.result else none

/-- The truth value of a constraint is the result of a reified comparison. -/
theorem truthVariable?_eq_some_iff {constraint : Constraint} {result : VariableId} :
    constraint.truthVariable? = some result ↔
      constraint.operator.isReified ∧ constraint.result = some result := by
  rw [truthVariable?, Option.ite_none_right_eq_some]

/-- It is a variable of the constraint. -/
theorem mem_scope_of_truthVariable? {constraint : Constraint} {result : VariableId}
    (isTruth : constraint.truthVariable? = some result) : result ∈ constraint.scope :=
  List.mem_append_right _ (Option.mem_toList.mpr (truthVariable?_eq_some_iff.mp isTruth).2)

/-- The constraint asks whether a variable comes before or after itself: a strict order on one
variable, or a reified order whose negation may be strict. -/
def OrdersItself (constraint : Constraint) : Prop :=
  match constraint.operator, constraint.operands with
  | .compare comparison, [left, right] => comparison.isStrict ∧ left = right
  | .reify comparison, [left, right] =>
    (comparison.isStrict ∨ comparison.negate.isStrict) ∧ left = right
  | _, _ => False

end Constraint

/-! ### Operations -/

/-- The propagators of an operation keep the domains of its operands and of its result. -/
structure RingOperation.Consistent (operation : RingOperation) (left right result : Domain) :
    Prop where
  result_subset : result ⊆ operation.apply left right
  left_subset : left ⊆ operation.inverse.apply result right
  right_subset : right ⊆ operation.inverse.apply result left

namespace OperandTree

variable {operation : RingOperation} {family : Family}

/-- The domain is possible for the value of the tree. -/
def Yields (operation : RingOperation) (family : Family) : OperandTree → Domain → Prop
  | leaf operand, result => family operand = result
  | node left right, result =>
    result.Nonempty ∧ ∃ leftPart rightPart, left.Yields operation family leftPart ∧
      right.Yields operation family rightPart ∧ operation.Consistent leftPart rightPart result

/-- The domain is consistent with the value of the tree as its result. -/
def Closes (operation : RingOperation) (family : Family) (result : Domain) : OperandTree → Prop
  | leaf operand => Comparison.eq.Supported (family operand) result
  | node left right =>
    ∃ leftPart rightPart, left.Yields operation family leftPart ∧
      right.Yields operation family rightPart ∧ operation.Consistent leftPart rightPart result

/-- What a tree yields depends on the domains of its operands only. -/
theorem Yields.congr {first second : Family} {tree : OperandTree} {result : Domain}
    (yields : tree.Yields operation first result)
    (agree : ∀ operand ∈ tree.leaves, first operand = second operand) :
    tree.Yields operation second result := by
  induction tree generalizing result with
  | leaf operand => exact (agree operand List.mem_cons_self).symm.trans yields
  | node left right leftHypothesis rightHypothesis =>
    obtain ⟨nonempty, leftPart, rightPart, leftYields, rightYields, consistent⟩ := yields
    refine ⟨nonempty, leftPart, rightPart, leftHypothesis leftYields fun operand inside => ?_,
      rightHypothesis rightYields fun operand inside => ?_, consistent⟩
    · exact agree operand (List.mem_append_left _ inside)
    · exact agree operand (List.mem_append_right _ inside)

/-- So does what closes it. -/
theorem Closes.congr {first second : Family} {tree : OperandTree} {result : Domain}
    (closes : tree.Closes operation first result)
    (agree : ∀ operand ∈ tree.leaves, first operand = second operand) :
    tree.Closes operation second result := by
  cases tree with
  | leaf operand =>
    rw [Closes, ← agree operand List.mem_cons_self]
    exact closes
  | node left right =>
    obtain ⟨leftPart, rightPart, leftYields, rightYields, consistent⟩ := closes
    refine ⟨leftPart, rightPart, leftYields.congr fun operand inside => ?_,
      rightYields.congr fun operand inside => ?_, consistent⟩
    · exact agree operand (List.mem_append_left _ inside)
    · exact agree operand (List.mem_append_right _ inside)

/-! ### The value of a tree -/

/-- What a tree of operations gives on values of the operands. -/
def value (combine : Int → Int → Int) (assignment : VariableId → Int) : OperandTree → Int
  | leaf operand => assignment operand
  | node left right => combine (left.value combine assignment) (right.value combine assignment)

/-- A tree of an associative operation combines its leaves from the right. -/
theorem value_eq_foldr {combine : Int → Int → Int} {unit : Int}
    (assoc : ∀ first second third, combine (combine first second) third =
      combine first (combine second third))
    (combine_unit : ∀ value, combine value unit = value)
    (unit_combine : ∀ value, combine unit value = value)
    (tree : OperandTree) (assignment : VariableId → Int) :
    tree.value combine assignment = (tree.leaves.map assignment).foldr combine unit := by
  have append : ∀ values others : List Int,
      (values ++ others).foldr combine unit = combine (values.foldr combine unit)
      (others.foldr combine unit) := by
    intro values others
    induction values with
    | nil => exact (unit_combine _).symm
    | cons first rest inductionHypothesis =>
      rw [List.cons_append, List.foldr_cons, List.foldr_cons, inductionHypothesis, assoc]
  induction tree with
  | leaf operand => exact (combine_unit _).symm
  | node left right leftHypothesis rightHypothesis =>
    rw [value, leaves, List.map_append, append, leftHypothesis, rightHypothesis]

/-- Sums do not depend on the shape of the tree. -/
theorem value_add (tree : OperandTree) (assignment : VariableId → Int) :
    tree.value (· + ·) assignment = (tree.leaves.map assignment).foldr (· + ·) 0 :=
  value_eq_foldr Int.add_assoc Int.add_zero Int.zero_add tree assignment

/-- Products do not depend on it either. -/
theorem value_mul (tree : OperandTree) (assignment : VariableId → Int) :
    tree.value (· * ·) assignment = (tree.leaves.map assignment).foldr (· * ·) 1 :=
  value_eq_foldr Int.mul_assoc Int.mul_one Int.one_mul tree assignment

/-- On fixed operands an operation has one possible result. -/
theorem solved_of_consistent {combine : Int → Int → Int} {left right result : Domain}
    {leftValue rightValue : Int} (combines : ∀ first second third,
      operation.Holds first second third ↔ combine first second = third)
    (leftSolved : left.solvedValue? = some leftValue)
    (rightSolved : right.solvedValue? = some rightValue)
    (nonempty : result.Nonempty) (consistent : operation.Consistent left right result) :
    result.solvedValue? = some (combine leftValue rightValue) := by
  have only : ∀ value ∈ result, value = combine leftValue rightValue := by
    intro value member
    have applied := consistent.result_subset value member
    rw [RingOperation.mem_apply_iff_holds leftSolved rightSolved (Domain.bounds member), combines]
      at applied
    exact applied.symm
  refine Domain.solvedValue?_eq_some_iff.mpr fun value => ⟨only value, ?_⟩
  rintro rfl
  obtain ⟨value, member⟩ := nonempty
  exact only value member ▸ member

variable {combine : Int → Int → Int} {assignment : VariableId → Int}
  (combines : ∀ first second third, operation.Holds first second third ↔
    combine first second = third)

include combines

/-- A tree over fixed operands yields just its value. -/
theorem Yields.solved {tree : OperandTree} {result : Domain}
    (yields : tree.Yields operation family result)
    (solved : ∀ operand ∈ tree.leaves, (family operand).solvedValue? = some (assignment operand)) :
    result.solvedValue? = some (tree.value combine assignment) := by
  induction tree generalizing result with
  | leaf operand => exact yields ▸ solved operand List.mem_cons_self
  | node left right leftHypothesis rightHypothesis =>
    obtain ⟨nonempty, leftPart, rightPart, leftYields, rightYields, consistent⟩ := yields
    have leftSolved := leftHypothesis leftYields fun operand inside =>
      solved operand (List.mem_append_left _ inside)
    have rightSolved := rightHypothesis rightYields fun operand inside =>
      solved operand (List.mem_append_right _ inside)
    exact solved_of_consistent combines leftSolved rightSolved nonempty consistent

/-- On fixed variables a tree gives its result. -/
theorem Closes.value_eq {tree : OperandTree} {result : Domain} {value : Int}
    (closes : tree.Closes operation family result)
    (solved : ∀ operand ∈ tree.leaves, (family operand).solvedValue? = some (assignment operand))
    (resultSolved : result.solvedValue? = some value) : tree.value combine assignment = value := by
  cases tree with
  | leaf operand =>
    exact (Comparison.supported_iff_holds (solved operand List.mem_cons_self) resultSolved).mp
      closes
  | node left right =>
    obtain ⟨leftPart, rightPart, leftYields, rightYields, consistent⟩ := closes
    have nonempty : result.Nonempty := ⟨value, Domain.mem_of_solvedValue? resultSolved⟩
    have whole : (node left right).Yields operation family result :=
      ⟨nonempty, leftPart, rightPart, leftYields, rightYields, consistent⟩
    have treeSolved := whole.solved combines solved
    rw [treeSolved] at resultSolved
    exact Option.some.inj resultSolved

end OperandTree

/-! ### Balanced trees -/

namespace OperandTree

/-- Two or more operands have two halves, both with an operand. -/
theorem halves_ne_nil {operands : List VariableId} (two : 2 ≤ operands.length) :
    operands.take (operands.length / 2) ≠ [] ∧ operands.drop (operands.length / 2) ≠ [] := by
  constructor
  · rw [ne_eq, List.take_eq_nil_iff]
    rintro (half | empty)
    · omega
    · simp [empty] at two
  · rw [ne_eq, List.drop_eq_nil_iff]
    omega

/-- The tree halves the operands at every node, down to single ones. -/
inductive Halves : List VariableId → OperandTree → Prop
  | leaf (operand : VariableId) : Halves [operand] (.leaf operand)
  | node {operands : List VariableId} {left right : OperandTree} (several : 2 ≤ operands.length)
    (lower : Halves (operands.take (operands.length / 2)) left)
    (upper : Halves (operands.drop (operands.length / 2)) right) :
    Halves operands (.node left right)

/-- Operands have a balanced tree, and it halves them. -/
theorem exists_halves {operands : List VariableId} (hasOperands : operands ≠ []) :
    ∃ tree, balanced? operands = some tree ∧ Halves operands tree := by
  refine balanced?.induct_unfolding
    (motive := fun operands found => operands ≠ [] → ∃ tree,
      found = some tree ∧ Halves operands tree)
    ?empty ?single ?halved ?missing operands hasOperands
  case empty => exact fun hasOperands => absurd rfl hasOperands
  case single =>
    intro operand _
    exact ⟨.leaf operand, rfl, .leaf operand⟩
  case halved =>
    intro first second others operands left right rightFound leftFound leftHalves rightHalves _
    have several : 2 ≤ operands.length := by simp [operands]
    obtain ⟨_, isLeft, lower⟩ := leftHalves (halves_ne_nil several).1
    obtain ⟨_, isRight, upper⟩ := rightHalves (halves_ne_nil several).2
    cases leftFound.symm.trans isLeft
    cases rightFound.symm.trans isRight
    exact ⟨.node left right, rfl, .node several lower upper⟩
  case missing =>
    intro first second others operands missing leftHalves rightHalves _
    have several : 2 ≤ operands.length := by simp [operands]
    obtain ⟨left, isLeft, _⟩ := leftHalves (halves_ne_nil several).1
    obtain ⟨right, isRight, _⟩ := rightHalves (halves_ne_nil several).2
    exact (missing left right isLeft isRight).elim

/-- A balanced tree halves the operands that it is made for. -/
theorem halves_of_balanced? {operands : List VariableId} {tree : OperandTree}
    (balanced : balanced? operands = some tree) : Halves operands tree := by
  have hasOperands : operands ≠ [] := by
    rintro rfl
    simp [balanced?] at balanced
  obtain ⟨other, found, halves⟩ := exists_halves hasOperands
  cases balanced.symm.trans found
  exact halves

/-- A tree that halves the operands has them as leaves, in their order. -/
theorem Halves.leaves_eq {operands : List VariableId} {tree : OperandTree}
    (halves : Halves operands tree) : tree.leaves = operands := by
  induction halves with
  | leaf operand => rfl
  | node several lower upper lowerHypothesis upperHypothesis =>
    rw [leaves, lowerHypothesis, upperHypothesis, List.take_append_drop]

/-- Operands have a balanced tree, whose leaves they are. -/
theorem exists_balanced? {operands : List VariableId} (hasOperands : operands ≠ []) :
    ∃ tree, balanced? operands = some tree ∧ tree.leaves = operands := by
  obtain ⟨tree, balanced, halves⟩ := exists_halves hasOperands
  exact ⟨tree, balanced, halves.leaves_eq⟩

/-- The leaves of a balanced tree are the operands that it is made for. -/
theorem leaves_of_balanced? {operands : List VariableId} {tree : OperandTree}
    (balanced : balanced? operands = some tree) : tree.leaves = operands :=
  (halves_of_balanced? balanced).leaves_eq

end OperandTree

/-! ### Consistency of constraints -/

namespace Propagator

/-- The propagator of a comparison; one that asks for the greater operand first is turned round. -/
def ofComparison (comparison : Comparison) (left right : VariableId) : Propagator :=
  match comparison with
  | .gt => relation .lt right left
  | .gte => relation .lte right left
  | other => relation other left right

/-- The propagator of a reified comparison, turned round like one that is not reified. -/
def ofReified (comparison : Comparison) (left right result : VariableId) : Propagator :=
  match comparison with
  | .gt => reified .lt right left result
  | .gte => reified .lte right left result
  | other => reified other left right result

/-- The propagators of an operation: one for the result and one for each operand. -/
def ofRing (operation : RingOperation) (left right result : VariableId) : List Propagator :=
  [ring operation left right result, ring operation.inverse result right left,
    ring operation.inverse result left right]

/-- The propagators of an operation keep the domains that are consistent with it. -/
theorem keeps_ofRing_iff {operation : RingOperation} {left right result : VariableId}
    {family : Family} :
    (∀ propagator ∈ ofRing operation left right result, propagator.Keeps family) ↔
      operation.Consistent (family left) (family right) (family result) := by
  simp only [ofRing, List.forall_mem_cons, List.not_mem_nil, false_implies, implies_true, and_true,
    keeps_ring_iff]
  constructor
  · rintro ⟨resultSubset, leftSubset, rightSubset⟩
    exact ⟨resultSubset, leftSubset, rightSubset⟩
  · rintro ⟨resultSubset, leftSubset, rightSubset⟩
    exact ⟨resultSubset, leftSubset, rightSubset⟩

/-- The propagator of a comparison holds where the comparison does. -/
theorem holds_ofComparison_iff {comparison : Comparison} {left right : VariableId}
    {assignment : VariableId → Int} : (ofComparison comparison left right).Holds assignment ↔
      comparison.Holds (assignment left) (assignment right) := by
  cases comparison <;> exact Iff.rfl

/-- That of a reified comparison holds where the result tells whether the comparison does. -/
theorem holds_ofReified_iff {comparison : Comparison} {left right result : VariableId}
    {assignment : VariableId → Int} : (ofReified comparison left right result).Holds assignment ↔
      (assignment result = 1 ∧ comparison.Holds (assignment left) (assignment right)) ∨
        (assignment result = 0 ∧ ¬ comparison.Holds (assignment left) (assignment right)) := by
  cases comparison <;> exact Iff.rfl

/-- The propagator of a comparison reads both operands, whichever comes first. -/
theorem mem_scope_ofComparison {comparison : Comparison} {left right variableId : VariableId} :
    variableId ∈ (ofComparison comparison left right).scope ↔
      variableId = left ∨ variableId = right := by
  cases comparison <;> simp [ofComparison, or_comm]

/-- That of a reified comparison reads the result as well. -/
theorem mem_scope_ofReified {comparison : Comparison} {left right result variableId : VariableId} :
    variableId ∈ (ofReified comparison left right result).scope ↔
      variableId = left ∨ variableId = right ∨ variableId = result := by
  cases comparison <;> simp [ofReified, or_left_comm]

/-- Each of the propagators of an operation reads both operands and the result. -/
theorem mem_scope_ofRing {operation : RingOperation} {left right result variableId : VariableId}
    {propagator : Propagator} (inside : propagator ∈ ofRing operation left right result) :
    variableId ∈ propagator.scope ↔
      variableId = left ∨ variableId = right ∨ variableId = result := by
  simp only [ofRing, List.mem_cons, List.not_mem_nil, or_false] at inside
  rcases inside with rfl | rfl | rfl <;> rw [mem_scope_ring] <;> grind

end Propagator

namespace Constraint

/-- The domains of the operands and of the result are consistent with the constraint. -/
def Consistent (constraint : Constraint) (family : Family) : Prop :=
  match constraint.operator, constraint.operands, constraint.result with
  | .compare comparison, [left, right], _ =>
    (Propagator.ofComparison comparison left right).Keeps family
  | .distinct, operands, _ =>
    ∀ pair ∈ orderedPairs operands, (Propagator.ofComparison .neq pair.1 pair.2).Keeps family
  | .plus, [left, right], some result =>
    RingOperation.plus.Consistent (family left) (family right) (family result)
  | .minus, [left, right], some result =>
    RingOperation.plus.Consistent (family result) (family right) (family left)
  | .mul, [left, right], some result =>
    RingOperation.mul.Consistent (family left) (family right) (family result)
  | .div, [left, right], some result =>
    RingOperation.mul.Consistent (family result) (family right) (family left)
  | .sum, operands, some result =>
    ∀ tree, OperandTree.balanced? operands = some tree → tree.Closes .plus family (family result)
  | .product, operands, some result =>
    ∀ tree, OperandTree.balanced? operands = some tree → tree.Closes .mul family (family result)
  | .reify comparison, [left, right], some result =>
    (Propagator.ofReified comparison left right result).Keeps family
  | _, _, _ => True

/-- A relation holds of the pairs of a list just when it holds of any two entries in order. -/
theorem forall_orderedPairs_iff {α : Type} {related : α → α → Prop} {list : List α} :
    (∀ pair ∈ orderedPairs list, related pair.1 pair.2) ↔ list.Pairwise related := by
  induction list with
  | nil => simp [orderedPairs]
  | cons first rest inductionHypothesis =>
    simp only [orderedPairs, List.mem_append, List.mem_map, List.pairwise_cons,
      ← inductionHypothesis]
    constructor
    · intro all
      exact ⟨fun other inside => all (first, other) (.inl ⟨other, inside, rfl⟩), fun pair inside =>
        all pair (.inr inside)⟩
    · rintro ⟨ofFirst, ofRest⟩ pair (⟨other, inside, rfl⟩ | inside)
      · exact ofFirst other inside
      · exact ofRest pair inside

/-- Both entries of a pair are in the list. -/
theorem mem_of_mem_orderedPairs {α : Type} {list : List α} {pair : α × α}
    (inside : pair ∈ orderedPairs list) : pair.1 ∈ list ∧ pair.2 ∈ list := by
  induction list with
  | nil => cases inside
  | cons first rest inductionHypothesis =>
    rcases List.mem_append.mp inside with ofFirst | ofRest
    · obtain ⟨other, inRest, rfl⟩ := List.mem_map.mp ofFirst
      exact ⟨List.mem_cons_self, List.mem_cons_of_mem _ inRest⟩
    · exact (inductionHypothesis ofRest).imp (List.mem_cons_of_mem _) (List.mem_cons_of_mem _)

/-- Only the operands and the result of a constraint matter to it. -/
theorem Consistent.congr {constraint : Constraint} {first second : Family}
    (wellFormed : constraint.WellFormed) (consistent : constraint.Consistent first)
    (agree : ∀ variableId ∈ constraint.scope, first variableId = second variableId) :
    constraint.Consistent second := by
  have ofRing : ∀ {operation : RingOperation} {left right result : VariableId},
      left ∈ constraint.scope → right ∈ constraint.scope → result ∈ constraint.scope →
        operation.Consistent (first left) (first right) (first result) →
          operation.Consistent (second left) (second right) (second result) := by
    intro operation left right result leftInside rightInside resultInside possible
    rwa [← agree left leftInside, ← agree right rightInside, ← agree result resultInside]
  have ofTree : ∀ {operation : RingOperation} {result : VariableId}, result ∈ constraint.scope →
      (∀ tree, OperandTree.balanced? constraint.operands = some tree →
        tree.Closes operation first (first result)) → ∀ tree,
          OperandTree.balanced? constraint.operands = some tree →
            tree.Closes operation second (second result) := by
    intro operation result resultInside closes tree balanced
    rw [← agree result resultInside]
    refine (closes tree balanced).congr fun operand inside =>
      agree operand (List.mem_append_left _ ?_)
    rwa [← OperandTree.leaves_of_balanced? balanced]
  cases wellFormed with
  | compare comparison left right =>
    refine Propagator.Keeps.congr consistent fun variableId reads => agree variableId ?_
    rcases Propagator.mem_scope_ofComparison.mp reads with rfl | rfl <;> simp [scope]
  | distinct operands =>
    intro pair inside
    refine Propagator.Keeps.congr (consistent pair inside) fun variableId reads =>
      agree variableId ?_
    have members := mem_of_mem_orderedPairs inside
    rcases Propagator.mem_scope_ofComparison.mp reads with rfl | rfl
    · exact List.mem_append_left _ members.1
    · exact List.mem_append_left _ members.2
  | plus left right result =>
    exact ofRing (by simp [scope]) (by simp [scope]) (by simp [scope]) consistent
  | minus left right result =>
    exact ofRing (by simp [scope]) (by simp [scope]) (by simp [scope]) consistent
  | mul left right result =>
    exact ofRing (by simp [scope]) (by simp [scope]) (by simp [scope]) consistent
  | div left right result =>
    exact ofRing (by simp [scope]) (by simp [scope]) (by simp [scope]) consistent
  | sum operands result hasOperands => exact ofTree (by simp [scope]) consistent
  | product operands result hasOperands => exact ofTree (by simp [scope]) consistent
  | reify comparison left right result =>
    refine Propagator.Keeps.congr consistent fun variableId reads => agree variableId ?_
    rcases Propagator.mem_scope_ofReified.mp reads with rfl | rfl | rfl <;> simp [scope]

/-- On fixed variables the domains are consistent with a constraint only if it holds. -/
theorem holds_of_consistent {constraint : Constraint} {family : Family}
    {assignment : VariableId → Int} (wellFormed : constraint.WellFormed)
    (consistent : constraint.Consistent family)
    (solved : ∀ variableId ∈ constraint.scope, (family variableId).solvedValue? =
      some (assignment variableId))
    (truth : ∀ result, constraint.truthVariable? = some result →
      assignment result = 0 ∨ assignment result = 1) : constraint.Holds assignment := by
  have ofComparison : ∀ {comparison : Comparison} {left right : VariableId},
      left ∈ constraint.scope → right ∈ constraint.scope →
        (Propagator.ofComparison comparison left right).Keeps family →
          comparison.Holds (assignment left) (assignment right) := by
    intro comparison left right leftInside rightInside keeps
    refine Propagator.holds_ofComparison_iff.mp
      ((Propagator.keeps_iff_holds (fun variableId reads => ?_) ?_).mp keeps)
    · rcases Propagator.mem_scope_ofComparison.mp reads with rfl | rfl
      · exact solved _ leftInside
      · exact solved _ rightInside
    · intro result isResult
      cases comparison <;> cases isResult
  have ofRing : ∀ {operation : RingOperation} {left right result : VariableId},
      left ∈ constraint.scope → right ∈ constraint.scope → result ∈ constraint.scope →
        operation.Consistent (family left) (family right) (family result) →
          operation.Holds (assignment left) (assignment right) (assignment result) := by
    intro operation left right result leftInside rightInside resultInside possible
    have resultSolved := solved result resultInside
    have member := Domain.mem_of_solvedValue? resultSolved
    exact (RingOperation.mem_apply_iff_holds (solved left leftInside) (solved right rightInside)
      (Domain.bounds member)).mp (possible.result_subset _ member)
  have ofTree : ∀ {operation : RingOperation} {combine : Int → Int → Int} {result : VariableId},
      (∀ first second third, operation.Holds first second third ↔ combine first second = third) →
        constraint.operands ≠ [] → result ∈ constraint.scope →
        (∀ tree, OperandTree.balanced? constraint.operands = some tree →
          tree.Closes operation family (family result)) →
          ∃ tree : OperandTree, tree.leaves = constraint.operands ∧
            tree.value combine assignment = assignment result := by
    intro operation combine result combines hasOperands resultInside closes
    obtain ⟨tree, balanced, treeLeaves⟩ := OperandTree.exists_balanced? hasOperands
    exact ⟨tree, treeLeaves, (closes tree balanced).value_eq combines
      (fun operand inside => solved operand (List.mem_append_left _ (treeLeaves ▸ inside)))
      (solved result resultInside)⟩
  cases wellFormed with
  | compare comparison left right =>
    exact ofComparison (by simp [scope]) (by simp [scope]) consistent
  | distinct operands =>
    have different : operands.Pairwise fun first second =>
        (assignment first) ≠ assignment second := by
      have keepsPairs : operands.Pairwise fun first second =>
          (Propagator.ofComparison .neq first second).Keeps family :=
        forall_orderedPairs_iff.mp consistent
      refine keepsPairs.imp_of_mem fun firstInside secondInside keeps => ?_
      exact ofComparison (by simpa [scope] using firstInside)
        (by simpa [scope] using secondInside) keeps
    exact List.pairwise_map.mpr different
  | plus left right result =>
    exact ofRing (by simp [scope]) (by simp [scope]) (by simp [scope]) consistent
  | minus left right result =>
    have sum : assignment result + assignment right = assignment left :=
      ofRing (by simp [scope]) (by simp [scope]) (by simp [scope]) consistent
    exact Int.sub_eq_iff_eq_add.mpr sum.symm
  | mul left right result =>
    exact ofRing (by simp [scope]) (by simp [scope]) (by simp [scope]) consistent
  | div left right result =>
    exact ofRing (by simp [scope]) (by simp [scope]) (by simp [scope]) consistent
  | sum operands result hasOperands =>
    obtain ⟨tree, treeLeaves, total⟩ := ofTree (fun _ _ _ => Iff.rfl) hasOperands
      (show result ∈ _ by simp [scope]) consistent
    rw [OperandTree.value_add, treeLeaves] at total
    exact total
  | product operands result hasOperands =>
    obtain ⟨tree, treeLeaves, total⟩ := ofTree (fun _ _ _ => Iff.rfl) hasOperands
      (show result ∈ _ by simp [scope]) consistent
    rw [OperandTree.value_mul, treeLeaves] at total
    exact total
  | reify comparison left right result =>
    refine Propagator.holds_ofReified_iff.mp
      ((Propagator.keeps_iff_holds (fun variableId reads => ?_) ?_).mp consistent)
    · apply solved variableId
      rcases Propagator.mem_scope_ofReified.mp reads with rfl | rfl | rfl <;> simp [scope]
    · intro truthVariable isTruth
      have same : truthVariable = result := by
        cases comparison <;> cases isTruth <;> rfl
      exact same ▸ truth result rfl

end Constraint

end ConstraintSearch
