import ConstraintSearch.Proofs.Network.Enforced
import Mathlib.Data.List.Perm.Basic
import Mathlib.Data.Nat.Choose.Basic
import Mathlib.Data.Nat.Log

/-!
# How constraints are laid out

A sum or product of several operands is laid out as a binary tree of operations, each of which has a
variable for its result: the result of the constraint at the root, and an added variable everywhere
else (`ResultTree`). The main statement says of every such constraint how many variables and
propagators it adds, that the tree halves the operands in their order and is as deep as the
logarithm of their number, and that every added variable connects two of its operations. A
constraint that asks for distinct values adds one propagator for each pair of places.
-/

namespace ConstraintSearch

open Lowering

/-! ### Trees of results -/

/-- An operation on two variables that has a variable for its result. -/
structure RingNode where
  left : VariableId
  right : VariableId
  result : VariableId
deriving DecidableEq

namespace RingNode

/-- The variables that the operation combines. -/
def operands (node : RingNode) : List VariableId :=
  [node.left, node.right]

/-- The propagators of the operation. -/
def propagators (operation : RingOperation) (node : RingNode) : List Propagator :=
  Propagator.ofRing operation node.left node.right node.result

end RingNode

/-- An operand tree in which every operation has a variable for its result. -/
inductive ResultTree
  | leaf (operand : VariableId)
  | node (result : VariableId) (left right : ResultTree)

namespace ResultTree

/-- The variable that holds the value of the tree. -/
def root : ResultTree → VariableId
  | leaf operand => operand
  | node result _ _ => result

/-- The operands from left to right. -/
def leaves : ResultTree → List VariableId
  | leaf operand => [operand]
  | node _ left right => left.leaves ++ right.leaves

/-- The greatest number of operations between an operand and the root. -/
def depth : ResultTree → Nat
  | leaf _ => 0
  | node _ left right => max left.depth right.depth + 1

/-- The operations, each behind those whose results it combines. -/
def nodes : ResultTree → List RingNode
  | leaf _ => []
  | node result left right => left.nodes ++ right.nodes ++ [⟨left.root, right.root, result⟩]

/-- The results of all operations, each before those that it is combined from. -/
def results : ResultTree → List VariableId
  | leaf _ => []
  | node result left right => result :: (left.results ++ right.results)

/-- A tree has one operation less than operands. -/
theorem length_nodes (tree : ResultTree) : tree.nodes.length + 1 = tree.leaves.length := by
  induction tree with
  | leaf operand => rfl
  | node result left right leftHypothesis rightHypothesis =>
    simp only [nodes, leaves, List.length_append, List.length_singleton, ← leftHypothesis,
      ← rightHypothesis]
    omega

/-- Each operation has one of the results. -/
theorem perm_results (tree : ResultTree) : (tree.nodes.map RingNode.result).Perm tree.results := by
  induction tree with
  | leaf operand => exact .nil
  | node result left right leftHypothesis rightHypothesis =>
    rw [nodes, results, List.map_append, List.map_append, List.map_singleton]
    exact (List.perm_append_singleton _ _).trans (.cons _ (leftHypothesis.append rightHypothesis))

/-- Every operand and every result is either the root or combined by one operation. -/
theorem perm_operands (tree : ResultTree) :
    (tree.root :: tree.nodes.flatMap RingNode.operands).Perm (tree.leaves ++ tree.results) := by
  induction tree with
  | leaf operand => exact .refl _
  | node result left right leftHypothesis rightHypothesis =>
    have below : ((node result left right).nodes.flatMap RingNode.operands).Perm
        ((left.root :: left.nodes.flatMap RingNode.operands) ++
          (right.root :: right.nodes.flatMap RingNode.operands)) := by
      rw [List.perm_iff_count]
      intro variableId
      simp only [nodes, List.flatMap_append, List.flatMap_singleton, RingNode.operands,
        List.count_append, List.count_cons, List.count_nil]
      omega
    refine (List.Perm.cons result (below.trans (leftHypothesis.append rightHypothesis))).trans ?_
    rw [List.perm_iff_count]
    intro variableId
    simp only [leaves, results, List.count_append, List.count_cons]
    omega

end ResultTree

/-! ### The tree of an operand tree -/

namespace OperandTree

/-- The number of operations. -/
def operations : OperandTree → Nat
  | leaf _ => 0
  | node left right => left.operations + right.operations + 1

/-- The part of a tree whose operations have the variables from the given one on for their results,
each before those that it is combined from. -/
def part (next : VariableId) : OperandTree → ResultTree
  | leaf operand => .leaf operand
  | node left right => .node next (left.part (next + 1)) (right.part (next + 1 + left.operations))

/-- The whole tree, with the variables from the given one on for the results of all operations but
the last one. -/
def whole (next result : VariableId) : OperandTree → ResultTree
  | leaf operand => .leaf operand
  | node left right => .node result (left.part next) (right.part (next + left.operations))

/-- So has an operand tree. -/
theorem operations_add_one (tree : OperandTree) : tree.operations + 1 = tree.leaves.length := by
  induction tree with
  | leaf operand => rfl
  | node left right leftHypothesis rightHypothesis =>
    rw [operations, leaves, List.length_append, ← leftHypothesis, ← rightHypothesis]
    omega

/-- Results leave the operands in their places. -/
theorem leaves_part (tree : OperandTree) (next : VariableId) :
    (tree.part next).leaves = tree.leaves := by
  induction tree generalizing next with
  | leaf operand => rfl
  | node left right leftHypothesis rightHypothesis =>
    rw [part, ResultTree.leaves, leaves, leftHypothesis, rightHypothesis]

/-- They leave the tree as deep as it is. -/
theorem depth_part (tree : OperandTree) (next : VariableId) :
    (tree.part next).depth = tree.depth := by
  induction tree generalizing next with
  | leaf operand => rfl
  | node left right leftHypothesis rightHypothesis =>
    rw [part, ResultTree.depth, depth, leftHypothesis, rightHypothesis]

/-- The results are the variables from the given one on, in order. -/
theorem results_part (tree : OperandTree) (next : VariableId) :
    (tree.part next).results = List.range' next tree.operations := by
  induction tree generalizing next with
  | leaf operand => rfl
  | node left right leftHypothesis rightHypothesis =>
    rw [part, ResultTree.results, leftHypothesis, rightHypothesis, List.range'_append_1, operations,
      List.range'_succ]

/-- A part is an operand or has one of the variables from the given one on. -/
theorem root_part (tree : OperandTree) (next : VariableId) :
    (tree.part next).root ∈ tree.leaves ∨ next ≤ (tree.part next).root := by
  cases tree with
  | leaf operand => exact .inl List.mem_cons_self
  | node left right => exact .inr (Nat.le_refl next)

/-- An operation combines operands and results that come after its own. -/
theorem mem_operands_part {tree : OperandTree} {next : VariableId} {node : RingNode}
    (inside : node ∈ (tree.part next).nodes) {variableId : VariableId}
    (combined : variableId ∈ node.operands) :
    variableId ∈ tree.leaves ∨ node.result < variableId := by
  induction tree generalizing next with
  | leaf operand => cases inside
  | node left right leftHypothesis rightHypothesis =>
    rw [part, ResultTree.nodes, List.mem_append, List.mem_append, List.mem_singleton] at inside
    rw [leaves, List.mem_append]
    rcases inside with (inLeft | inRight) | rfl
    · exact (leftHypothesis inLeft).imp_left .inl
    · exact (rightHypothesis inRight).imp_left .inr
    · rw [RingNode.operands, List.mem_pair] at combined
      rcases combined with rfl | rfl
      · exact (left.root_part (next + 1)).imp .inl id
      · refine (right.root_part (next + 1 + left.operations)).imp .inr fun late => ?_
        exact Nat.lt_of_lt_of_le (Nat.lt_of_lt_of_le (Nat.lt_succ_self next) (Nat.le_add_right _ _))
          late

/-! ### Balance -/

/-- A tree that halves its operands is as deep as the logarithm of their number. -/
theorem depth_of_balanced? {operands : List VariableId} {tree : OperandTree}
    (balanced : balanced? operands = some tree) : tree.depth = Nat.clog 2 operands.length := by
  have halves := halves_of_balanced? balanced
  clear balanced
  induction halves with
  | leaf operand => rfl
  | @node operands left right several lower upper lowerHypothesis upperHypothesis =>
    have upperHalf : operands.length - operands.length / 2 = (operands.length + 1) / 2 := by omega
    have halved : Nat.clog 2 operands.length = Nat.clog 2 ((operands.length + 1) / 2) + 1 :=
      Nat.clog_of_two_le Nat.one_lt_two several
    have smaller : Nat.clog 2 (operands.length / 2) ≤ Nat.clog 2 ((operands.length + 1) / 2) :=
      Nat.clog_mono_right 2 (by omega)
    rw [depth, lowerHypothesis, upperHypothesis, List.length_take, List.length_drop,
      Nat.min_eq_left (Nat.div_le_self _ _), upperHalf, Nat.max_eq_right smaller]
    exact halved.symm

/-! ### Lowering -/

variable (operation : RingOperation)

/-- Lowering a part of a tree adds a variable for each operation, from the first that is free on,
and the propagators of the operations. -/
theorem lowerPart_eq (tree : OperandTree) (before : Lowering) :
    (tree.lowerPart operation before).1 = (tree.part before.vars.size).root ∧
      (tree.lowerPart operation before).2.vars.size = before.vars.size + tree.operations ∧
      (tree.lowerPart operation before).2.propagators.toList =
        before.propagators.toList ++ (tree.part before.vars.size).nodes.flatMap
          (RingNode.propagators operation) := by
  induction tree generalizing before with
  | leaf operand => exact ⟨rfl, rfl, (List.append_nil _).symm⟩
  | node left right leftHypothesis rightHypothesis =>
    generalize isFirst : before.addVariable.2 = first
    have firstSize : first.vars.size = before.vars.size + 1 := isFirst ▸ size_addVariable before
    have firstSame : first.propagators = before.propagators := isFirst ▸ rfl
    obtain ⟨leftRoot, leftSize, leftPropagators⟩ := leftHypothesis first
    generalize isSecond : left.lowerPart operation first = second
      at leftRoot leftSize leftPropagators
    obtain ⟨rightRoot, rightSize, rightPropagators⟩ := rightHypothesis second.2
    generalize isThird : right.lowerPart operation second.2 = third
      at rightRoot rightSize rightPropagators
    have lowered : (node left right).lowerPart operation before =
        (before.vars.size, third.2.addRing operation second.1 third.1 before.vars.size) := by
      subst isFirst isSecond isThird
      rfl
    rw [firstSize] at leftRoot leftSize leftPropagators
    rw [leftSize] at rightRoot rightSize rightPropagators
    have sameSize : (third.2.addRing operation second.1 third.1 before.vars.size).vars.size =
        third.2.vars.size := rfl
    rw [lowered, sameSize, rightSize, toList_addRing, rightPropagators, leftPropagators, firstSame,
      leftRoot, rightRoot]
    refine ⟨rfl, by rw [operations]; omega, ?_⟩
    simp only [part, ResultTree.nodes, List.flatMap_append, List.flatMap_singleton,
      RingNode.propagators, List.append_assoc]

/-- Lowering a whole tree adds a variable for each operation but the last one, and the propagators
of all. -/
theorem lower_eq (left right : OperandTree) (before : Lowering) (result : VariableId) :
    ((node left right).lower operation result before).vars.size =
      before.vars.size + (left.operations + right.operations) ∧
        ((node left right).lower operation result before).propagators.toList =
          before.propagators.toList ++
            ((node left right).whole before.vars.size result).nodes.flatMap
              (RingNode.propagators operation) := by
  obtain ⟨leftRoot, leftSize, leftPropagators⟩ := left.lowerPart_eq operation before
  generalize isFirst : left.lowerPart operation before = first at leftRoot leftSize leftPropagators
  obtain ⟨rightRoot, rightSize, rightPropagators⟩ := right.lowerPart_eq operation first.2
  generalize isSecond : right.lowerPart operation first.2 = second
    at rightRoot rightSize rightPropagators
  have lowered : (node left right).lower operation result before =
      second.2.addRing operation first.1 second.1 result := by
    subst isFirst isSecond
    rfl
  rw [leftSize] at rightRoot rightSize rightPropagators
  have sameSize : (second.2.addRing operation first.1 second.1 result).vars.size =
      second.2.vars.size := rfl
  rw [lowered, sameSize, rightSize, toList_addRing, rightPropagators, leftPropagators,
    leftRoot, rightRoot]
  refine ⟨Nat.add_assoc _ _ _, ?_⟩
  simp only [whole, ResultTree.nodes, List.flatMap_append, List.flatMap_singleton,
    RingNode.propagators, List.append_assoc]

/-- The results are the one of the constraint and the added variables. -/
theorem results_whole (left right : OperandTree) (next result : VariableId) :
    ((node left right).whole next result).results = result ::
      List.range' next (left.operations + right.operations) := by
  rw [whole, ResultTree.results, results_part, results_part, List.range'_append_1]

/-- An operation of a whole tree does not combine its own result if that is an added variable. -/
theorem not_mem_operands_whole {left right : OperandTree} {next result : VariableId}
    {node : RingNode} (inside : node ∈ ((OperandTree.node left right).whole next result).nodes)
    (resultEarly : result < next)
    (leavesEarly : ∀ operand ∈ left.leaves ++ right.leaves, operand < next)
    (added : next ≤ node.result) : node.result ∉ node.operands := by
  intro combined
  have early : ∀ {tree : OperandTree}, (∀ operand ∈ tree.leaves, operand < next) →
      ∀ {start : VariableId}, node ∉ (tree.part start).nodes := by
    intro tree treeEarly start inPart
    rcases mem_operands_part inPart combined with isLeaf | later
    · exact absurd (treeEarly _ isLeaf) (Nat.not_lt.mpr added)
    · exact Nat.lt_irrefl _ later
  rw [whole, ResultTree.nodes, List.mem_append, List.mem_append, List.mem_singleton] at inside
  rcases inside with (inLeft | inRight) | rfl
  · exact early (fun operand member => leavesEarly operand (List.mem_append_left _ member)) inLeft
  · exact early (fun operand member => leavesEarly operand (List.mem_append_right _ member)) inRight
  · exact absurd resultEarly (Nat.not_lt.mpr added)

end OperandTree

/-! ### Sums and products -/

namespace Lowering

/-- What a sum or product of at least two operands adds: the operations of a tree. -/
structure LaysOut (before after : Lowering) (operation : RingOperation) (operands : List VariableId)
    (result : VariableId) (tree : ResultTree) : Prop where
  leaves_eq : tree.leaves = operands
  root_eq : tree.root = result
  depth_eq : tree.depth = Nat.clog 2 operands.length
  length_nodes : tree.nodes.length = operands.length - 1
  /-- The propagators of the operations, and otherwise only variables with every value, are behind
  what was made before. -/
  grows : before.Grows after (tree.nodes.flatMap (RingNode.propagators operation))
  size_vars : after.vars.size = before.vars.size + (operands.length - 2)
  size_propagators : after.propagators.size = before.propagators.size + 3 * (operands.length - 1)
  /-- Every added variable is the result of one operation. -/
  result_once : ∀ variableId, before.vars.size ≤ variableId → variableId < after.vars.size →
    (tree.nodes.map RingNode.result).count variableId = 1
  /-- Every added variable is combined once. -/
  operand_once : ∀ variableId, before.vars.size ≤ variableId → variableId < after.vars.size →
    (tree.nodes.flatMap RingNode.operands).count variableId = 1
  /-- The operation that combines an added variable is another one than that whose result it is. -/
  operand_ne_result : ∀ node ∈ tree.nodes, before.vars.size ≤ node.result →
    node.result ∉ node.operands

/-- Each operation has three propagators. -/
theorem length_propagators {operation : RingOperation} (nodes : List RingNode) :
    (nodes.flatMap (RingNode.propagators operation)).length = 3 * nodes.length := by
  induction nodes with
  | nil => rfl
  | cons first rest inductionHypothesis =>
    rw [List.flatMap_cons, List.length_append, inductionHypothesis, List.length_cons,
      RingNode.propagators]
    simp only [Propagator.ofRing, List.length_cons, List.length_nil]
    omega

/-- Lowering a tree with an operation lays it out. -/
theorem exists_laysOut (operation : RingOperation) {left right : OperandTree} (before : Lowering)
    {operands : List VariableId} {result : VariableId}
    (balanced : OperandTree.balanced? operands = some (.node left right))
    (resultInside : result < before.vars.size)
    (inside : ∀ operand ∈ operands, operand < before.vars.size) :
    ∃ tree, before.LaysOut ((OperandTree.node left right).lower operation result before) operation
      operands result tree := by
  have leaves : left.leaves ++ right.leaves = operands := OperandTree.leaves_of_balanced? balanced
  have leftOperations := left.operations_add_one
  have rightOperations := right.operations_add_one
  have lengths : left.leaves.length + right.leaves.length = operands.length := by
    rw [← leaves, List.length_append]
  obtain ⟨size, propagators⟩ := OperandTree.lower_eq operation left right before result
  -- What the lowering adds is known from the propagators before and after.
  obtain ⟨added, enforces⟩ :=
    @OperandTree.exists_enforces operation (.node left right) before result False
      (fun operand member => inside operand (leaves ▸ member)) resultInside
  have same : added = (((OperandTree.node left right).whole before.vars.size result).nodes.flatMap
      (RingNode.propagators operation)) :=
    List.append_cancel_left (enforces.grows.propagators_eq.symm.trans propagators)
  generalize isTree : (OperandTree.node left right).whole before.vars.size result = tree
    at propagators same
  have treeLeaves : tree.leaves = operands := by
    rw [← isTree, OperandTree.whole, ResultTree.leaves, OperandTree.leaves_part,
      OperandTree.leaves_part, leaves]
  have treeRoot : tree.root = result := isTree ▸ rfl
  have treeNodes : tree.nodes.length = operands.length - 1 := by
    have counted := tree.length_nodes
    rw [treeLeaves] at counted
    omega
  have notResult : ∀ {variableId}, before.vars.size ≤ variableId → result ≠ variableId :=
    fun late => Nat.ne_of_lt (Nat.lt_of_lt_of_le resultInside late)
  have addedOnce : ∀ variableId, before.vars.size ≤ variableId →
      variableId < before.vars.size + (left.operations + right.operations) →
        tree.results.count variableId = 1 := by
    intro variableId late early
    rw [← isTree, OperandTree.results_whole, List.count_cons_of_ne (notResult late)]
    exact List.count_eq_one_of_mem List.nodup_range' (List.mem_range'_1.mpr ⟨late, early⟩)
  refine ⟨tree, treeLeaves, treeRoot, ?_, treeNodes, same ▸ enforces.grows, ?_, ?_, ?_, ?_, ?_⟩
  · rw [← OperandTree.depth_of_balanced? balanced, ← isTree, OperandTree.whole, ResultTree.depth,
      OperandTree.depth_part, OperandTree.depth_part, OperandTree.depth]
  · rw [size]
    omega
  · rw [← length_toList, propagators, List.length_append, length_propagators, treeNodes,
      length_toList]
  · intro variableId late early
    rw [tree.perm_results.count_eq]
    exact addedOnce variableId late (size ▸ early)
  · intro variableId late early
    have counted := tree.perm_operands.count_eq variableId
    have notLeaf : tree.leaves.count variableId = 0 := List.count_eq_zero.mpr fun isLeaf =>
      absurd (inside variableId (treeLeaves ▸ isLeaf)) (Nat.not_lt.mpr late)
    rwa [treeRoot, List.count_cons_of_ne (notResult late), List.count_append, notLeaf,
      addedOnce variableId late (size ▸ early), Nat.zero_add] at counted
  · intro node member added
    rw [← isTree] at member
    exact OperandTree.not_mem_operands_whole member resultInside (leaves.symm ▸ inside) added

end Lowering

/-! ### Distinct values -/

/-- A list has as many ordered pairs as there are ways to choose two of its places. -/
theorem length_orderedPairs {α : Type} (list : List α) :
    (orderedPairs list).length = list.length * (list.length - 1) / 2 := by
  induction list with
  | nil => simp [orderedPairs]
  | cons first rest inductionHypothesis =>
    rw [orderedPairs, List.length_append, List.length_map, inductionHypothesis, List.length_cons,
      Nat.triangle_succ, Nat.add_comm]

/-- The pairs of the images are the images of the pairs. -/
theorem map_orderedPairs {α β : Type} (change : α → β) (list : List α) :
    orderedPairs (list.map change) = (orderedPairs list).map fun pair =>
      (change pair.1, change pair.2) := by
  induction list with
  | nil => rfl
  | cons first rest inductionHypothesis =>
    simp only [List.map_cons, orderedPairs, inductionHypothesis, List.map_append, List.map_map,
      Function.comp_def]

/-- The pairs of an increasing list are those of two of its entries, the lesser one first. -/
theorem mem_orderedPairs_of_sorted {list : List Nat} (sorted : list.Pairwise (· < ·))
    {first second : Nat} :
    (first, second) ∈ orderedPairs list ↔ first ∈ list ∧ second ∈ list ∧ first < second := by
  induction list with
  | nil => simp [orderedPairs]
  | cons head rest inductionHypothesis =>
    obtain ⟨least, restSorted⟩ := List.pairwise_cons.mp sorted
    rw [orderedPairs, List.mem_append, inductionHypothesis restSorted]
    simp only [List.mem_map, Prod.mk.injEq, List.mem_cons]
    constructor
    · rintro (⟨other, inRest, rfl, rfl⟩ | ⟨inRest, otherInRest, less⟩)
      · exact ⟨.inl rfl, .inr inRest, least _ inRest⟩
      · exact ⟨.inr inRest, .inr otherInRest, less⟩
    · rintro ⟨rfl | inRest, rfl | otherInRest, less⟩
      · exact absurd less (Nat.lt_irrefl _)
      · exact .inl ⟨second, otherInRest, rfl, rfl⟩
      · exact absurd (Nat.lt_trans less (least _ inRest)) (Nat.lt_irrefl _)
      · exact .inr ⟨inRest, otherInRest, less⟩

/-- No pair of places comes twice. -/
theorem nodup_orderedPairs {list : List Nat} (sorted : list.Pairwise (· < ·)) :
    (orderedPairs list).Nodup := by
  induction list with
  | nil => exact .nil
  | cons head rest inductionHypothesis =>
    obtain ⟨least, restSorted⟩ := List.pairwise_cons.mp sorted
    rw [orderedPairs, List.nodup_append]
    refine ⟨?_, inductionHypothesis restSorted, ?_⟩
    · exact (restSorted.imp Nat.ne_of_lt).map _ fun _ _ different same =>
        different (Prod.mk.inj same).2
    · rintro ⟨first, second⟩ inFirst other inRest rfl
      obtain ⟨_, _, same⟩ := List.mem_map.mp inFirst
      cases same
      exact absurd (least _ ((mem_orderedPairs_of_sorted restSorted).mp inRest).1) (Nat.lt_irrefl _)

namespace Lowering

/-- What a constraint that asks for distinct values adds: a propagator for each of the pairs of
places. -/
structure PairsUp (before after : Lowering) (operands : List VariableId)
    (places : List (Nat × Nat)) : Prop where
  mem_iff : ∀ first second, (first, second) ∈ places ↔ first < second ∧ second < operands.length
  nodup : places.Nodup
  length_places : places.length = operands.length * (operands.length - 1) / 2
  vars_eq : after.vars = before.vars
  propagators_eq : after.propagators.toList = before.propagators.toList ++
    places.map fun place => .relation .neq (operands.getD place.1 0) (operands.getD place.2 0)
  size_propagators : after.propagators.size = before.propagators.size + operands.length *
    (operands.length - 1) / 2

/-- The relations of all pairs are added in order, and no variable is. -/
theorem toList_addRelations (pairs : List (VariableId × VariableId)) (before : Lowering) :
    (pairs.foldl (fun lowering pair => lowering.addRelation .neq pair.1 pair.2) before).vars =
      before.vars ∧ (pairs.foldl (fun lowering pair => lowering.addRelation .neq pair.1 pair.2)
        before).propagators.toList = before.propagators.toList ++ pairs.map fun pair =>
          .relation .neq pair.1 pair.2 := by
  induction pairs generalizing before with
  | nil => exact ⟨rfl, (List.append_nil _).symm⟩
  | cons first rest inductionHypothesis =>
    obtain ⟨sameVars, propagators⟩ := inductionHypothesis (before.addRelation .neq first.1 first.2)
    refine ⟨sameVars, ?_⟩
    rw [List.foldl_cons, propagators, addRelation_eq_add, add, toList_push, List.append_assoc,
      List.map_cons]
    rfl

/-- A constraint that asks for distinct values adds its pairs of places. -/
theorem pairsUp (before : Lowering) (operands : List VariableId) :
    before.PairsUp
      ((orderedPairs operands).foldl (fun lowering pair => lowering.addRelation .neq pair.1 pair.2)
        before) operands
      (orderedPairs (List.range operands.length)) := by
  obtain ⟨sameVars, propagators⟩ := toList_addRelations (orderedPairs operands) before
  have places : operands = (List.range operands.length).map fun place => operands.getD place 0 := by
    apply List.ext_getElem (by simp)
    intro place inside _
    simp [inside]
  have ofPlaces : (orderedPairs operands).map (fun pair => Propagator.relation .neq pair.1 pair.2) =
      (orderedPairs (List.range operands.length)).map fun place =>
        .relation .neq (operands.getD place.1 0) (operands.getD place.2 0) := by
    conv => enter [1, 2]; rw [places]
    rw [map_orderedPairs, List.map_map]
    rfl
  have sorted : (List.range operands.length).Pairwise (· < ·) := List.pairwise_lt_range
  refine ⟨fun first second => ?_, nodup_orderedPairs sorted, ?_, sameVars,
    propagators.trans (ofPlaces ▸ rfl), ?_⟩
  · rw [mem_orderedPairs_of_sorted sorted, List.mem_range, List.mem_range]
    omega
  · rw [length_orderedPairs, List.length_range]
  · rw [← length_toList, propagators, List.length_append, List.length_map, length_orderedPairs,
      length_toList]

end Lowering

/-! ### Constraints -/

/-- Sums and products of at least two operands are laid out as trees, and constraints that ask for
distinct values as pairs. -/
theorem Constraint.exists_layout (before : Lowering) (operands : List VariableId) :
    (∀ {operator operation}, (operator = .sum ∧ operation = .plus ∨ operator = .product ∧
      operation = .mul) → 2 ≤ operands.length → ∀ {result},
        (∀ variableId ∈ result :: operands, variableId < before.vars.size) → ∃ tree,
          before.LaysOut ((⟨operator, operands, some result⟩ : Constraint).lower before) operation
            operands result tree) ∧
      ∀ result, ∃ places, before.PairsUp ((⟨.distinct, operands, result⟩ : Constraint).lower before)
        operands places := by
  refine ⟨fun {operator operation} kind two {result} inside => ?_, fun result =>
    ⟨_, before.pairsUp operands⟩⟩
  obtain ⟨resultInside, operandsInside⟩ := List.forall_mem_cons.mp inside
  have hasOperands : operands ≠ [] := List.ne_nil_of_length_pos (by omega)
  obtain ⟨tree, balanced, leaves⟩ := OperandTree.exists_balanced? hasOperands
  cases tree with
  | leaf operand =>
    rw [← leaves] at two
    exact absurd two (by simp [OperandTree.leaves])
  | node left right =>
    have laidOut := before.exists_laysOut operation balanced resultInside operandsInside
    have lowered : (⟨operator, operands, some result⟩ : Constraint).lower before =
        (OperandTree.node left right).lower operation result before := by
      rcases kind with ⟨rfl, rfl⟩ | ⟨rfl, rfl⟩ <;>
        simp only [Constraint.lower, balanced, Option.elim_some]
    rwa [lowered]

/-- Six variables, without propagators. -/
def Lowering.sixVariables : Lowering :=
  ⟨(List.range 6).foldl (fun vars _ => vars.pushAnonymous .full) ∅, ∅⟩

/-- The sum of five of the variables adds three more and has four operations at a depth of three,
and values that are distinct take ten propagators. -/
theorem Constraint.exists_layout_of_five :
    (∃ tree, Lowering.sixVariables.LaysOut
        ((⟨.sum, [4, 0, 3, 1, 2], some 5⟩ : Constraint).lower .sixVariables) .plus
          [4, 0, 3, 1, 2] 5 tree ∧
      tree.nodes.length = 4 ∧ tree.depth = 3) ∧
      ((⟨.sum, [4, 0, 3, 1, 2], some 5⟩ : Constraint).lower .sixVariables).vars.size = 9 ∧
      ((⟨.distinct, [4, 0, 3, 1, 2], none⟩ : Constraint).lower .sixVariables).propagators.size =
        10 := by
  have inside : ∀ variableId ∈ [5, 4, 0, 3, 1, 2], variableId < Lowering.sixVariables.vars.size :=
    by decide +kernel
  obtain ⟨ofSum, ofDistinct⟩ := Constraint.exists_layout .sixVariables [4, 0, 3, 1, 2]
  obtain ⟨tree, laidOut⟩ := ofSum (.inl ⟨rfl, rfl⟩) (by decide) inside
  obtain ⟨places, pairsUp⟩ := ofDistinct none
  have six : Lowering.sixVariables.vars.size = 6 := by decide +kernel
  refine ⟨⟨tree, laidOut, laidOut.length_nodes, ?_⟩, ?_, pairsUp.size_propagators⟩
  · rw [laidOut.depth_eq]
    decide
  · rw [laidOut.size_vars, six]
    rfl

end ConstraintSearch
