import ConstraintSearch.Proofs.Puzzle.Board

/-!
# Lines of a square

The cells of a square are variables whose names tell the row and the column. The values of the cells
are listed row by row, so that a line of the square is a list of places. What a sum requires of the
square is known from the places of its cells.
-/

namespace ConstraintSearch

open Build

namespace Puzzle

variable {size : Nat}

/-! ### Places of cells -/

/-- The place of a cell when the cells are listed row by row. -/
def placeOf (size row column : Nat) : Nat :=
  row * size + column

/-- Every cell has a place among those of the square. -/
theorem placeOf_lt {row column : Nat} (rowInside : row < size) (columnInside : column < size) :
    placeOf size row column < size * size :=
  calc row * size + column
    _ < row * size + size := Nat.add_lt_add_left columnInside _
    _ = (row + 1) * size := (Nat.succ_mul row size).symm
    _ ≤ size * size := Nat.mul_le_mul_right size rowInside

/-- The row is told by the place. -/
theorem placeOf_div {row column : Nat} (columnInside : column < size) :
    placeOf size row column / size = row := by
  rw [placeOf, Nat.mul_comm, Nat.mul_add_div (Nat.zero_lt_of_lt columnInside),
    Nat.div_eq_of_lt columnInside, Nat.add_zero]

/-- So is the column. -/
theorem placeOf_mod {row column : Nat} (columnInside : column < size) :
    placeOf size row column % size = column := by
  rw [placeOf, Nat.mul_add_mod', Nat.mod_eq_of_lt columnInside]

/-- Every place is that of the cell in its row and column. -/
theorem placeOf_div_mod (size place : Nat) : placeOf size (place / size) (place % size) = place :=
  Nat.div_add_mod' place size

/-! ### Names of cells -/

/-- A name is the letter, the row, an underscore and the column. -/
theorem cellName_eq (letter : String) (row column : Nat) :
    cellName letter row column = letter ++ (row.repr ++ ("_" ++ column.repr)) := by
  rw [← String.append_assoc, ← String.append_assoc]
  rfl

/-- The digits before the first other character tell the row, and what is behind it the column. -/
theorem cellName_inj {letter : String} {row column otherRow otherColumn : Nat} :
    cellName letter row column = cellName letter otherRow otherColumn ↔
      row = otherRow ∧ column = otherColumn := by
  have digits : ∀ row column : Nat,
      (row.repr ++ ("_" ++ column.repr)).toList.takeWhile Char.isDigit = row.repr.toList := by
    intro row column
    rw [String.toList_append, List.takeWhile_append_of_pos, String.toList_append,
      List.append_right_eq_self]
    · rfl
    · intro digit member
      rw [Nat.toList_repr] at member
      exact Nat.isDigit_of_mem_toDigits (by decide) (Nat.le_refl _) member
  constructor
  · intro same
    rw [cellName_eq, cellName_eq, String.append_right_inj] at same
    have sameDigits := congrArg (fun text : String => text.toList.takeWhile Char.isDigit) same
    rw [digits, digits, String.toList_inj, Nat.repr_inj] at sameDigits
    subst sameDigits
    rw [String.append_right_inj, String.append_right_inj, Nat.repr_inj] at same
    exact ⟨rfl, same⟩
  · rintro ⟨rfl, rfl⟩
    rfl

/-- The cells are listed row by row. -/
theorem cellNames_eq (letter : String) (size : Nat) :
    cellNames letter size = (List.range (size * size)).map fun place =>
      cellName letter (place / size) (place % size) := by
  have rows : ∀ count, ((List.range count).flatMap fun row => (List.range size).map fun column =>
      cellName letter row column) = (List.range (count * size)).map fun place =>
        cellName letter (place / size) (place % size) := by
    intro count
    induction count with
    | zero => rw [Nat.zero_mul]; rfl
    | succ count inductionHypothesis =>
      rw [List.range_succ, List.flatMap_append, inductionHypothesis, Nat.succ_mul, List.range_add,
        List.map_append, List.map_map, List.flatMap_singleton]
      refine congrArg _ (List.map_congr_left fun column inside => ?_)
      have inside := List.mem_range.mp inside
      exact congrArg₂ (cellName letter) (placeOf_div inside).symm (placeOf_mod inside).symm
  exact rows size

/-- There is a name for every place. -/
theorem length_cellNames (letter : String) (size : Nat) :
    (cellNames letter size).length = size * size := by
  rw [cellNames_eq, List.length_map, List.length_range]

/-- All names of a square are different. -/
theorem nodup_cellNames (letter : String) (size : Nat) : (cellNames letter size).Nodup := by
  rw [cellNames_eq]
  refine List.nodup_range.map fun place other same => ?_
  obtain ⟨sameRow, sameColumn⟩ := cellName_inj.mp same
  rw [← placeOf_div_mod size place, sameRow, sameColumn, placeOf_div_mod]

/-- They are listed by the places of the cells. -/
theorem getElem?_cellNames {letter : String} {row column : Nat} (rowInside : row < size)
    (columnInside : column < size) :
    (cellNames letter size)[placeOf size row column]? = some (cellName letter row column) := by
  rw [cellNames_eq, List.getElem?_map, List.getElem?_range (placeOf_lt rowInside columnInside),
    Option.map_some, placeOf_div columnInside, placeOf_mod columnInside]

/-- All of them are valid if the letter is one that names may start with. -/
theorem checkName_of_mem_cellNames {letter name : String} {first : Char}
    (isFirst : letter.toList = [first]) (notDash : first ≠ '-') (notDigit : first.isDigit = false)
    (member : name ∈ cellNames letter size) : checkName name = .ok () := by
  obtain ⟨row, -, inRow⟩ := List.mem_flatMap.mp member
  obtain ⟨column, -, rfl⟩ := List.mem_map.mp inRow
  rw [cellName_eq]
  exact checkName_eq_ok (by rw [String.toList_append, isFirst, List.singleton_append])
    notDash notDigit

/-- A cell is found on the board at its place. -/
theorem keyOf?_cellName {letter : String} {domain : Domain}
    {strategy : Option (ValueStrategy String)} {row column : Nat} (rowInside : row < size)
    (columnInside : column < size) :
    (Model.board (cellNames letter size) domain strategy).vars.keyOf? (cellName letter row column) =
      some (placeOf size row column) :=
  Model.keyOf?_board (nodup_cellNames letter size) (getElem?_cellNames rowInside columnInside)

/-! ### Sums along lines -/

/-- The sum of the values at the places that the steps of a line lead to. -/
def lineSum (size : Nat) (cells : Nat → Int) (place : Nat → Nat) : Int :=
  ((List.range size).map fun step => cells (place step)).foldr (· + ·) 0

/-- The sum of a line depends on the values at its places. -/
theorem lineSum_congr {first second : Nat → Int} {place : Nat → Nat}
    (same : ∀ step < size, first (place step) = second (place step)) :
    lineSum size first place = lineSum size second place :=
  congrArg (List.foldr (· + ·) 0) (List.map_congr_left fun step inside =>
    same step (List.mem_range.mp inside))

/-- Each row and each column of the square has the sum. -/
structure LinesSumTo (size : Nat) (total : Int) (cells : Nat → Int) : Prop where
  row : ∀ row < size, lineSum size cells (fun column => placeOf size row column) = total
  column : ∀ column < size, lineSum size cells (fun row => placeOf size row column) = total

section Sums

variable {letter : String} {domain : Domain} {strategy : Option (ValueStrategy String)}
  {total : Int} (bounds : valueFloor ≤ total ∧ total ≤ valueCeiling)

include bounds

/-- The sum of a line that is declared is the one that its cells have. -/
theorem requires_addSum {row column : Nat → Nat} (notEmpty : 0 < size)
    (rowInside : ∀ step < size, row step < size)
    (columnInside : ∀ step < size, column step < size) :
    Requires (.board (cellNames letter size) domain strategy)
      (addSum ((List.range size).map fun step => cellName letter (row step) (column step)) total)
      fun cells =>
        lineSum size cells (fun step => placeOf size (row step) (column step)) = total := by
  intro model requirement poses
  have found : ∀ step ∈ List.range size,
      model.vars.keyOf? (cellName letter (row step) (column step)) =
        some (placeOf size (row step) (column step)) := by
    intro step inside
    have inside := List.mem_range.mp inside
    exact poses.retains.keyOf?_of_some
      (keyOf?_cellName (rowInside step inside) (columnInside step inside))
  have accepts : Operator.sum.arity.accepts ((List.range size).map fun step =>
      Operand.named (cellName letter (row step) (column step))).length := by
    rw [List.length_map, List.length_range]
    exact decide_eq_true notEmpty
  rw [addSum, List.map_map]
  have determined : Operator.sum ≠ .div := by decide
  refine (succeeds_addValueConstraint poses rfl rfl determined accepts (mapM_referent?_named found)
    bounds (fun cells => ?_) fun first second same => ?_).bind fun _ _ after => .pure after
  · rw [List.map_map]
    exact Iff.rfl
  · rw [lineSum_congr fun step inside => same (placeOf size (row step) (column step)) ?_]
    rw [Model.size_board, length_cellNames]
    exact placeOf_lt (rowInside step inside) (columnInside step inside)

/-- The sums that are declared require just that every row and every column has the sum. -/
theorem requires_addLineSums :
    Requires (.board (cellNames letter size) domain strategy) (addLineSums letter size total)
      (LinesSumTo size total) := by
  have lines : ∀ index ∈ List.range size, Requires (.board (cellNames letter size) domain strategy)
      (do
        addSum ((List.range size).map fun column => cellName letter index column) total
        addSum ((List.range size).map fun row => cellName letter row index) total)
      fun cells => lineSum size cells (fun column => placeOf size index column) = total ∧
        lineSum size cells (fun row => placeOf size row index) = total := by
    intro index inside
    have inside := List.mem_range.mp inside
    have notEmpty := Nat.zero_lt_of_lt inside
    exact (requires_addSum bounds notEmpty (fun _ _ => inside) fun _ => id).bind
      (requires_addSum bounds notEmpty (fun _ => id) fun _ _ => inside)
  refine (Requires.forM lines).congr fun cells _ => ⟨fun all => ?_, fun all index inside => ?_⟩
  · exact ⟨fun row inside => (all row (List.mem_range.mpr inside)).1,
      fun column inside => (all column (List.mem_range.mpr inside)).2⟩
  · exact ⟨all.row index (List.mem_range.mp inside), all.column index (List.mem_range.mp inside)⟩

end Sums

/-! ### Sums that are refused -/

/-- There is no sum of no cells. -/
theorem fails_addSum_nil (total : Int) : Fails (addSum [] total) :=
  Fails.bind (Fails.bind (Fails.check rfl) _) _

/-- A sum that no variable can have is refused at the latest when it is bound. -/
theorem fails_addSum {total : Int} (beyond : valueCeiling < total) (cells : List String) :
    Fails (addSum cells total) := by
  have resolves : Fails (resolveResult .sum (.literal total)) :=
    Fails.bind (Fails.check (if_neg fun bounds => absurd bounds.2 (Int.not_le.mpr beyond))) _
  refine Fails.bind (Fails.after _ fun _ => Fails.after _ fun operands =>
    Fails.after _ fun model => ?_) _
  dsimp only
  cases (model.declared? .sum operands).bind Constraint.result with
  | none => exact resolves.bind _
  | some existing => exact resolves.bind _

end Puzzle

end ConstraintSearch
