import ConstraintSearch.Proofs.Puzzle.Lines
import Mathlib.Algebra.BigOperators.Ring.Finset
import Mathlib.Algebra.Ring.Parity

/-!
# Magic squares and grids

The model of the magic square has just the magic squares as solutions, and there is none when the
sum of a line is not a value that variables can take. The model of the grid has just the squares
with one mark in every row and every column; the weights of its cells exclude no other values than
the domains do.
-/

namespace ConstraintSearch

open Build

namespace Puzzle

variable {size : Nat}

/-! ### Magic squares -/

/-- The sum of each line of a magic square. -/
def magicSum (size : Nat) : Nat :=
  size * (size * size + 1) / 2

/-- There is no remainder: a number and its square are both even or both odd. -/
theorem two_mul_magicSum (size : Nat) : 2 * magicSum size = size * (size * size + 1) := by
  refine Nat.mul_div_cancel' ?_
  rw [← even_iff_two_dvd, Nat.even_mul, Nat.even_add_one, Nat.even_mul, or_self]
  exact em _

/-- The numbers from 1 on are in the cells, each once, and every row, every column and both
diagonals have the same sum. -/
structure IsMagic (size : Nat) (cells : Nat → Int) : Prop where
  perm : ((List.range (size * size)).map cells).Perm
    ((List.range (size * size)).map fun place : Nat => (place + 1 : Int))
  row : ∀ row < size, 2 * lineSum size cells (fun column => placeOf size row column) =
    size * (size * size + 1)
  column : ∀ column < size, 2 * lineSum size cells (fun row => placeOf size row column) =
    size * (size * size + 1)
  diagonal : 2 * lineSum size cells (fun index => placeOf size index index) =
    size * (size * size + 1)
  antidiagonal : 2 * lineSum size cells (fun index => placeOf size index (size - 1 - index)) =
    size * (size * size + 1)

/-- The values from 1 to the count are there, each once, if as many different ones are. -/
theorem perm_counted_iff {count : Nat} {cells : Nat → Int} :
    ((List.range count).map cells).Perm ((List.range count).map fun place : Nat =>
      (place + 1 : Int)) ↔ (∀ place < count, 1 ≤ cells place ∧ cells place ≤ count) ∧
        ((List.range count).map cells).Nodup := by
  have counted : ∀ value, value ∈ ((List.range count).map fun place : Nat => (place + 1 : Int)) ↔
      1 ≤ value ∧ value ≤ count := by
    intro value
    simp only [List.mem_map, List.mem_range]
    exact ⟨fun ⟨place, inside, same⟩ => by omega, fun bounds =>
      ⟨(value - 1).toNat, by omega, by omega⟩⟩
  constructor
  · intro perm
    refine ⟨fun place inside => (counted _).mp (perm.mem_iff.mp ?_), perm.nodup_iff.mpr ?_⟩
    · exact List.mem_map_of_mem (List.mem_range.mpr inside)
    · exact List.nodup_range.map fun _ _ same => Int.ofNat_inj.mp (add_right_cancel same)
  · rintro ⟨bounds, different⟩
    have subset : (List.range count).map cells ⊆ (List.range count).map fun place : Nat =>
        (place + 1 : Int) := by
      intro value member
      obtain ⟨place, inside, rfl⟩ := List.mem_map.mp member
      exact (counted _).mpr (bounds place (List.mem_range.mp inside))
    exact (List.subperm_of_subset different subset).perm_of_length_le (by simp)

/-- A square is magic if its values are different ones of those that are counted and its lines have
the magic sum. -/
theorem isMagic_iff {cells : Nat → Int} : IsMagic size cells ↔
    (∀ place < size * size, 1 ≤ cells place ∧ cells place ≤ (size * size : Nat)) ∧
      ((List.range (size * size)).map cells).Nodup ∧ LinesSumTo size (magicSum size) cells ∧
      lineSum size cells (fun index => placeOf size index index) = magicSum size ∧
      lineSum size cells (fun index => placeOf size index (size - 1 - index)) = magicSum size := by
  have exact : ∀ sum : Int, 2 * sum = size * (size * size + 1) ↔ sum = magicSum size := by
    intro sum
    have same : (2 * magicSum size : Int) = size * (size * size + 1) := by
      exact_mod_cast two_mul_magicSum size
    omega
  rw [← and_assoc, ← perm_counted_iff]
  constructor
  · rintro ⟨perm, row, column, diagonal, antidiagonal⟩
    simp only [exact] at row column diagonal antidiagonal
    exact ⟨perm, ⟨row, column⟩, diagonal, antidiagonal⟩
  · rintro ⟨perm, ⟨row, column⟩, diagonal, antidiagonal⟩
    simp only [← exact] at row column diagonal antidiagonal
    exact ⟨perm, row, column, diagonal, antidiagonal⟩

/-- There are no more cells than the sum of a line. -/
theorem cells_le_magicSum (notEmpty : 0 < size) : size * size ≤ magicSum size := by
  have twice : 2 * size ≤ size * size + 1 := by
    rcases Nat.lt_or_ge size 2 with single | several
    · obtain rfl : size = 1 := by omega
      exact Nat.le_refl _
    · exact Nat.le_succ_of_le (Nat.mul_le_mul_right size several)
  refine Nat.le_of_mul_le_mul_left ?_ Nat.two_pos
  calc 2 * (size * size)
    _ = size * (2 * size) := Nat.mul_left_comm 2 size size
    _ ≤ size * (size * size + 1) := Nat.mul_le_mul_left size twice
    _ = 2 * magicSum size := (two_mul_magicSum size).symm

/-- The board of the magic square. -/
def magicBoard (size : Nat) : Model :=
  .board (cellNames "c" size) (.range 1 (size * size)) none

section Fitting

variable (notEmpty : 0 < size) (fits : (magicSum size : Int) ≤ valueCeiling)

include notEmpty fits

/-- Every cell can take the values that are counted, as none exceeds the magic sum. -/
theorem bounds_cells : (size * size : Int) ≤ valueCeiling := by
  have few : (size * size : Int) ≤ magicSum size := by exact_mod_cast cells_le_magicSum notEmpty
  exact Int.le_trans few fits

/-- These are the values from 1 to the number of cells. -/
theorem mem_numbers {value : Int} :
    value ∈ Domain.range 1 (size * size) ↔ 1 ≤ value ∧ value ≤ (size * size : Nat) := by
  have ceiling := bounds_cells notEmpty fits
  have floor : valueFloor = 0 := rfl
  rw [Domain.mem_range]
  omega

/-- The cells are declared one by one, which gives their board. -/
theorem gives_declareMagicSquare :
    Gives ((cellNames "c" size).forM fun cell => do let _ ← addRange cell 1 (size * size)) {}
      (.ok ()) (magicBoard size) := by
  refine gives_declareBoard (nodup_cellNames "c" size) fun start name member unprepared new => ?_
  have valid := checkName_of_mem_cellNames rfl (by decide) (by decide) member
  have ordered : (1 : Int) ≤ size * size := by exact_mod_cast Nat.mul_pos notEmpty notEmpty
  exact (gives_addRange unprepared valid new ordered (by decide) (bounds_cells notEmpty fits)).bind
    (Gives.pure ())

/-- Building the square comes to a model that has the magic squares. -/
theorem succeeds_buildMagicSquare : Succeeds (buildMagicSquare size) {} fun output after =>
    output = cellNames "c" size ∧ after.Captures (cellNames "c" size) (IsMagic size) := by
  have bounds : valueFloor ≤ (magicSum size : Int) ∧ (magicSum size : Int) ≤ valueCeiling :=
    ⟨Int.natCast_nonneg _, fits⟩
  have distinct : Requires (magicBoard size)
      (addComparison .distinct ((cellNames "c" size).map .named)) _ :=
    Model.requires_distinct (nodup_cellNames "c" size)
  have lines : Requires (magicBoard size) (addLineSums "c" size (magicSum size)) _ :=
    requires_addLineSums bounds
  have diagonal : Requires (magicBoard size)
      (addSum ((List.range size).map fun index => cellName "c" index index) (magicSum size)) _ :=
    requires_addSum bounds notEmpty (fun _ => id) fun _ => id
  have antidiagonal : Requires (magicBoard size)
      (addSum ((List.range size).map fun index => cellName "c" index (size - 1 - index))
        (magicSum size)) _ :=
    requires_addSum bounds notEmpty (fun _ => id) fun _ _ => by omega
  refine .bind_of_gives (gives_declareMagicSquare notEmpty fits) ?_
  refine (distinct _ _ (Model.poses_ofVariables _)).bind fun _ _ poses => ?_
  refine (lines _ _ poses).bind fun _ _ poses => ?_
  refine (diagonal _ _ poses).bind fun _ _ poses => ?_
  refine (antidiagonal _ _ poses).bind fun _ _ poses => ?_
  refine (Requires.setTargets _ _ _ _ poses).bind fun _ after poses => .pure ⟨rfl, ?_⟩
  refine (poses.captures (nodup_cellNames "c" size)).congr fun cells => ?_
  simp only [isMagic_iff, length_cellNames, mem_numbers notEmpty fits, true_and,
    and_true, and_assoc]

end Fitting

/-! ### Magic squares that are refused -/

/-- It is refused where there is no cell, or no value that the sum could be. -/
theorem fails_buildMagicSquare (unfit : ¬ (0 < size ∧ (magicSum size : Int) ≤ valueCeiling)) :
    Fails (buildMagicSquare size) := by
  refine Fails.after _ fun _ => Fails.after _ fun _ => ?_
  cases size with
  | zero => exact Fails.after _ fun _ => Fails.bind (fails_addSum_nil _) _
  | succ others =>
    have beyond : valueCeiling < (magicSum (others + 1) : Int) := by
      by_contra fits
      exact unfit ⟨Nat.succ_pos others, Int.not_lt.mp fits⟩
    refine Fails.bind ?_ _
    rw [addLineSums, List.range_succ_eq_map]
    exact Fails.bind (Fails.bind (fails_addSum beyond _) _) _

/-! ### Grids -/

/-- Each cell has a mark or none, and just one cell in each row and in each column has one. -/
structure OneMarkEach (size : Nat) (cells : Nat → Int) : Prop where
  marks : ∀ place < size * size, cells place = 0 ∨ cells place = 1
  row : ∀ row < size, ∃! column, column < size ∧ cells (placeOf size row column) = 1
  column : ∀ column < size, ∃! row, row < size ∧ cells (placeOf size row column) = 1

/-- The sum along a line counts the marks on it. -/
theorem lineSum_eq_one_iff {cells : Nat → Int} {place : Nat → Nat}
    (marks : ∀ step < size, cells (place step) = 0 ∨ cells (place step) = 1) :
    lineSum size cells place = 1 ↔ ∃! step, step < size ∧ cells (place step) = 1 := by
  have counts : lineSum size cells place =
      ((Finset.range size).filter fun step => cells (place step) = 1).card := by
    rw [← Finset.sum_boole]
    change ∑ step ∈ Finset.range size, cells (place step) = _
    refine Finset.sum_congr rfl fun step inside => ?_
    rcases marks step (Finset.mem_range.mp inside) with none | mark
    · rw [none, if_neg (by decide)]
    · rw [mark, if_pos rfl]
  rw [counts, Nat.cast_eq_one, Finset.card_eq_one, Finset.singleton_iff_unique_mem]
  simp only [Finset.mem_filter, Finset.mem_range]

/-- There is one mark in each row and column if they sum to 1. -/
theorem oneMarkEach_iff {cells : Nat → Int} : OneMarkEach size cells ↔
    (∀ place < size * size, cells place = 0 ∨ cells place = 1) ∧ LinesSumTo size 1 cells := by
  have ofRow : (∀ place < size * size, cells place = 0 ∨ cells place = 1) → ∀ row < size,
      (lineSum size cells (fun column => placeOf size row column) = 1 ↔
        ∃! column, column < size ∧ cells (placeOf size row column) = 1) :=
    fun marks _ inside => lineSum_eq_one_iff fun _ columnInside =>
      marks _ (placeOf_lt inside columnInside)
  have ofColumn : (∀ place < size * size, cells place = 0 ∨ cells place = 1) → ∀ column < size,
      (lineSum size cells (fun row => placeOf size row column) = 1 ↔
        ∃! row, row < size ∧ cells (placeOf size row column) = 1) :=
    fun marks _ inside => lineSum_eq_one_iff fun _ rowInside =>
      marks _ (placeOf_lt rowInside inside)
  constructor
  · rintro ⟨marks, row, column⟩
    exact ⟨marks, fun index inside => (ofRow marks index inside).mpr (row index inside),
      fun index inside => (ofColumn marks index inside).mpr (column index inside)⟩
  · rintro ⟨marks, row, column⟩
    exact ⟨marks, fun index inside => (ofRow marks index inside).mp (row index inside),
      fun index inside => (ofColumn marks index inside).mp (column index inside)⟩

/-- The board of the grid, whose cells are weighed. -/
def gridBoard (size : Nat) : Model :=
  .board (cellNames "g" size) (.range 0 1) (some (.markov cellWeights))

/-- A cell has a mark or has none. -/
theorem mem_marks {value : Int} : value ∈ Domain.range 0 1 ↔ value = 0 ∨ value = 1 := by
  have floor : valueFloor = 0 := rfl
  have ceiling : (1 : Int) ≤ valueCeiling := by decide
  rw [Domain.mem_range]
  omega

/-- Both values of a cell have a positive weight. -/
theorem weightOf_cellWeights_pos {value : Int} (mark : value = 0 ∨ value = 1) (domain : Domain)
    (isTrue : String → Bool) : 0.0 < cellWeights.weightOf value domain isTrue := by
  rcases mark with rfl | rfl
  · change (0.0 : Float) < 1.0
    decide
  · change (0.0 : Float) < 3.0
    decide

/-- The weights of the grid exclude nothing that its domains allow. -/
theorem weighed_of_poses {model : Model} {requirement : (VariableId → Int) → Prop}
    (poses : (gridBoard size).Poses model requirement) {assignment : VariableId → Int}
    (satisfied : model.Satisfied assignment) : model.Weighed assignment := by
  intro variableId matrix isStrategy
  rw [poses.strategy_eq] at isStrategy
  obtain ⟨inside, same⟩ := Model.lt_length_of_strategy_board isStrategy
  cases same
  exact weightOf_cellWeights_pos
    (mem_marks.mp (Model.admits_board_iff.mp (poses.meets satisfied).1 variableId inside)) _ _

/-- The cells are declared one by one, each with its strategy. -/
theorem gives_declareGrid : Gives ((cellNames "g" size).forM fun cell => do
      let _ ← addRange cell 0 1
      setVariableStrategy cell (.markov cellWeights)) {} (.ok ()) (gridBoard size) := by
  refine gives_declareBoard (nodup_cellNames "g" size) fun start name member unprepared new => ?_
  have valid := checkName_of_mem_cellNames rfl (by decide) (by decide) member
  have found : (start.vars.push { name, domain := .range 0 1 }).keyOf? name =
      some start.vars.size :=
    Directory.keyOf?_push_of_new new
  refine (gives_addRange unprepared valid new (by decide) (by decide) (by decide)).bind ?_
  have weighed := @gives_setVariableStrategy
    { start with vars := start.vars.push { name, domain := .range 0 1 } } unprepared name _ found
    (.markov cellWeights)
  dsimp only at weighed
  rwa [Directory.modify_push] at weighed

/-- What the grid comes to: the weights may be left out or kept. -/
theorem succeeds_buildGrid (size : Nat) : Succeeds (buildGrid size) {} fun output after =>
    output = cellNames "g" size ∧ after.Captures (cellNames "g" size) (OneMarkEach size) ∧
      ∀ assignment, after.Satisfied assignment → after.Weighed assignment := by
  have lines : Requires (gridBoard size) (addLineSums "g" size 1) _ :=
    requires_addLineSums (by decide)
  refine .bind_of_gives gives_declareGrid ?_
  refine (lines _ _ (Model.poses_ofVariables _)).bind fun _ _ poses => ?_
  refine (Requires.setTargets _ _ _ _ poses).bind fun _ after poses =>
    .pure ⟨rfl, ?_, fun _ => weighed_of_poses poses⟩
  refine (poses.captures (nodup_cellNames "g" size)).congr fun cells => ?_
  simp only [oneMarkEach_iff, length_cellNames, mem_marks, true_and, and_true]

/-! ### The models of the squares -/

/-- **Squares.** A magic square has a model if it has cells and its lines have a sum that variables
can take. Its cells then satisfy the model exactly when they make up a magic square. A grid always
has a model, and its cells satisfy the constraints and the weights exactly when each row and each
column has one mark. -/
theorem squares_exact (size : Nat) (journal : Journal) :
    ((∃ result, (magicSquare.model size journal).1 = .ok result) ↔
      0 < size ∧ (magicSum size : Int) ≤ valueCeiling) ∧
        (∀ result, (magicSquare.model size journal).1 = .ok result →
          result.output = cellNames "c" size ∧
            result.model.Captures (cellNames "c" size) (IsMagic size)) ∧
      ∃ result, (grid.model size journal).1 = .ok result ∧
        result.output = cellNames "g" size ∧
          result.model.Captures (cellNames "g" size) (OneMarkEach size) ∧
        ∀ cells : Nat → Int,
          (∃ assignment, (∀ place < size * size, assignment place = cells place) ∧
            result.model.Satisfied assignment ∧ result.model.Weighed assignment) ↔
              OneMarkEach size cells := by
  have succeeds (fits : 0 < size ∧ (magicSum size : Int) ≤ valueCeiling) :
      Succeeds (magicSquare.build size) {} _ :=
    succeeds_buildMagicSquare fits.1 fits.2
  have fitting : ∀ result, (magicSquare.model size journal).1 = .ok result →
      0 < size ∧ (magicSum size : Int) ≤ valueCeiling := by
    intro result isModel
    by_contra unfit
    have fails : Leads (magicSquare.build size) {} (fun _ _ => False) fun _ => True :=
      fails_buildMagicSquare unfit {}
    exact done_of_model fails isModel
  refine ⟨⟨fun ⟨result, isModel⟩ => fitting result isModel, fun fits => ?_⟩,
    fun result isModel => ?_, ?_⟩
  · obtain ⟨result, isModel, -⟩ := exists_model_of_succeeds (succeeds fits) journal
    exact ⟨result, isModel⟩
  · exact done_of_model (succeeds (fitting result isModel)) isModel
  · have gridSucceeds : Succeeds (grid.build size) {} _ := succeeds_buildGrid size
    obtain ⟨result, isModel, isOutput, captures, weighed⟩ :=
      exists_model_of_succeeds gridSucceeds journal
    refine ⟨result, isModel, isOutput, captures, fun cells => ?_⟩
    rw [← captures.exists_iff, length_cellNames]
    exact exists_congr fun assignment => and_congr_right fun _ =>
      and_iff_left_of_imp (weighed assignment)

/-- The square of the numbers up to 9 with 2, 7 and 6 in its first row is magic. -/
theorem squares_exact_three : ∃ result, (magicSquare.model 3 {}).1 = .ok result ∧
    ∃ assignment, (∀ place < 9, assignment place = [2, 7, 6, 9, 5, 1, 4, 3, 8].getD place 0) ∧
      result.model.Satisfied assignment := by
  obtain ⟨result, isModel⟩ := (squares_exact 3 {}).1.mpr ⟨by decide, by decide⟩
  obtain ⟨-, captures⟩ := (squares_exact 3 {}).2.1 result isModel
  have magic : IsMagic 3 fun place => [2, 7, 6, 9, 5, 1, 4, 3, 8].getD place 0 :=
    ⟨by decide, by decide, by decide, by decide, by decide⟩
  exact ⟨result, isModel, (captures.exists_iff _).mpr magic⟩

end Puzzle

end ConstraintSearch
