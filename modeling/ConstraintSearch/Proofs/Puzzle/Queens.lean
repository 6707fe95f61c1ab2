import ConstraintSearch.Proofs.Puzzle.Board

/-!
# Queens

The model of the queens has just the placements without attacks as solutions: a queen is kept off a
diagonal of another one by an anonymous sum, which other pairs of queens at the same distance share.
-/

namespace ConstraintSearch

open Build

namespace Build

variable {board model : Model} {requirement : (VariableId → Int) → Prop}

/-- A variable and a distance have an anonymous sum, which they tell. -/
theorem succeeds_addOffset (poses : board.Poses model requirement) {name : String}
    {place : VariableId} (named : board.vars.keyOf? name = some place) {distance : Int}
    (bounds : valueFloor ≤ distance ∧ distance ≤ valueCeiling)
    (room : ∀ cells, board.vars.Admits cells →
      valueFloor ≤ cells place + distance ∧ cells place + distance ≤ valueCeiling) :
    Succeeds (addValueConstraint .plus [.named name, .literal distance] none) model fun sum after =>
      board.Poses after requirement ∧ sum < after.vars.size ∧
        ∀ assignment, after.Satisfied assignment →
          assignment sum = assignment place + distance := by
  have known : (Operand.named name).referent? model = some place :=
    poses.retains.keyOf?_of_some named
  have resolves : ∀ operand ∈ [Operand.named name, .literal distance], operand.Resolves model := by
    simp only [List.forall_mem_cons]
    exact ⟨.inl ⟨place, known⟩, .inr ⟨distance, rfl, bounds⟩, nofun⟩
  refine .bind_of_gives (Gives.check rfl) ((succeeds_resolveOperands poses resolves).bind ?_)
  rintro variableIds middle ⟨middlePoses, grows, found⟩
  obtain ⟨literal, isLiteral, rfl⟩ : ∃ literal,
      (Operand.literal distance).referent? middle = some literal ∧
        variableIds = [place, literal] := by
    cases forall₂_of_mapM found with
    | cons isPlace rest =>
      cases rest with
      | cons isLiteral rest =>
        cases rest
        cases (grows.toRetains.referent?_of_some known).symm.trans isPlace
        exact ⟨_, isLiteral, rfl⟩
  have valued : ∀ assignment, middle.Satisfied assignment → assignment literal = distance :=
    fun assignment => middlePoses.fixesLiterals.eq_of_satisfied isLiteral
  have inside := middlePoses.fixesLiterals.lt_size_of_mapM found
  apply Leads.bind_of_gives Gives.model
  -- The same sum may have been declared before; then its result is shared and nothing is added.
  cases declared : (middle.declared? .plus [place, literal]).bind Constraint.result with
  | some existing =>
    refine .pure ⟨middlePoses, middlePoses.sound.lt_size_of_declared? rfl rfl declared,
      fun assignment satisfied => ?_⟩
    obtain ⟨former, isFormer, isResult⟩ := Option.bind_eq_some_iff.mp declared
    obtain ⟨member, sameOperator, sameOperands⟩ := Model.mem_of_declared? isFormer
    have holds := satisfied.2 former member
    rw [Constraint.Holds, sameOperator, sameOperands, isResult] at holds
    rw [← valued assignment satisfied]
    exact holds.symm
  | none =>
    have told : ∀ assignment, (middle.withResult .plus [place, literal]).Satisfied assignment ↔
        middle.Satisfied assignment ∧
          assignment middle.vars.size = assignment place + distance := by
      intro assignment
      rw [middle.satisfied_withResult_iff]
      refine and_congr_right fun satisfied => ?_
      have inRoom := room assignment (middlePoses.meets satisfied).1
      rw [← valued assignment satisfied] at inRoom ⊢
      constructor
      · rintro ⟨-, holds⟩
        exact holds.symm
      · intro same
        exact ⟨Domain.mem_full.mpr (same ▸ inRoom), same.symm⟩
    have posed := middlePoses.withResult (.plus place literal middle.vars.size) rfl inside told
      fun first second same => by rw [same place (inside place List.mem_cons_self)]
    refine .bind_of_gives (gives_pushAnonymous _)
      (.bind_of_gives (Gives.update _) (.pure ⟨posed, ?_, fun assignment satisfied => ?_⟩))
    · exact Nat.lt_of_lt_of_eq (Nat.lt_succ_self _) (Directory.size_push ..).symm
    · exact ((told assignment).mp satisfied).2

/-- A variable is kept from being the given distance above another one. -/
theorem requires_differ {name other : String} {place otherPlace : VariableId}
    (named : board.vars.keyOf? name = some place)
    (otherNamed : board.vars.keyOf? other = some otherPlace) {distance : Int}
    (bounds : valueFloor ≤ distance ∧ distance ≤ valueCeiling)
    (room : ∀ cells, board.vars.Admits cells →
      valueFloor ≤ cells place + distance ∧ cells place + distance ≤ valueCeiling) :
    Requires board (do
      let sum ← addValueConstraint .plus [.named name, .literal distance] none
      addComparison (.compare .neq) [.position sum, .named other])
      fun cells => cells place + distance ≠ cells otherPlace := by
  intro model requirement poses
  apply (succeeds_addOffset poses named bounds room).bind
  rintro sum middle ⟨middlePoses, sumInside, isSum⟩
  have found : [Operand.position sum, .named other].mapM (Operand.referent? middle) =
      some [sum, otherPlace] := by
    refine mapM_of_forall₂ (.cons (if_pos sumInside) (.cons ?_ .nil))
    exact middlePoses.retains.keyOf?_of_some otherNamed
  refine succeeds_addComparison middlePoses rfl rfl found (fun assignment satisfied => ?_)
    fun first second same => ?_
  · rw [← isSum assignment satisfied]
    exact Iff.rfl
  · rw [same place (Directory.lt_size_of_keyOf? named),
      same otherPlace (Directory.lt_size_of_keyOf? otherNamed)]

end Build

namespace Puzzle

/-! ### Separated queens -/

/-- The name of the queen in a row. -/
def queenName (row : Nat) : String :=
  s!"q{row}"

/-- The names of all queens, row by row. -/
def queenNames (size : Nat) : List String :=
  (List.range size).map queenName

/-- No two queens have the same name. -/
theorem nodup_queenNames (size : Nat) : (queenNames size).Nodup :=
  List.nodup_range.map fun _ _ same => Nat.repr_inj.mp ((String.append_right_inj _).mp same)

/-- All names of queens are valid. -/
theorem checkName_queenName (row : Nat) : checkName (queenName row) = .ok () :=
  checkName_eq_ok (String.toList_append.trans rfl) (by decide) (by decide)

/-- The board of the queens: a column for each row. -/
def queensBoard (size : Nat) : Model :=
  .board (queenNames size) (.range 0 (size - 1)) none

/-- The queen of a row is the variable with the number of the row. -/
theorem keyOf?_queenName {size row : Nat} (inside : row < size) :
    (queensBoard size).vars.keyOf? (queenName row) = some row := by
  refine Model.keyOf?_board (nodup_queenNames size) ?_
  rw [queenNames, List.getElem?_map, List.getElem?_range inside]
  rfl

/-- The columns are numbered from 0. -/
theorem mem_columns {size : Nat} (small : 2 * (size : Int) ≤ valueCeiling) {value : Int} :
    value ∈ Domain.range 0 (size - 1) ↔ 0 ≤ value ∧ value ≤ size - 1 := by
  rw [Domain.mem_range]
  have floor : valueFloor = 0 := rfl
  omega

/-- The board admits a column for each row. -/
theorem admits_queensBoard_iff {size : Nat} (small : 2 * (size : Int) ≤ valueCeiling)
    {cells : Nat → Int} : (queensBoard size).vars.Admits cells ↔
      ∀ row < size, 0 ≤ cells row ∧ cells row ≤ size - 1 := by
  rw [queensBoard, Model.admits_board_iff, queenNames, List.length_map, List.length_range]
  exact forall₂_congr fun _ _ => mem_columns small

/-- The queens in two rows, the first one above the second one, do not share a diagonal. -/
def OffDiagonals (cells : Nat → Int) (row other : Nat) : Prop :=
  cells row + (other - row : Nat) ≠ cells other ∧ cells other + (other - row : Nat) ≠ cells row

/-- The names of the queens below a row come with their distances. -/
theorem mem_zipIdx_queenNames {row count : Nat} {entry : String × Nat} :
    entry ∈ ((List.range' row count).map queenName).zipIdx ↔
      entry.2 < count ∧ queenName (row + entry.2) = entry.1 := by
  rw [List.mem_zipIdx_iff_getElem?, List.getElem?_eq_some_iff]
  simp only [List.length_map, List.length_range', List.getElem_map, List.getElem_range',
    Nat.one_mul, exists_prop]

section Separating

variable {size : Nat} (small : 2 * (size : Int) ≤ valueCeiling)

include small

/-- Separating two queens requires that they share no diagonal: both anonymous sums stay in bounds,
so they restrict nothing else. -/
theorem requires_separate {row other : Nat} (below : row < other) (inside : other < size) :
    Requires (queensBoard size) (separate (queenName row) (queenName other) (other - row))
      fun cells => OffDiagonals cells row other := by
  have floor : valueFloor = 0 := rfl
  have bounds : valueFloor ≤ ((other - row : Nat) : Int) ∧
      ((other - row : Nat) : Int) ≤ valueCeiling := by omega
  have room : ∀ place < size, ∀ cells, (queensBoard size).vars.Admits cells →
      valueFloor ≤ cells place + (other - row : Nat) ∧
        cells place + (other - row : Nat) ≤ valueCeiling := by
    intro place onBoard cells admits
    have column := (admits_queensBoard_iff small).mp admits place onBoard
    omega
  have rowInside := Nat.lt_trans below inside
  have up := requires_differ (keyOf?_queenName rowInside) (keyOf?_queenName inside) bounds
    (room row rowInside)
  have down := requires_differ (keyOf?_queenName inside) (keyOf?_queenName rowInside) bounds
    (room other inside)
  have both := up.bind down
  rw [bind_assoc] at both
  exact both

/-- Each queen is kept off the diagonals of those behind it, so that all pairs are separated. -/
theorem requires_separateAll {row count : Nat} (inside : row + count ≤ size) :
    Requires (queensBoard size) (separateAll ((List.range' row count).map queenName)) fun cells =>
      ∀ first second, row ≤ first → first < second → second < row + count →
        OffDiagonals cells first second := by
  induction count generalizing row with
  | zero => exact (Requires.pure _).congr fun cells _ => by simp; omega
  | succ count inductionHypothesis =>
    have each : ∀ entry ∈ ((List.range' (row + 1) count).map queenName).zipIdx,
        Requires (queensBoard size) (separate (queenName row) entry.1 (entry.2 + 1)) fun cells =>
          OffDiagonals cells row (row + 1 + entry.2) := by
      intro entry member
      obtain ⟨fewer, isName⟩ := mem_zipIdx_queenNames.mp member
      have separated := requires_separate small (show row < row + 1 + entry.2 by omega) (by omega)
      rwa [show row + 1 + entry.2 - row = entry.2 + 1 by omega, isName] at separated
    refine ((Requires.forM each).bind (inductionHypothesis (by omega))).congr fun cells _ => ?_
    constructor
    · rintro ⟨fromRow, others⟩ first second least less most
      by_cases isRow : first = row
      · subst isRow
        have separated := fromRow (queenName second, second - first - 1)
          (mem_zipIdx_queenNames.mpr ⟨by omega, by congr 1; omega⟩)
        rwa [show first + 1 + (second - first - 1) = second by omega] at separated
      · exact others first second (by omega) less (by omega)
    · intro all
      refine ⟨fun entry member => all row _ (Nat.le_refl _) (by omega) ?_,
        fun first second least less most => all first second (by omega) less (by omega)⟩
      have fewer := (mem_zipIdx_queenNames.mp member).1
      omega

end Separating

/-! ### The model of the queens -/

/-- Each row has its queen in some column, and no two queens share a column or a diagonal. -/
structure NonAttacking (size : Nat) (columns : Nat → Int) : Prop where
  onBoard : ∀ row < size, 0 ≤ columns row ∧ columns row ≤ size - 1
  apart : ∀ first second, first < second → second < size →
    columns first ≠ columns second ∧ (columns first - columns second).natAbs ≠ second - first

/-- The queens are declared one by one, which gives their board. -/
theorem gives_declareQueens {size : Nat} (small : 2 * (size : Int) ≤ valueCeiling) :
    Gives ((queenNames size).forM fun queen => do let _ ← addRange queen 0 (size - 1)) {} (.ok ())
      (queensBoard size) := by
  refine gives_declareBoard (nodup_queenNames size) fun start name inside unprepared new => ?_
  obtain ⟨row, isRow, rfl⟩ := List.mem_map.mp inside
  have floor : valueFloor = 0 := rfl
  have isRow := List.mem_range.mp isRow
  exact (gives_addRange unprepared (checkName_queenName row) new (by omega) (by omega)
    (by omega)).bind (Gives.pure ())

/-- Attacks are columns and diagonals shared by two queens, of which one is above the other. -/
theorem nonAttacking_iff {size : Nat} {columns : Nat → Int} : NonAttacking size columns ↔
    (∀ row < size, 0 ≤ columns row ∧ columns row ≤ size - 1) ∧
      ((List.range size).map columns).Nodup ∧ ∀ first second, first < second → second < size →
        OffDiagonals columns first second := by
  have columnsDiffer : ((List.range size).map columns).Nodup ↔
      ∀ first second, first < second → second < size → columns first ≠ columns second := by
    rw [List.Nodup, List.pairwise_map, List.pairwise_iff_getElem]
    simp only [List.length_range, List.getElem_range]
    exact ⟨fun differ first second less inside =>
      differ first second (Nat.lt_trans less inside) inside less,
      fun differ first second _ inside less => differ first second less inside⟩
  have diagonalsDiffer : ∀ {first second}, first < second →
      (OffDiagonals columns first second ↔
        (columns first - columns second).natAbs ≠ second - first) := by
    intro first second less
    rw [OffDiagonals]
    omega
  rw [columnsDiffer]
  constructor
  · rintro ⟨onBoard, apart⟩
    exact ⟨onBoard, fun first second less inside => (apart first second less inside).1,
      fun first second less inside => (diagonalsDiffer less).mpr (apart first second less inside).2⟩
  · rintro ⟨onBoard, columnsApart, diagonalsApart⟩
    exact ⟨onBoard, fun first second less inside =>
      ⟨columnsApart first second less inside,
        (diagonalsDiffer less).mp (diagonalsApart first second less inside)⟩⟩

/-- Building the queens comes to a model whose queens do not attack each other. -/
theorem succeeds_buildQueens {size : Nat} (small : 2 * (size : Int) ≤ valueCeiling) :
    Succeeds (buildQueens size) {} fun output after =>
      output = queenNames size ∧ after.Captures (queenNames size) (NonAttacking size) := by
  have distinct : Requires (queensBoard size)
      (addComparison .distinct ((queenNames size).map .named)) _ :=
    Model.requires_distinct (nodup_queenNames size)
  have separated := requires_separateAll small (Nat.le_of_eq (Nat.zero_add size))
  rw [← List.range_eq_range'] at separated
  refine .bind_of_gives (gives_declareQueens small) ?_
  refine (distinct _ _ (Model.poses_ofVariables _)).bind fun _ distinctModel distinctPoses => ?_
  refine (separated _ _ distinctPoses).bind fun _ separatedModel separatedPoses => ?_
  refine (Requires.setTargets _ _ _ _ separatedPoses).bind fun _ after poses => .pure ⟨rfl, ?_⟩
  refine (poses.captures (nodup_queenNames size)).congr fun columns => ?_
  simp only [queenNames, List.length_map, List.length_range, mem_columns small, nonAttacking_iff,
    true_and, and_true, Nat.zero_le, true_implies, Nat.zero_add]

/-- **The queens.** For every size whose sums variables can take, the model is built, and the queens
satisfy it exactly when they stand on the board and none of them attacks another one. Constants and
sums then have no choice. -/
theorem queens_exact (size : Nat) (small : 2 * (size : Int) ≤ valueCeiling) (journal : Journal) :
    ∃ result, (queens.model size journal).1 = .ok result ∧
      result.output = queenNames size ∧
        result.model.Captures (queenNames size) (NonAttacking size) := by
  have succeeds : Succeeds (queens.build size) {} fun output after =>
    output = queenNames size ∧ after.Captures (queenNames size) (NonAttacking size) :=
      succeeds_buildQueens small
  exact exists_model_of_succeeds succeeds journal

/-- On a board of size 4 the queens can stand in the columns 1, 3, 0 and 2. -/
theorem queens_exact_four : ∃ result, (queens.model 4 {}).1 = .ok result ∧
    ∃ assignment, (∀ row < 4, assignment row = [1, 3, 0, 2].getD row 0) ∧
      result.model.Satisfied assignment := by
  obtain ⟨result, isModel, -, captures⟩ := queens_exact 4 (by decide) {}
  have apart : ∀ second < 4, ∀ first < second, ([1, 3, 0, 2] : List Int).getD first 0 ≠
      [1, 3, 0, 2].getD second 0 ∧
        (([1, 3, 0, 2] : List Int).getD first 0 - [1, 3, 0, 2].getD second 0).natAbs ≠
          second - first := by
    decide
  have solution : NonAttacking 4 fun row => [1, 3, 0, 2].getD row 0 :=
    ⟨by decide, fun first second less inside => apart second inside first less⟩
  exact ⟨result, isModel, (captures.exists_iff _).mpr solution⟩

end Puzzle

end ConstraintSearch
