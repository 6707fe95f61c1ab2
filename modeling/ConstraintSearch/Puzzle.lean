import ConstraintSearch.Model.Build

/-!
# Puzzles

Four well-known problems as models: queens that do not attack each other, a sum of words, magic
squares, and grids with one mark in every row and column.
-/

namespace ConstraintSearch

/-- One of the problems. -/
inductive Puzzle
  | queens
  | sendMoreMoney
  | magicSquare
  | grid
deriving DecidableEq, Repr

/-- A model and the names of the variables that make up its answer. -/
structure PuzzleModel where
  model : Model
  output : List String

namespace Puzzle

/-- The puzzle of a name. -/
def ofName? : String → Option Puzzle
  | "queens" => some queens
  | "send-more-money" => some sendMoreMoney
  | "magic-square" => some magicSquare
  | "grid" => some grid
  | _ => none

/-- Keeps the two queens, which are the given number of rows apart, off each other's diagonals. -/
def separate (queen other : String) (distance : Nat) : Build Unit := do
  let up ← addValueConstraint .plus [.named queen, .literal distance] none
  addComparison (.compare .neq) [.position up, .named other]
  let down ← addValueConstraint .plus [.named other, .literal distance] none
  addComparison (.compare .neq) [.position down, .named queen]

/-- Separates every queen from those in the rows behind it. -/
def separateAll : List String → Build Unit
  | [] => pure ()
  | queen :: others => do
    others.zipIdx.forM fun (other, index) => separate queen other (index + 1)
    separateAll others

/-- One queen in every row of a square board, none of which attacks another one. -/
def buildQueens (size : Nat) : Build (List String) := do
  let queens := (List.range size).map fun row => s!"q{row}"
  queens.forM fun queen => do
    let _ ← addRange queen 0 (size - 1)
  addComparison .distinct (queens.map .named)
  separateAll queens
  setTargets (.named queens)
  return queens

/-- The number that the letters spell, the most significant one first. -/
def spell (letters : List String) : Build VariableId := do
  let terms ← letters.reverse.zipIdx.mapM fun (letter, position) => do
    if position = 0 then
      Build.lookup letter
    else
      addValueConstraint .mul [.named letter, .literal (Nat.pow 10 position)] none
  addValueConstraint .sum (terms.map .position) none

/-- SEND + MORE = MONEY, where different letters are different digits. -/
def buildSendMoreMoney : Build (List String) := do
  let letters := ["S", "E", "N", "D", "M", "O", "R", "Y"]
  letters.forM fun letter => do
    let _ ← addRange letter 0 9
  addComparison .distinct (letters.map .named)
  addComparison (.compare .gt) [.named "S", .literal 0]
  addComparison (.compare .gt) [.named "M", .literal 0]
  let send ← spell ["S", "E", "N", "D"]
  let more ← spell ["M", "O", "R", "E"]
  let money ← spell ["M", "O", "N", "E", "Y"]
  let _ ← addValueConstraint .plus [.position send, .position more] (some (.position money))
  setTargets (.named letters)
  return letters

/-- The names of the cells of a square, row by row: a letter and the two coordinates. -/
def cellName (letter : String) (row column : Nat) : String :=
  s!"{letter}{row}_{column}"

/-- The names of all cells of a square, row by row. -/
def cellNames (letter : String) (size : Nat) : List String :=
  (List.range size).flatMap fun row =>
    (List.range size).map fun column => cellName letter row column

/-- Gives the cells of a square a sum. -/
def addSum (cells : List String) (total : Int) : Build Unit := do
  let _ ← addValueConstraint .sum (cells.map .named) (some (.literal total))

/-- Gives every row and every column of a square the same sum. -/
def addLineSums (letter : String) (size : Nat) (total : Int) : Build Unit :=
  (List.range size).forM fun index => do
    addSum ((List.range size).map fun column => cellName letter index column) total
    addSum ((List.range size).map fun row => cellName letter row index) total

/-- The numbers from 1 on in a square, where rows, columns and diagonals have the same sum. -/
def buildMagicSquare (size : Nat) : Build (List String) := do
  let cells := cellNames "c" size
  cells.forM fun cell => do
    let _ ← addRange cell 1 (size * size)
  let total : Nat := size * (size * size + 1) / 2
  addComparison .distinct (cells.map .named)
  addLineSums "c" size total
  addSum ((List.range size).map fun index => cellName "c" index index) total
  addSum ((List.range size).map fun index => cellName "c" index (size - 1 - index)) total
  setTargets (.named cells)
  return cells

/-- The weights of a cell of the grid: a mark is three times as likely as none. -/
def cellWeights : MarkovMatrix String where
  legend := [0, 1]
  rows := [{ weights := [1.0, 3.0], guard := none }]
  expansion := none

/-- A square with one mark in every row and every column, whose cells are drawn by weight. -/
def buildGrid (size : Nat) : Build (List String) := do
  let cells := cellNames "g" size
  cells.forM fun cell => do
    let _ ← addRange cell 0 1
    setVariableStrategy cell (.markov cellWeights)
  addLineSums "g" size 1
  setTargets (.named cells)
  return cells

/-- Declares the puzzle of a size, and gives the names of the variables that make up its answer. -/
def build : Puzzle → (size : Nat) → Build (List String)
  | queens, size => buildQueens size
  | sendMoreMoney, _ => buildSendMoreMoney
  | magicSquare, size => buildMagicSquare size
  | grid, size => buildGrid size

/-- The model of the puzzle of a size, and what happened while it was built. -/
def model (puzzle : Puzzle) (size : Nat) (journal : Journal) :
    Except Refusal PuzzleModel × Journal :=
  match (puzzle.build size).run { journal } with
  | (.ok output, workspace) => (.ok { model := workspace.model, output }, workspace.journal)
  | (.error refusal, workspace) => (.error refusal, workspace.journal)

end Puzzle

end ConstraintSearch
