import ConstraintSearch.Report.Casing
import ConstraintSearch.Search.Engine

/-!
# Statistics in lines

A statistic is written as a line `heading name=value`, with the name in a chosen casing, and a
closing line may follow a block of statistics. Nothing is written until a format is chosen, and the
first choice stays.
-/

namespace ConstraintSearch

/-- How statistics are written. -/
structure StatisticsFormat where
  /-- What every line starts with. -/
  heading : String
  /-- The line behind a block of statistics. -/
  closing : Option String := none
  /-- The casing of the names; without one they stay as they are. -/
  casing : Option Casing := none
deriving DecidableEq

namespace StatisticsFormat

/-- The line of one statistic. -/
def line (format : StatisticsFormat) (name value : String) : String :=
  let name := format.casing.elim name fun casing => casing.write name
  format.heading ++ " " ++ name ++ "=" ++ value

/-- The lines of a block of statistics. -/
def block (format : StatisticsFormat) (statistics : Statistics) : List String :=
  [("spaces", statistics.spaces), ("rejectedSpaces", statistics.rejected),
    ("propagations", statistics.propagations), ("solutions", statistics.solutions),
    ("peakDepth", statistics.peakDepth)].map (fun (name, value) =>
      format.line name (toString value)) ++
    format.closing.toList

end StatisticsFormat

/-- The format, once one is chosen. -/
structure StatisticsLog where
  format : Option StatisticsFormat := none
deriving DecidableEq

namespace StatisticsLog

/-- Chooses the format, unless one is chosen already. -/
def choose (log : StatisticsLog) (format : StatisticsFormat) : StatisticsLog :=
  ⟨log.format.or format⟩

/-- Whether statistics are written. -/
def isOn (log : StatisticsLog) : Bool :=
  log.format.isSome

/-- The line of one statistic. -/
def lines (log : StatisticsLog) (name value : String) : List String :=
  log.format.toList.map fun format => format.line name value

/-- The line behind a block of statistics. -/
def closing (log : StatisticsLog) : List String :=
  log.format.toList.flatMap fun format => format.closing.toList

/-- The lines of a block of statistics. -/
def block (log : StatisticsLog) (statistics : Statistics) : List String :=
  log.format.toList.flatMap fun format => format.block statistics

end StatisticsLog

end ConstraintSearch
