import ConstraintSearch.CommandLine

/-!
# The program

Prints what the command line asks for.
-/

/-- Follows the arguments, prints the lines, puts the advice beside them and ends with the code. -/
def main (arguments : List String) : IO UInt32 := do
  let result := ConstraintSearch.CommandLine.run arguments
  for line in result.lines do
    IO.println line
  for line in result.advice do
    IO.eprintln line
  return result.code
