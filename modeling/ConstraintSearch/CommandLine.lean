import ConstraintSearch.Puzzle
import ConstraintSearch.Random.Xoshiro
import ConstraintSearch.Report.StatisticsLog
import ConstraintSearch.Search.Observers
import ConstraintSearch.Search.Solver

/-!
# The command line

The program solves a puzzle and prints its solutions. Its arguments are the name of the puzzle and
options, in any order. A long option has its value behind an equals sign or in the next argument;
short options may share one dash, and the value of the last of them may follow directly. An option
that takes a value, like one that does not, may be given once.
-/

namespace ConstraintSearch.CommandLine

/-- What the arguments ask for. -/
structure Options where
  puzzle : Option Puzzle := none
  size : Option Nat := none
  solutions : Option Nat := none
  allSolutions : Bool := false
  order : Option (Criterion String) := none
  strategy : Option (ValueStrategy String) := none
  seed : Option UInt64 := none
  timeLimit : Option Nat := none
  verbose : Bool := false
  logStatistics : Bool := false

/-- An option that takes a value. -/
inductive Setting
  | size
  | solutions
  | order
  | strategy
  | seed
  | timeLimit
deriving DecidableEq, Repr

/-- An option without a value. -/
inductive Switch
  | allSolutions
  | verbose
  | logStatistics
  | help
  | version
deriving DecidableEq, Repr

/-- What an option's name stands for. -/
inductive Flag
  | setting (setting : Setting)
  | switch (switch : Switch)
deriving DecidableEq, Repr

/-- The option of a long name. -/
def longFlag? : String → Option Flag
  | "size" => some (.setting .size)
  | "solutions" => some (.setting .solutions)
  | "all-solutions" => some (.switch .allSolutions)
  | "var-strategy" => some (.setting .order)
  | "value-strategy" => some (.setting .strategy)
  | "random-seed" => some (.setting .seed)
  | "time-limit" => some (.setting .timeLimit)
  | "verbose" => some (.switch .verbose)
  | "log-statistics" => some (.switch .logStatistics)
  | "help" => some (.switch .help)
  | "version" => some (.switch .version)
  | _ => none

/-- The option of a letter. -/
def shortFlag? : Char → Option Flag
  | 'n' => some (.setting .size)
  | 'a' => some (.switch .allSolutions)
  | 'r' => some (.setting .seed)
  | 't' => some (.setting .timeLimit)
  | 'v' => some (.switch .verbose)
  | 's' => some (.switch .logStatistics)
  | 'h' => some (.switch .help)
  | 'V' => some (.switch .version)
  | _ => none

/-- Why the arguments are not followed. -/
inductive Stop
  /-- They make no sense. -/
  | misuse
  /-- They ask for the version. -/
  | version
  /-- They ask for help. -/
  | help
deriving DecidableEq, Repr

/-- The greatest number of 32 bits. -/
def greatestHalfWord : Nat :=
  4294967295

/-- The greatest number of 64 bits. -/
def greatestWord : Nat :=
  18446744073709551615

/-- A number of at most the given size: decimal digits, possibly behind a plus sign. -/
def parseNumber (limit : Nat) (text : String) : Except Stop Nat :=
  let digits :=
    match text.toList with
    | '+' :: rest => rest
    | all => all
  if digits.isEmpty || !digits.all Char.isDigit then
    .error .misuse
  else
    let number := digits.foldl (fun number digit => 10 * number + (digit.toNat - '0'.toNat)) 0
    if number ≤ limit then .ok number else .error .misuse

/-- The size of a puzzle, which has 32 bits. It is read as a number with a sign, so a minus sign may
stand before zero. -/
def parseSize (text : String) : Except Stop Nat :=
  match text.toList with
  | '-' :: digits =>
    if !digits.isEmpty && digits.all (· == '0') then .ok 0 else .error .misuse
  | _ => parseNumber greatestHalfWord text

/-- The name of a strategy, which has to be known. -/
def parseName {α : Type} (parse : String → Except ModelError α) (text : String) : Except Stop α :=
  match parse text with
  | .ok result => .ok result
  | .error _ => .error .misuse

/-- The value of an option that may be given once. -/
def setOnce {α : Type} (present : Option α) (value : Except Stop α) : Except Stop (Option α) :=
  match present with
  | some _ => .error .misuse
  | none => value.map some

/-- Turns on an option that may be given once. -/
def turnOn (present : Bool) : Except Stop Bool :=
  if present then .error .misuse else .ok true

namespace Options

/-- Sets the value of an option. -/
def set (options : Options) (value : String) : Setting → Except Stop Options
  | .size => do return { options with size := ← setOnce options.size (parseSize value) }
  | .solutions => do
    let limit := parseNumber greatestWord value
    return { options with solutions := ← setOnce options.solutions limit }
  | .order => do
    return { options with order := ← setOnce options.order (parseName Criterion.parse value) }
  | .strategy => do
    let strategy := parseName ValueStrategy.parse value
    return { options with strategy := ← setOnce options.strategy strategy }
  | .seed => do
    let seed := (parseNumber greatestWord value).map Nat.toUInt64
    return { options with seed := ← setOnce options.seed seed }
  | .timeLimit => do
    let limit := parseNumber greatestWord value
    return { options with timeLimit := ← setOnce options.timeLimit limit }

/-- Turns on an option without a value. -/
def turn (options : Options) : Switch → Except Stop Options
  | .allSolutions => do return { options with allSolutions := ← turnOn options.allSolutions }
  | .verbose => do return { options with verbose := ← turnOn options.verbose }
  | .logStatistics => do return { options with logStatistics := ← turnOn options.logStatistics }
  | .help => .error .help
  | .version => .error .version

/-- Sets the puzzle. -/
def choose (options : Options) (name : String) : Except Stop Options :=
  match options.puzzle, Puzzle.ofName? name with
  | none, some puzzle => .ok { options with puzzle := some puzzle }
  | _, _ => .error .misuse

end Options

/-- Whether an argument can only be an option: a dash with something behind it. -/
def looksLikeOption (argument : String) : Bool :=
  match argument.toList with
  | '-' :: _ :: _ => true
  | _ => false

/-- What is left to be read after an argument. -/
inductive Pending
  | nothing
  /-- The value of an option. -/
  | value (setting : Setting)

/-- Reads the letters behind a single dash. -/
def readLetters (options : Options) : List Char → Except Stop (Options × Pending)
  | [] => .ok (options, .nothing)
  | letter :: rest =>
    match shortFlag? letter with
    | none => .error .misuse
    | some (.switch switch) => do readLetters (← options.turn switch) rest
    | some (.setting setting) =>
      match rest with
      | [] => .ok (options, .value setting)
      | '=' :: value => do return (← options.set (String.ofList value) setting, .nothing)
      | value => do return (← options.set (String.ofList value) setting, .nothing)

/-- Reads what stands behind two dashes. -/
def readLong (options : Options) (text : List Char) : Except Stop (Options × Pending) :=
  let name := String.ofList (text.takeWhile (· ≠ '='))
  match longFlag? name, text.dropWhile (· ≠ '=') with
  | none, _ => .error .misuse
  | some (.switch switch), [] => do return (← options.turn switch, .nothing)
  | some (.switch _), _ :: _ => .error .misuse
  | some (.setting setting), [] => .ok (options, .value setting)
  | some (.setting setting), _ :: value => do
    return (← options.set (String.ofList value) setting, .nothing)

/-- Reads the arguments behind a double dash, which are no options. -/
def readOperands (options : Options) : List String → Except Stop Options
  | [] => .ok options
  | argument :: rest => do readOperands (← options.choose argument) rest

/-- Reads the arguments one by one. -/
def readArguments (options : Options) (pending : Pending) : List String → Except Stop Options
  | [] =>
    match pending with
    | .nothing => .ok options
    | .value _ => .error .misuse
  | argument :: rest =>
    match pending with
    | .value setting => do
      if looksLikeOption argument then
        throw .misuse
      readArguments (← options.set argument setting) .nothing rest
    | .nothing =>
      match argument.toList with
      | ['-', '-'] => readOperands options rest
      | '-' :: '-' :: text => do
        let (options, pending) ← readLong options text
        readArguments options pending rest
      | '-' :: letter :: letters => do
        let (options, pending) ← readLetters options (letter :: letters)
        readArguments options pending rest
      | _ => do readArguments (← options.choose argument) .nothing rest

/-- What the program prints, and the code with which it ends. -/
structure Run where
  code : UInt32
  lines : List String
  /-- What is said about the use of the program, if the arguments are not followed. -/
  advice : List String := []
deriving DecidableEq

/-- How the program is used. -/
def usage : String :=
  "Usage: finitedomain-solver [OPTIONS] <MODEL>"

/-- The lines for the events of a journal. -/
def eventLines (journal : Journal) : List String :=
  journal.events.map fun event => "% " ++ event.message

/-- The lines for a solution: the variables of the answer, and a line that ends it. -/
def solutionLines (output : List String) (solution : Solution) : List String :=
  output.filterMap (fun name => (solution.get? name).map fun value =>
    name ++ " = " ++ value.text ++ ";") ++ ["----------"]

/-- How statistics are written among the solutions. -/
def statisticsFormat : StatisticsFormat where
  heading := "%%%mzn-stat:"
  closing := some "%%%mzn-stat-end"
  casing := some .camel

variable {γ σ : Type} [Generator γ]

/-- Takes the lines for what a solver has noted. -/
def takeEvents (solver : Solver γ σ) : List String × Solver γ σ :=
  let engine := solver.search.engine
  (eventLines engine.journal,
    { solver with
      search :=
        { solver.search with engine := { engine with journal := engine.journal.cleared } } })

/-- Solves for at most `limit` solutions and gives the lines for them, and for the end of the search
if it is reached. -/
def solutionsFrom (solver : Solver γ σ) (output : List String) (found : Bool)
    (lines : List (List String)) : (limit : Nat) → List (List String) × Solver γ σ
  | 0 => (lines, solver)
  | limit + 1 =>
    let (answer, solver) := solver.next
    let (events, solver) := takeEvents solver
    match answer with
    | .solution solution =>
      solutionsFrom solver output true (solutionLines output solution :: events :: lines) limit
    | .finished =>
      ([if found then "==========" else "=====UNSATISFIABLE====="] :: events :: lines, solver)
    | .aborted | .faulted _ =>
      ((if found then [] else ["=====UNKNOWN====="]) :: events :: lines, solver)

/-- Declares the puzzle with the strategies that the options ask for, and sets up a solver for
it. -/
def setUp (options : Options) (puzzle : Puzzle) (journal : Journal) :
    Build (Solver Xoshiro Observer.Seen × List String) := do
  let output ← puzzle.build (options.size.getD 8)
  if let some order := options.order then
    setOrder { first := order }
  if let some strategy := options.strategy then
    setStrategy strategy
  let stopRule := options.timeLimit.map fun limit => .timeUp (limit == 0)
  let solver ← Solver.create (Xoshiro.ofSeed (options.seed.getD 42))
      (Observer.ofRules stopRule none)
    {} journal
  return (solver, output)

/-- The text that reports a refusal. -/
def refusalText : Refusal → String
  | .invalid error => "The model is invalid, more details: " ++ error.message
  | .fault fault => fault.message

/-- Follows the options. -/
def follow (options : Options) (puzzle : Puzzle) : Run :=
  let empty : Journal := { threshold := some (if options.verbose then .debug else .warn) }
  let (built, workspace) :=
    (setUp options puzzle empty).run { journal := empty.note .loggingConfigured }
  match built with
  | .error refusal =>
    let journal := workspace.journal.note (.executionFailed (refusalText refusal))
    { code := 1, lines := eventLines journal }
  | .ok (solver, output) =>
    let limit :=
      if options.allSolutions then greatestWord else options.solutions.getD 1
    let (lines, solver) := solutionsFrom solver output false [eventLines workspace.journal] limit
    let statistics := if options.logStatistics then statisticsFormat.block solver.statistics else []
    { code := 0, lines := lines.reverse.flatten ++ statistics }

/-- The program: what it does with its arguments. -/
def run (arguments : List String) : Run :=
  match readArguments {} .nothing arguments with
  | .error .misuse => { code := 2, lines := [], advice := [usage] }
  | .error .version => { code := 0, lines := ["finitedomain-solver 0.1.0"] }
  | .error .help => { code := 0, lines := [], advice := [usage] }
  | .ok options =>
    match options.puzzle with
    | none => { code := 2, lines := [], advice := [usage] }
    | some puzzle => follow options puzzle

end ConstraintSearch.CommandLine
