import ConstraintSearch.Decimal.Shortest
import ConstraintSearch.Fault

/-!
# Errors of a model

A malformed declaration is refused with its cause, either when it is made or when the model is
prepared.
-/

namespace ConstraintSearch

/-- How many operands an operator takes. -/
inductive Arity
  | exactly (count : Nat)
  | atLeast (count : Nat)
deriving DecidableEq, Repr

/-- Whether the number of operands is accepted. -/
def Arity.accepts : Arity → Nat → Bool
  | exactly count, operands => operands == count
  | atLeast count, operands => count ≤ operands

/-- The accepted number of operands in words. -/
def Arity.text : Arity → String
  | exactly count => s!"{count}"
  | atLeast count => s!"at least {count}"

/-- What is wrong with a strategy. -/
inductive StrategyFlaw
  /-- A Markov strategy was given for all variables. -/
  | markovForAll
  /-- The named strategy has options which were not given. -/
  | withoutOptions (name : String)
  /-- A list strategy falls back to a Markov strategy. -/
  | markovFallback
  /-- A Markov matrix has no row. -/
  | noRows
  /-- The weight, given by its bits, with which rows are expanded is negative or not finite. -/
  | expansionWeight (bits : UInt64)
  /-- A row has a negative weight or one that is not finite. -/
  | rowWeight (row : Nat)
  /-- A row has more weights than the legend has values. -/
  | rowTooLong (row weights values : Nat)
deriving DecidableEq, Repr

/-- The text that explains the flaw. -/
def StrategyFlaw.message : StrategyFlaw → String
  | markovForAll => "a markov value strategy has to be set per variable"
  | withoutOptions name => s!"the '{name}' value strategy cannot be created without its options"
  | markovFallback => "the fallback of a list strategy cannot be markov"
  | noRows => "a markov matrix needs at least one row"
  | expansionWeight bits =>
    "the expansion weight " ++ doubleText bits ++ " is not a finite non-negative number"
  | rowWeight row => s!"row {row} contains a weight which is not a finite non-negative number"
  | rowTooLong row weights values =>
    s!"row {row} has {weights} weights but the legend only has {values} values"

/-- Why a declaration is refused. -/
inductive ModelError
  | duplicateVariable (name : String)
  | emptyName
  | numericName (name : String)
  | invertedRange (lower upper : Int)
  | outOfBounds (value : Int)
  | unknownVariable (name : String)
  | unknownOperator (name : String)
  | unknownStrategy (name : String)
  | invalidArity (operator : String) (expected : Arity) (actual : Nat)
  | unexpectedResult (operator : String)
  | nonBooleanResult (value : Int)
  | invalidStrategy (owner : String) (flaw : StrategyFlaw)
deriving DecidableEq, Repr

/-- The text that reports the error. -/
def ModelError.message : ModelError → String
  | duplicateVariable name => s!"The variable '{name}' has already been declared"
  | emptyName => "A variable name cannot be empty"
  | numericName name =>
    s!"The variable name '{name}' is numeric, such names are reserved for literals"
  | invertedRange lower upper => s!"The range [{lower}, {upper}] is inverted"
  | outOfBounds value => s!"The value {value} lies outside of the supported range [SUB, SUP]"
  | unknownVariable name => s!"The variable '{name}' has not been declared"
  | unknownOperator name => s!"The operator '{name}' is not known"
  | unknownStrategy name => s!"The distribution strategy '{name}' is not known"
  | invalidArity operator expected actual =>
    s!"The operator '{operator}' expects " ++ expected.text ++
      s!" operands but received {actual}"
  | unexpectedResult operator =>
    s!"The operator '{operator}' does not produce a value and cannot have a result variable"
  | nonBooleanResult value =>
    s!"The result of a reified constraint has to be boolean, but {value} was given"
  | invalidStrategy owner flaw =>
    s!"Invalid strategy configuration for '{owner}': " ++ flaw.message

/-- Why a step of building a model has no result: the declaration is malformed, or it asks for a
bound which an empty domain does not have. -/
inductive Refusal
  | invalid (error : ModelError)
  | fault (fault : Fault)
deriving DecidableEq, Repr

end ConstraintSearch
