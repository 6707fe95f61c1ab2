/-!
# Generators

A generator yields 64-bit outputs, one after the other. From an output comes a number from 0 up to
but not including 1, and from such a number a choice among weights in proportion to them.
-/

namespace ConstraintSearch

/-- A state from which an output and the next state can be drawn. -/
class Generator (γ : Type) where
  draw : γ → UInt64 × γ

namespace Generator

variable {γ : Type} [Generator γ]

/-- A multiple of 2^-52 from 0 up to but not including 1, made of the upper 52 bits of an output. It
stands for the uniform draw from this interval that a library of generators offers. How the bits are
used is a choice made here: nothing that is proved about searches or weighted choices depends on
what the draw gives. -/
def drawUnit (generator : γ) : Float × γ :=
  let (output, next) := draw generator
  ((output >>> 12).toFloat / 4503599627370496.0, next)

/-- The first index at which the sum of the positive weights so far passes the spin, or else the
last index with a positive weight: rounding can leave the spin just above the sum. -/
def landing? (spin : Float) : List Float → Nat → Float → Option Nat → Option Nat
  | [], _, _, last => last
  | weight :: rest, index, sum, last =>
    if weight ≤ 0.0 then
      landing? spin rest (index + 1) sum last
    else if spin < sum + weight then
      some index
    else
      landing? spin rest (index + 1) (sum + weight) (some index)

/-- An index, chosen in proportion to the weights. Nothing is chosen, and nothing drawn, if there
are no weights or their sum is not positive. -/
def weightedChoice? (weights : List Float) (generator : γ) : Option (Nat × γ) :=
  let sum := weights.foldl (· + ·) 0.0
  if weights.isEmpty || sum ≤ 0.0 then
    none
  else
    let (unit, next) := drawUnit generator
    (landing? (unit * sum) weights 0 0.0 none).map fun index => (index, next)

end Generator

/-- A generator which repeats its outputs for ever. -/
structure Script where
  outputs : Array UInt64
  position : Nat
deriving DecidableEq

instance : Generator Script where
  draw script :=
    (script.outputs.getD (script.position % script.outputs.size) 0,
      { script with position := script.position + 1 })

end ConstraintSearch
