import ConstraintSearch.Random.Generator

/-!
# The seeded generator

The generator xoshiro256++ has four words of state, which a permuted congruential generator expands
from a seed.
-/

namespace ConstraintSearch

/-- The state of xoshiro256++. -/
structure Xoshiro where
  s0 : UInt64
  s1 : UInt64
  s2 : UInt64
  s3 : UInt64
deriving DecidableEq

/-- The word with its bits rotated to the left. -/
def rotateLeft (word amount : UInt64) : UInt64 :=
  (word <<< amount) ||| (word >>> (64 - amount))

/-- The half word with its bits rotated to the right. -/
def rotateRight (word amount : UInt32) : UInt32 :=
  if amount = 0 then word else (word >>> amount) ||| (word <<< (32 - amount))

namespace Xoshiro

/-- One step of the linear congruential generator which expands a seed. -/
def expand (state : UInt64) : UInt64 :=
  state * 6364136223846793005 + 11634580027462260723

/-- The half word which the expanding generator gives in a state: a rotation, by the upper bits, of
the others. -/
def permute (state : UInt64) : UInt32 :=
  rotateRight ((((state >>> 18) ^^^ state) >>> 27).toUInt32) ((state >>> 59).toUInt32)

/-- The word made of two steps of the expanding generator, the lower half first, and the state
afterwards. -/
def expandWord (state : UInt64) : UInt64 × UInt64 :=
  let low := expand state
  let high := expand low
  ((permute low).toUInt64 ||| ((permute high).toUInt64 <<< 32), high)

/-- The state that a seed expands to. -/
def ofSeed (seed : UInt64) : Xoshiro :=
  let (s0, seed) := expandWord seed
  let (s1, seed) := expandWord seed
  let (s2, seed) := expandWord seed
  let (s3, _) := expandWord seed
  ⟨s0, s1, s2, s3⟩

/-- The output of a state. -/
def output (state : Xoshiro) : UInt64 :=
  rotateLeft (state.s0 + state.s3) 23 + state.s0

/-- The state that follows. -/
def next (state : Xoshiro) : Xoshiro :=
  let shifted := state.s1 <<< 17
  let s2 := state.s2 ^^^ state.s0
  let s3 := state.s3 ^^^ state.s1
  ⟨state.s0 ^^^ s3, state.s1 ^^^ s2, s2 ^^^ shifted, rotateLeft s3 45⟩

instance : Generator Xoshiro where
  draw state := (state.output, state.next)

end Xoshiro

/-- Either a seeded generator or a script. -/
inductive Source
  | seeded (state : Xoshiro)
  | scripted (script : Script)

instance : Generator Source where
  draw
    | .seeded state => (state.output, .seeded state.next)
    | .scripted script =>
      let (output, next) := Generator.draw script
      (output, .scripted next)

/-- The generator that is used unless another one is asked for. -/
def Source.standard : Source :=
  .seeded (Xoshiro.ofSeed 42)

end ConstraintSearch
