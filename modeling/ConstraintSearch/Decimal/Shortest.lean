/-!
# The shortest decimal text of a weight

A finite double is written with the fewest decimal digits that read back as the same double, always
positionally and without a fraction if it is whole. The digits are found in exact arithmetic: for 1,
2, 3 and more digits in turn, the two neighbours of the value on that decimal grid are compared with
the interval of the numbers that round to it.
-/

namespace ConstraintSearch

/-- A positive fraction together with the interval of the numbers that round to it, all over one
denominator. -/
structure RoundingInterval where
  low : Nat
  value : Nat
  high : Nat
  denominator : Nat
  /-- Whether the ends round to the value too. -/
  closed : Bool

namespace RoundingInterval

/-- The interval of the double with the given significand and power of two. Below the smallest
significand of an exponent the doubles lie closer together, so there the lower half of the interval
is shorter. -/
def ofSignificand (significand : Nat) (exponent : Int) (closerBelow : Bool) : RoundingInterval :=
  let scale := Nat.pow 2 (exponent - 2).toNat
  let low := if closerBelow then 4 * significand - 1 else 4 * significand - 2
  { low := low * scale
    value := 4 * significand * scale
    high := (4 * significand + 2) * scale
    denominator := Nat.pow 2 (2 - exponent).toNat
    closed := significand % 2 == 0 }

/-- The number of decimal digits; none for 0. -/
def digitCount (number : Nat) : Nat :=
  if number = 0 then 0 else (Nat.toDigits 10 number).length

/-- The power of ten of the first digit of the value. -/
def magnitude (interval : RoundingInterval) : Int :=
  if interval.denominator ≤ interval.value then
    digitCount (interval.value / interval.denominator) - 1
  else
    -digitCount ((interval.denominator + interval.value - 1) / interval.value - 1)

/-- Whether `digits` times the power of ten rounds to the value. -/
def admits (interval : RoundingInterval) (digits : Nat) (power : Int) : Bool :=
  let candidate := digits * Nat.pow 10 power.toNat * interval.denominator
  let scale := Nat.pow 10 (-power).toNat
  if interval.closed then
    interval.low * scale ≤ candidate && candidate ≤ interval.high * scale
  else
    interval.low * scale < candidate && candidate < interval.high * scale

/-- The neighbour of the value on the grid of a power of ten that rounds to it; of two, the nearer
one, and of two that are equally near, the larger one. -/
def onGrid? (interval : RoundingInterval) (power : Int) : Option Nat :=
  let scaled := interval.value * Nat.pow 10 (-power).toNat
  let unit := interval.denominator * Nat.pow 10 power.toNat
  let below := scaled / unit
  match interval.admits below power, interval.admits (below + 1) power with
  | true, true => if 2 * (scaled % unit) < unit then some below else some (below + 1)
  | true, false => some below
  | false, true => some (below + 1)
  | false, false => none

/-- The fewest digits, and the power of ten they count, for at most the given number of digits
more. -/
def shortestFrom (interval : RoundingInterval) : (attempts : Nat) → (power : Int) → Nat × Int
  | 0, power =>
    (interval.value * Nat.pow 10 (-power).toNat /
      (interval.denominator * Nat.pow 10 power.toNat), power)
  | attempts + 1, power =>
    match interval.onGrid? power with
    | some digits => (digits, power)
    | none => interval.shortestFrom attempts (power - 1)

/-- The fewest digits that read back as the value, and the power of ten they count. The first grid
is one coarser than the first digit, since the value may round up to the next power of ten;
seventeen digits always suffice. -/
def shortest (interval : RoundingInterval) : Nat × Int :=
  interval.shortestFrom 18 (interval.magnitude + 1)

end RoundingInterval

/-- The digits with the decimal point put where the power of ten says, and without a point if none
is needed. -/
def positionalText (digits : Nat) (power : Int) : String :=
  let text := Nat.toDigits 10 digits
  if 0 ≤ power then
    String.ofList (text ++ List.replicate power.toNat '0')
  else
    let places := (-power).toNat
    let padded := List.replicate (places + 1 - text.length) '0' ++ text
    let whole := padded.length - places
    String.ofList (padded.take whole ++ '.' :: padded.drop whole)

/-- The text of the double with the given bits: the shortest positional digits with a sign where it
is negative, `NaN` or an infinity. -/
def doubleText (bits : UInt64) : String :=
  let fraction := (bits &&& 0xfffffffffffff).toNat
  let biased := ((bits >>> 52) &&& 0x7ff).toNat
  let sign := if bits >>> 63 = 0 then "" else "-"
  if biased = 0x7ff then
    if fraction = 0 then sign ++ "inf" else "NaN"
  else if biased = 0 ∧ fraction = 0 then
    sign ++ "0"
  else
    let interval :=
      if biased = 0 then
        RoundingInterval.ofSignificand fraction (-1074) false
      else
        RoundingInterval.ofSignificand (4503599627370496 + fraction) (biased - 1075)
          (fraction == 0 && biased != 1)
    let (digits, power) := interval.shortest
    sign ++ positionalText digits power

end ConstraintSearch
