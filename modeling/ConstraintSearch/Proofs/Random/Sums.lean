import ConstraintSearch.Random.Generator
import Mathlib

/-!
# Sums of positive weights

A weighted choice is made only if the sum of the weights is not zero or less. Sums of floating-point
numbers are rounded, but those of positive numbers are never rounded down to zero: no mantissa is
shifted further than its exponent is below the least one.
-/

namespace ConstraintSearch

open Float.Model Float.Model.UnpackedFloat

/-! ### Rounding -/

/-- A mantissa and an exponent that can be packed without the mantissa being cut off. -/
def Fits (mantissa : Nat) (exponent : Int) : Prop :=
  0 < mantissa ∧ mantissa < 2 ^ 53 ∧ -1074 ≤ exponent

/-- Shifting an extended mantissa halves it once for each place. -/
theorem mantissa_shiftRight (mantissa : ExtendedMantissa) (amount : Nat) :
    (mantissa >>> amount).mantissa = mantissa.mantissa / 2 ^ amount := by
  induction amount with
  | zero => simp [HShiftRight.hShiftRight, Nat.repeat]
  | succ amount inductionHypothesis =>
    change (mantissa >>> amount).mantissa / 2 = _
    rw [inductionHypothesis, Nat.div_div_eq_div_mul, Nat.pow_succ]

/-- A positive mantissa whose exponent is not too small stays positive when it is shifted to its
place. -/
theorem fits_shiftToTargetExponent {mantissa : Nat} {exponent : Int} (positive : 0 < mantissa)
    (bound : -1074 ≤ exponent) :
    Fits (shiftToTargetExponent .binary64 mantissa exponent .exact).1.mantissa
      (shiftToTargetExponent .binary64 mantissa exponent .exact).2 := by
  have target : Format.binary64.targetExponent (totalExponent mantissa exponent) =
      max (mantissa.log2 + exponent - 52) (-1074) := by
    simp only [Format.targetExponent, totalExponent, Format.mantissaBits, Format.minExponent]
    omega
  have shifted : shiftToTargetExponent .binary64 mantissa exponent .exact =
      (ExtendedMantissa.mk mantissa false false >>>
        (max (mantissa.log2 + exponent - 52) (-1074) - exponent).toNat,
        exponent + (max (mantissa.log2 + exponent - 52) (-1074) - exponent).toNat) := by
    rw [shiftToTargetExponent, target]
    rfl
  rw [shifted]
  generalize isAmount : (max (mantissa.log2 + exponent - 52) (-1074) - exponent).toNat = amount
  simp only [mantissa_shiftRight]
  have few : amount ≤ mantissa.log2 := by omega
  have enough : mantissa.log2 + 1 ≤ 53 + amount := by omega
  refine ⟨Nat.div_pos ?_ (Nat.two_pow_pos amount), ?_, by omega⟩
  · exact Nat.le_trans (Nat.pow_le_pow_right Nat.two_pos few)
      (Nat.log2_self_le (Nat.ne_of_gt positive))
  · rw [Nat.div_lt_iff_lt_mul (Nat.two_pow_pos amount), ← Nat.pow_add]
    exact Nat.lt_of_lt_of_le Nat.lt_log2_self (Nat.pow_le_pow_right Nat.two_pos enough)

/-- A mantissa is never rounded to a smaller one, as what it has lost is not part of it. -/
theorem le_roundedMantissa (mantissa : ExtendedMantissa) :
    mantissa.mantissa ≤ mantissa.roundedMantissa := by
  obtain ⟨mantissa, roundBit, stickyBit⟩ := mantissa
  cases roundBit <;> cases stickyBit <;>
    simp [ExtendedMantissa.roundedMantissa, ExtendedMantissa.accuracy, Accuracy.roundToNearestEven]

/-- Rounding gives no zero, and nothing that is cut off when it is packed. -/
theorem exists_fits_roundWithAccuracy {mantissa : Nat} {exponent : Int} (sign : Sign)
    (positive : 0 < mantissa) (bound : -1074 ≤ exponent) :
    ∃ rounded place, ∃ fits : Fits rounded place,
      roundWithAccuracy .binary64 sign mantissa exponent .exact =
        .finite sign rounded place fits.1 := by
  obtain ⟨firstPositive, _, firstBound⟩ := fits_shiftToTargetExponent positive bound
  -- The rounded mantissa can be one bit too long, and is shifted once more.
  have fits := fits_shiftToTargetExponent
    (Nat.lt_of_lt_of_le firstPositive (le_roundedMantissa _)) firstBound
  exact ⟨_, _, fits, dif_neg (Nat.ne_of_gt fits.1)⟩

/-- Rounding a positive mantissa whose exponent is not too small gives no zero. -/
theorem exists_fits_round {mantissa : Nat} {exponent : Int} (sign : Sign) (positive : 0 < mantissa)
    (bound : -1074 ≤ exponent) : ∃ rounded place, ∃ fits : Fits rounded place,
      UnpackedFloat.round .binary64 sign mantissa exponent = .finite sign rounded place fits.1 := by
  have target : -1074 ≤ Format.binary64.targetExponent (totalExponent mantissa exponent) :=
    Int.le_max_right _ _
  have longer : 0 < mantissa <<<
      (exponent - Format.binary64.targetExponent (totalExponent mantissa exponent)).toNat := by
    rw [Nat.shiftLeft_eq]
    exact Nat.mul_pos positive (Nat.two_pow_pos _)
  exact exists_fits_roundWithAccuracy sign longer (by omega)

/-! ### Numbers above zero -/

/-- The unpacked number does not count as zero or less. -/
inductive AboveZero : UnpackedFloat → Prop
  | notANumber : AboveZero .notANumber
  | infinity : AboveZero (.infinity .positive)
  | finite {mantissa : Nat} {exponent : Int} (fits : Fits mantissa exponent) :
    AboveZero (.finite .positive mantissa exponent fits.1)

/-- What is unpacked can be packed again. -/
theorem fits_of_unpack {model : Float.Model} {sign : Sign} {mantissa : Nat} {exponent : Int}
    {positive : 0 < mantissa} (unpacked : model.unpack = .finite sign mantissa exponent positive) :
    Fits mantissa exponent := by
  simp only [Float.Model.unpack, UnpackedFloat.unpack] at unpacked
  have short : (@unpackMantissa .binary64 model.toBits.toBitVec).toNat < 2 ^ 52 := BitVec.isLt _
  have bias : ((Format.binary64.exponentBias : Nat) : Int) = 1023 := rfl
  split at unpacked
  · split at unpacked <;> cases unpacked
  · split at unpacked
    · split at unpacked
      · cases unpacked
      · cases unpacked
        refine ⟨positive, by omega, ?_⟩
        rw [bias]
        omega
    · cases unpacked
      refine ⟨positive, BitVec.isLt _, ?_⟩
      rw [bias]
      rename_i nonzero
      have : (@unpackExponent .binary64 model.toBits.toBitVec).toNat ≠ 0 :=
        fun zero => nonzero (BitVec.eq_of_toNat_eq zero)
      omega

/-- A number is not at most zero just if it is above zero when unpacked. -/
theorem not_le_zero_iff (number : Float) : ¬ number ≤ 0.0 ↔ AboveZero number.toModel.unpack := by
  have zero : (0.0 : Float).toModel.unpack = .zero .positive := by rfl
  have compared : number ≤ 0.0 ↔
      (number.toModel.unpack.compare (.zero .positive)).any (·.isLE) = true := by
    rw [← zero, show (number ≤ 0.0) = (number.le 0.0 = true) from rfl, Float.le, decide_eq_true_eq]
    rfl
  rw [compared]
  cases isUnpacked : number.toModel.unpack with
  | notANumber => exact iff_of_true (by simp [UnpackedFloat.compare]) .notANumber
  | infinity sign =>
    cases sign with
    | positive => exact iff_of_true (by simp [UnpackedFloat.compare]) .infinity
    | negative => exact iff_of_false (by simp [UnpackedFloat.compare]) (by rintro ⟨⟩)
  | zero sign => exact iff_of_false (by simp [UnpackedFloat.compare]) (by rintro ⟨⟩)
  | finite sign mantissa exponent positive =>
    cases sign with
    | positive =>
      exact iff_of_true (by simp [UnpackedFloat.compare]) (.finite (fits_of_unpack isUnpacked))
    | negative => exact iff_of_false (by simp [UnpackedFloat.compare]) (by rintro ⟨⟩)

/-- Bits without a sign are above zero unless they are all 0. -/
theorem aboveZero_of_unpackSign {model : Float.Model}
    (unsigned : @unpackSign .binary64 model.toBits.toBitVec = 0#1)
    (nonzero : @unpackExponent .binary64 model.toBits.toBitVec = 0#11 →
      @unpackMantissa .binary64 model.toBits.toBitVec ≠ 0#52) : AboveZero model.unpack := by
  have positive : Sign.ofBitVec (@unpackSign .binary64 model.toBits.toBitVec) = .positive := by
    rw [unsigned]
    rfl
  cases isUnpacked : model.unpack with
  | notANumber => exact .notANumber
  | infinity sign =>
    simp only [Float.Model.unpack, UnpackedFloat.unpack, positive] at isUnpacked
    split at isUnpacked
    · split at isUnpacked <;> cases isUnpacked
      exact .infinity
    · split at isUnpacked
      · split at isUnpacked <;> cases isUnpacked
      · cases isUnpacked
  | zero sign =>
    simp only [Float.Model.unpack, UnpackedFloat.unpack, positive] at isUnpacked
    split at isUnpacked
    · split at isUnpacked <;> cases isUnpacked
    · split at isUnpacked
      · rename_i noPlace
        split at isUnpacked
        · rename_i noDigits
          exact absurd noDigits (nonzero noPlace)
        · cases isUnpacked
      · cases isUnpacked
  | finite sign mantissa exponent nonzero =>
    have fits := fits_of_unpack isUnpacked
    simp only [Float.Model.unpack, UnpackedFloat.unpack, positive] at isUnpacked
    split at isUnpacked
    · split at isUnpacked <;> cases isUnpacked
    · split at isUnpacked
      · split at isUnpacked
        · cases isUnpacked
        · cases isUnpacked
          exact .finite fits
      · cases isUnpacked
        exact .finite fits

/-- Packing rounds nothing down to zero. -/
theorem AboveZero.unpack_pack {unpacked : UnpackedFloat} (above : AboveZero unpacked) :
    AboveZero (Float.Model.pack unpacked).unpack := by
  cases above with
  | notANumber => exact .notANumber
  | infinity => exact .infinity
  | @finite mantissa exponent fits =>
    obtain ⟨positive, short, bound⟩ := fits
    have bits : (Float.Model.pack (.finite .positive mantissa exponent positive)).toBits.toBitVec =
        UnpackedFloat.pack .binary64 (.finite .positive mantissa exponent positive) := rfl
    have biased : 1 ≤ (exponent + Format.binary64.exponentBias + (52 : Nat)).toNat := by
      have : ((Format.binary64.exponentBias : Nat) : Int) = 1023 := rfl
      omega
    simp only [UnpackedFloat.pack] at bits
    split at bits
    · exact aboveZero_of_unpackSign (bits ▸ rfl) (bits ▸ by decide)
    · rename_i small
      -- Either the exponent or, for a subnormal number, the mantissa has a digit that is not 0.
      split at bits
      · refine aboveZero_of_unpackSign (bits ▸ unpackSign_packComponents _ _ _) ?_
        rw [bits, unpackExponent_packComponents]
        intro zero
        have := congrArg BitVec.toNat zero
        rw [BitVec.toNat_ofNat, Nat.mod_eq_of_lt (by omega)] at this
        exact absurd this (Nat.ne_of_gt biased)
      · rename_i long
        refine aboveZero_of_unpackSign (bits ▸ unpackSign_packComponents _ _ _) fun _ => ?_
        rw [bits, unpackMantissa_packComponents]
        intro zero
        have few : mantissa.log2 < 52 := by
          have : mantissa.log2 < 53 := (Nat.log2_lt (Nat.ne_of_gt positive)).2 short
          have : mantissa.log2 + 1 ≠ 53 := long
          omega
        have := congrArg BitVec.toNat zero
        rw [BitVec.toNat_ofNat, Nat.mod_eq_of_lt ((Nat.log2_lt (Nat.ne_of_gt positive)).1 few)]
          at this
        exact absurd this (Nat.ne_of_gt positive)

/-- Sums of numbers above zero are above zero. The cases are those of the addition: no numbers,
infinite ones and finite ones, whose mantissas are shifted to the lesser exponent. -/
theorem AboveZero.add {first second : UnpackedFloat} (firstAbove : AboveZero first)
    (secondAbove : AboveZero second) : AboveZero (UnpackedFloat.add .binary64 first second) := by
  cases firstAbove with
  | notANumber => exact .notANumber
  | infinity =>
    cases secondAbove with
    | notANumber => exact .notANumber
    | infinity => exact .infinity
    | finite fits => exact .infinity
  | @finite mantissa exponent fits =>
    cases secondAbove with
    | notANumber => exact .notANumber
    | infinity => exact .infinity
    | @finite other otherExponent others =>
      have positive : 0 < mantissa <<< (exponent - min exponent otherExponent).toNat := by
        rw [Nat.shiftLeft_eq]
        exact Nat.mul_pos fits.1 (Nat.two_pow_pos _)
      have bound : -1074 ≤ min exponent otherExponent := by
        have := fits.2.2
        have := others.2.2
        omega
      generalize isFirst : mantissa <<< (exponent - min exponent otherExponent).toNat =
        first at positive
      generalize isSecond : other <<< (otherExponent - min exponent otherExponent).toNat = second
      have sum : UnpackedFloat.add .binary64 (.finite .positive mantissa exponent fits.1)
          (.finite .positive other otherExponent others.1) =
            UnpackedFloat.round .binary64 .positive (first + second)
            (min exponent otherExponent) := by
        simp only [UnpackedFloat.add, decreaseExponent, isFirst, isSecond, Sign.apply,
          UnpackedFloat.normalize]
        have above : compare ((first : Int) + second) 0 = .gt := by
          rw [Int.compare_eq_gt]
          omega
        simp only [above]
        congr 1
      obtain ⟨rounded, place, fits, isRounded⟩ :=
        exists_fits_round .positive (Nat.add_pos_left positive second) bound
      rw [sum, isRounded]
      exact .finite fits

/-- Zero adds nothing. -/
theorem AboveZero.zero_add {unpacked : UnpackedFloat} (above : AboveZero unpacked) :
    UnpackedFloat.add .binary64 (.zero .positive) unpacked = unpacked := by
  cases above <;> rfl

/-! ### Sums -/

/-- Positive numbers are not at most zero. -/
theorem not_le_zero_of_pos {weight : Float} (positive : 0.0 < weight) : ¬ weight ≤ 0.0 := by
  have zero : (0.0 : Float).toModel.unpack = .zero .positive := by rfl
  have compared : 0.0 < weight ↔
      UnpackedFloat.lt (.zero .positive) weight.toModel.unpack = true := by
    rw [← zero, show (0.0 < weight) = (Float.lt 0.0 weight = true) from rfl, Float.lt,
      decide_eq_true_eq]
    rfl
  rw [not_le_zero_iff]
  rw [compared] at positive
  cases isUnpacked : weight.toModel.unpack with
  | notANumber => exact .notANumber
  | infinity sign =>
    cases sign with
    | positive => exact .infinity
    | negative => simp [isUnpacked, UnpackedFloat.lt, UnpackedFloat.compare] at positive
  | zero sign => simp [isUnpacked, UnpackedFloat.lt, UnpackedFloat.compare] at positive
  | finite sign mantissa exponent nonzero =>
    cases sign with
    | positive => exact .finite (fits_of_unpack isUnpacked)
    | negative => simp [isUnpacked, UnpackedFloat.lt, UnpackedFloat.compare] at positive

/-- Neither are the sums of two numbers that are not. -/
theorem not_add_le_zero {first second : Float} (firstAbove : ¬ first ≤ 0.0)
    (secondAbove : ¬ second ≤ 0.0) : ¬ first + second ≤ 0.0 := by
  rw [not_le_zero_iff] at *
  exact (firstAbove.add secondAbove).unpack_pack

/-- Neither is what is added to zero first. -/
theorem not_zero_add_le_zero {second : Float} (above : ¬ second ≤ 0.0) : ¬ 0.0 + second ≤ 0.0 := by
  rw [not_le_zero_iff] at *
  have sum : ((0.0 : Float) + second).toModel.unpack =
      (Float.Model.pack (UnpackedFloat.add .binary64 (.zero .positive)
        second.toModel.unpack)).unpack := rfl
  rw [sum, above.zero_add]
  exact above.unpack_pack

namespace Generator

/-- Neither is the sum of a list, as each partial sum is not. -/
theorem not_foldl_add_le_zero {sum : Float} {weights : List Float} (sumAbove : ¬ sum ≤ 0.0)
    (above : ∀ weight ∈ weights, ¬ weight ≤ 0.0) : ¬ weights.foldl (· + ·) sum ≤ 0.0 := by
  induction weights generalizing sum with
  | nil => exact sumAbove
  | cons weight rest inductionHypothesis =>
    obtain ⟨weightAbove, restAbove⟩ := List.forall_mem_cons.mp above
    exact inductionHypothesis (not_add_le_zero sumAbove weightAbove) restAbove

/-- The place where the spin lands is one of the weights, or the last place so far. -/
theorem exists_landing? {spin : Float} {weights : List Float} {index : Nat} {sum : Float}
    {last : Nat} (inside : last < index) :
    ∃ place, landing? spin weights index sum (some last) = some place ∧
      place < index + weights.length := by
  induction weights generalizing index sum last with
  | nil => exact ⟨last, rfl, inside⟩
  | cons weight rest inductionHypothesis =>
    rw [landing?, List.length_cons]
    split
    · obtain ⟨place, lands, bound⟩ := inductionHypothesis (Nat.lt_succ_of_lt inside)
      exact ⟨place, lands, by omega⟩
    split
    · exact ⟨index, rfl, by omega⟩
    · obtain ⟨place, lands, bound⟩ := inductionHypothesis (Nat.lt_succ_self index)
      exact ⟨place, lands, by omega⟩

variable {γ : Type} [Generator γ]

/-- Where the weights add up to more than zero, one draw decides about the choice. -/
theorem weightedChoice?_of_not_le_zero {weights : List Float} (nonempty : weights.isEmpty = false)
    (above : ¬ weights.foldl (· + ·) 0.0 ≤ 0.0) (generator : γ) :
    weightedChoice? weights generator =
      (landing? ((drawUnit generator).1 * weights.foldl (· + ·) 0.0) weights 0 0.0 none).map
        fun index => (index, (drawUnit generator).2) := by
  simp only [weightedChoice?, nonempty, Bool.false_or, decide_eq_true_eq, if_neg above]

/-- Among some weights, all of them positive, one is chosen. -/
theorem exists_weightedChoice? {weights : List Float} (nonempty : weights ≠ [])
    (positive : ∀ weight ∈ weights, 0.0 < weight) (generator : γ) :
    ∃ index next, weightedChoice? weights generator = some (index, next) ∧
      index < weights.length := by
  cases weights with
  | nil => exact absurd rfl nonempty
  | cons weight rest =>
    have above := fun other inside => not_le_zero_of_pos (positive other inside)
    obtain ⟨weightAbove, restAbove⟩ := List.forall_mem_cons.mp above
    have sumAbove : ¬ (weight :: rest).foldl (· + ·) 0.0 ≤ 0.0 := by
      rw [List.foldl_cons]
      exact not_foldl_add_le_zero (not_zero_add_le_zero weightAbove) restAbove
    rw [weightedChoice?_of_not_le_zero List.isEmpty_cons sumAbove]
    generalize (drawUnit generator).1 * (weight :: rest).foldl (· + ·) 0.0 = spin
    obtain ⟨place, lands, bound⟩ : ∃ place, landing? spin (weight :: rest) 0 0.0 none = some place ∧
        place < (weight :: rest).length := by
      rw [landing?, if_neg weightAbove, List.length_cons]
      split
      · exact ⟨0, rfl, Nat.succ_pos _⟩
      · obtain ⟨place, lands, bound⟩ := @exists_landing? spin rest 1 (0.0 + weight) 0 Nat.one_pos
        exact ⟨place, lands, by omega⟩
    exact ⟨place, _, by rw [lands, Option.map_some], bound⟩

end Generator

end ConstraintSearch
