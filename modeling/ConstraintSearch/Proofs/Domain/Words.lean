import ConstraintSearch.Fault

/-!
# Numbers that fit a word

A domain is computed with numbers of fixed width. Here a step of such a computation is written with
the word that is to hold its result, and stops with a slip if the result does not fit or if it
divides by zero. Where no step slips, a computation comes to the same as one with unbounded numbers
(`Word.hold_of_fits`, `Word.divide_of_fits`).
-/

namespace ConstraintSearch

/-- The numbers that a word holds are those from the least to the greatest one. -/
structure Word where
  least : Int
  greatest : Int
deriving DecidableEq, Repr

/-- Why a computation with words goes wrong. -/
inductive Slip
  /-- The number does not fit the word that is to hold it. -/
  | overflow (word : Word) (number : Int)
  /-- The number is to be divided by zero. -/
  | dividedByZero (dividend : Int)
deriving DecidableEq, Repr

namespace Word

/-- Numbers with a sign, in 32 bits. -/
def int32 : Word :=
  ⟨-0x80000000, 0x7fffffff⟩

/-- Numbers with a sign, in 64 bits. -/
def int64 : Word :=
  ⟨-0x8000000000000000, 0x7fffffffffffffff⟩

/-- Numbers without a sign, in 64 bits. -/
def nat64 : Word :=
  ⟨0, 0xffffffffffffffff⟩

/-- The number fits the word. -/
def Fits (word : Word) (number : Int) : Prop :=
  word.least ≤ number ∧ number ≤ word.greatest

instance (word : Word) (number : Int) : Decidable (word.Fits number) :=
  inferInstanceAs (Decidable (_ ∧ _))

/-- The numbers of a signed word of 32 bits. -/
theorem fits_int32 {number : Int} :
    int32.Fits number ↔ -2147483648 ≤ number ∧ number ≤ 2147483647 :=
  Iff.rfl

/-- Those of a signed word of 64 bits. -/
theorem fits_int64 {number : Int} :
    int64.Fits number ↔ -9223372036854775808 ≤ number ∧ number ≤ 9223372036854775807 :=
  Iff.rfl

/-- Those of an unsigned word of 64 bits. -/
theorem fits_nat64 {number : Int} :
    nat64.Fits number ↔ 0 ≤ number ∧ number ≤ 18446744073709551615 :=
  Iff.rfl

/-- The number, in the word. -/
def hold (word : Word) (number : Int) : Except Slip Int :=
  if word.Fits number then .ok number else .error (.overflow word number)

/-- The quotient, rounded toward zero, in the word. -/
def divide (word : Word) (dividend divisor : Int) : Except Slip Int :=
  if divisor = 0 then .error (.dividedByZero dividend) else word.hold (dividend.tdiv divisor)

/-- A number that fits is held as it is. -/
theorem hold_of_fits {word : Word} {number : Int} (fits : word.Fits number) :
    word.hold number = .ok number :=
  if_pos fits

/-- Of a dividend that is not negative the quotient is rounded down, and it fits where the dividend
does. -/
theorem divide_of_fits {word : Word} {dividend divisor : Int} (fits : word.Fits dividend)
    (least : word.least ≤ 0) (notNegative : 0 ≤ dividend) (positive : 0 < divisor) :
    word.divide dividend divisor = .ok (dividend / divisor) := by
  have lower : 0 ≤ dividend / divisor := Int.ediv_nonneg notNegative (Int.le_of_lt positive)
  have upper : dividend / divisor ≤ dividend := Int.ediv_le_self divisor notNegative
  rw [divide, if_neg (Int.ne_of_gt positive), Int.tdiv_eq_ediv_of_nonneg notNegative]
  exact hold_of_fits ⟨Int.le_trans least lower, Int.le_trans upper fits.2⟩

end Word

/-! ### Traversals that do not slip -/

section Traversal

variable {α β ε : Type} {entries : List α}

/-- If no entry slips, the list does not, and its parts are joined. -/
theorem flatMapM_eq_ok {parts : α → Except ε (List β)} {plain : α → List β}
    (passed : ∀ entry ∈ entries, parts entry = .ok (plain entry)) :
    entries.flatMapM parts = .ok (entries.flatMap plain) := by
  induction entries with
  | nil => rfl
  | cons head rest inductionHypothesis =>
    have first := passed head List.mem_cons_self
    have others :=
      inductionHypothesis fun entry inside => passed entry (List.mem_cons_of_mem _ inside)
    rw [List.flatMapM_cons, bind_of_passed first, bind_of_passed others]
    rfl

/-- If no entry slips, those parts are kept that there are. -/
theorem filterMapM_eq_ok {part? : α → Except ε (Option β)} {plain? : α → Option β}
    (passed : ∀ entry ∈ entries, part? entry = .ok (plain? entry)) :
    entries.filterMapM part? = .ok (entries.filterMap plain?) := by
  induction entries with
  | nil => rfl
  | cons head rest inductionHypothesis =>
    have first := passed head List.mem_cons_self
    have others :=
      inductionHypothesis fun entry inside => passed entry (List.mem_cons_of_mem _ inside)
    rw [List.filterMapM_cons, bind_of_passed first, List.filterMap_cons]
    cases plain? head with
    | none => exact others
    | some part =>
      simp only [bind_of_passed others]
      rfl

end Traversal

end ConstraintSearch
