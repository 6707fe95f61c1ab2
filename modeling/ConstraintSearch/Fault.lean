/-!
# Faults

A fault is a request that has no answer because of what it was asked of: a bound of an empty domain,
an entry behind the end of a table. It is a mistake of the caller and not of the problem that is
modelled.

Where requests are known to have answers, a sequence of them comes to the same as if they could not
fail (`foldlM_eq_ok`).
-/

namespace ConstraintSearch

/-- Why a request has no answer. -/
inductive Fault
  /-- The smallest value of an empty domain. -/
  | emptyMinimum
  /-- The largest value of an empty domain. -/
  | emptyMaximum
  /-- The middle value of an empty domain. -/
  | emptyMiddle
  /-- An entry behind the end. -/
  | outOfBounds (length index : Nat)
deriving DecidableEq, Repr

/-- The text that reports the fault. -/
def Fault.message : Fault → String
  | .emptyMinimum => "The minimum of an empty domain is undefined"
  | .emptyMaximum => "The maximum of an empty domain is undefined"
  | .emptyMiddle => "An empty domain has no middle element"
  | .outOfBounds length index =>
    s!"index out of bounds: the len is {length} but the index is {index}"

section Passed

variable {α β ε : Type}

theorem bind_of_passed {read : Except ε α} {value : α} {next : α → Except ε β}
    (passed : read = .ok value) : (read >>= next) = next value := by
  rw [passed]
  rfl

/-- Checked steps that pass from every good state, and leave a good one, come to what the plain
steps come to. -/
theorem foldlM_eq_ok {check : α → β → Except ε α} {step : α → β → α} {good : α → Prop}
    {entries : List β} {start : α}
    (passed : ∀ state, good state → ∀ entry ∈ entries,
      check state entry = .ok (step state entry) ∧ good (step state entry))
    (isGood : good start) : entries.foldlM check start = .ok (entries.foldl step start) := by
  induction entries generalizing start with
  | nil => rfl
  | cons head rest inductionHypothesis =>
    obtain ⟨first, stillGood⟩ := passed start isGood head List.mem_cons_self
    rw [List.foldlM_cons, bind_of_passed first, List.foldl_cons]
    exact inductionHypothesis (fun state held entry inside =>
      passed state held entry (List.mem_cons_of_mem _ inside)) stillGood

end Passed

end ConstraintSearch
