import ConstraintSearch.Model.Name
import ConstraintSearch.StampedSet

/-!
# Changed variables

The propagators run in cycles, each of which needs the variables that changed in the one before.
They are collected in the order in which they first changed, each once.
-/

namespace ConstraintSearch

/-- The variables that changed in the current cycle. -/
structure Changes where
  recorded : StampedSet
  order : Array VariableId
deriving DecidableEq

namespace Changes

/-- No changes, with room for the given number of variables. -/
def forVariables (count : Nat) : Changes :=
  ⟨.withCapacity count, #[]⟩

/-- Notes that a variable changed, if it has not done so before in this cycle. -/
def record (changes : Changes) (variableId : VariableId) : Changes :=
  if changes.recorded.contains variableId then
    changes
  else
    ⟨changes.recorded.add variableId, changes.order.push variableId⟩

/-- Starts a new cycle, without changes so far. -/
def next (changes : Changes) : Changes :=
  ⟨changes.recorded.next, #[]⟩

/-- Noting a variable lists at most one more. -/
theorem size_order_record_le (changes : Changes) (variableId : VariableId) :
    (changes.record variableId).order.size ≤ changes.order.size + 1 := by
  rw [record]
  split <;> simp

/-- Nothing is listed when a cycle starts. -/
@[simp] theorem size_order_next (changes : Changes) : changes.next.order.size = 0 :=
  rfl

/-- The next cycle has room for as many variables. -/
@[simp] theorem capacity_next (changes : Changes) :
    changes.next.recorded.capacity = changes.recorded.capacity :=
  StampedSet.capacity_next ..

end Changes

end ConstraintSearch
