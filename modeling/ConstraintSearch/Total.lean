/-!
# Totals

The weights of the entries of a list, added up. The main statement is what replacing one entry does
to the total.
-/

namespace ConstraintSearch

variable {α : Type}

/-- The sum of the weights of all entries. -/
def total (weight : α → Nat) : List α → Nat
  | [] => 0
  | entry :: rest => weight entry + total weight rest

@[simp] theorem total_nil (weight : α → Nat) : total weight [] = 0 :=
  rfl

@[simp] theorem total_cons (weight : α → Nat) (entry : α) (rest : List α) :
    total weight (entry :: rest) = weight entry + total weight rest :=
  rfl

/-- Replacing an entry changes the total by the difference of two weights. -/
theorem total_set (weight : α → Nat) {entries : List α} {index : Nat} (entry : α)
    (inside : index < entries.length) :
    total weight (entries.set index entry) + weight entries[index] =
      total weight entries + weight entry := by
  induction entries generalizing index with
  | nil => simp at inside
  | cons head rest inductionHypothesis =>
    cases index with
    | zero =>
      simp only [List.set_cons_zero, total_cons, List.getElem_cons_zero]
      omega
    | succ index =>
      have := inductionHypothesis (show index < rest.length by simpa using inside)
      simp only [List.set_cons_succ, total_cons, List.getElem_cons_succ]
      omega

/-- A list that is put together from parts is as long as its parts together. -/
theorem length_flatMap_eq_total {β : Type} (parts : α → List β) (entries : List α) :
    (entries.flatMap parts).length = total (fun entry => (parts entry).length) entries := by
  induction entries with
  | nil => rfl
  | cons head rest inductionHypothesis =>
    rw [List.flatMap_cons, List.length_append, inductionHypothesis, total_cons]

end ConstraintSearch
