import ConstraintSearch.Fault

/-!
# Tables

A table stores entries under keys that count up from 0 in the order of arrival. Entries are replaced
but never removed, so a key stays valid for as long as the table is only extended.
-/

namespace ConstraintSearch

/-- Entries under the keys 0, 1, 2 and so on. -/
structure Table (α : Type) where
  entries : Array α
deriving DecidableEq

namespace Table

variable {α : Type}

/-- The table without entries. -/
def empty : Table α :=
  ⟨#[]⟩

instance : EmptyCollection (Table α) :=
  ⟨empty⟩

instance : Inhabited (Table α) :=
  ⟨empty⟩

/-- The table of the listed entries, the first one under key 0. -/
def ofList (entries : List α) : Table α :=
  ⟨entries.toArray⟩

/-- The number of entries, which is also the next key. -/
def size (table : Table α) : Nat :=
  table.entries.size

/-- Whether there is no entry. -/
def isEmpty (table : Table α) : Bool :=
  table.entries.isEmpty

/-- The table with one more entry, whose key is the former size. -/
def push (table : Table α) (entry : α) : Table α :=
  ⟨table.entries.push entry⟩

/-- The entry under a key, if there is one. -/
def get? (table : Table α) (key : Nat) : Option α :=
  table.entries[key]?

/-- The entry under a key, or a substitute if there is none. -/
def getD (table : Table α) (key : Nat) (substitute : α) : α :=
  (table.get? key).getD substitute

/-- The entry under a key, or the fault that there is none. -/
def get (table : Table α) (key : Nat) : Except Fault α :=
  (table.get? key).elim (.error (.outOfBounds table.size key)) .ok

/-- The table with the entry under a key replaced; the same table if there is none. -/
def set (table : Table α) (key : Nat) (entry : α) : Table α :=
  ⟨table.entries.setIfInBounds key entry⟩

/-- The table with the entry under a key replaced, or the fault that there is none. -/
def replace (table : Table α) (key : Nat) (entry : α) : Except Fault (Table α) :=
  if key < table.size then .ok (table.set key entry) else .error (.outOfBounds table.size key)

/-- The table with the entry under a key changed by a function; the same table if there is none. -/
def modify (table : Table α) (key : Nat) (change : α → α) : Table α :=
  ⟨table.entries.modify key change⟩

/-- The keys in increasing order. -/
def keys (table : Table α) : List Nat :=
  List.range table.size

/-- The entries in the order of their keys. -/
def toList (table : Table α) : List α :=
  table.entries.toList

/-- The first key whose entry passes a test. -/
def findKey? (table : Table α) (test : α → Bool) : Option Nat :=
  table.entries.findIdx? test

/-- The first entry that passes a test. -/
def find? (table : Table α) (test : α → Bool) : Option α :=
  table.entries.find? test

/-- The table of the images of the entries. -/
def map {β : Type} (table : Table α) (image : α → β) : Table β :=
  ⟨table.entries.map image⟩

@[simp] theorem size_push (table : Table α) (entry : α) :
    (table.push entry).size = table.size + 1 :=
  Array.size_push ..

/-- Setting an entry adds none. -/
@[simp] theorem size_set (table : Table α) (key : Nat) (entry : α) :
    (table.set key entry).size = table.size :=
  Array.size_setIfInBounds ..

/-- A pushed entry is found under the first free key. -/
theorem get?_push (table : Table α) (entry : α) (key : Nat) :
    (table.push entry).get? key = if key = table.size then some entry else table.get? key :=
  Array.getElem?_push

/-- An entry is set only if it is there. -/
theorem get?_set (table : Table α) (key other : Nat) (entry : α) :
    (table.set key entry).get? other =
      if key = other then (table.get? other).map fun _ => entry else table.get? other := by
  simp only [get?, set, Array.getElem?_setIfInBounds]
  split
  · subst_vars
    split <;> simp_all
  · rfl

/-- The entry that is found is that of the key that is found. -/
theorem find?_eq_findKey?_bind (table : Table α) (test : α → Bool) :
    table.find? test = (table.findKey? test).bind table.get? := by
  change table.entries.find? test = (table.entries.findIdx? test).bind (table.entries[·]?)
  rw [Array.find?_eq_map_findFinIdx?_getElem, Array.findIdx?_eq_map_findFinIdx?_val]
  cases table.entries.findFinIdx? test <;> simp

@[simp] theorem findKey?_empty (test : α → Bool) : (∅ : Table α).findKey? test = none :=
  Array.findIdx?_empty

/-- A pushed entry is found only if no earlier one is. -/
theorem findKey?_push (table : Table α) (entry : α) (test : α → Bool) :
    (table.push entry).findKey? test =
      (table.findKey? test).or (if test entry then some table.size else none) :=
  Array.findIdx?_push

/-- Changing an entry does not move what is found, as long as the change does not matter to the
test. -/
theorem findKey?_modify (table : Table α) (key : Nat) (change : α → α) (test : α → Bool)
    (same : ∀ entry, test (change entry) = test entry) :
    (table.modify key change).findKey? test = table.findKey? test := by
  have images : (table.entries.modify key change).map test = table.entries.map test := by
    apply Array.ext_getElem?
    intro index
    simp only [Array.getElem?_map, Array.getElem?_modify]
    split
    · cases table.entries[index]? <;> simp [same]
    · rfl
  have changed := @Array.findIdx?_map _ _ test (table.entries.modify key change) id
  have unchanged := @Array.findIdx?_map _ _ test table.entries id
  rw [images] at changed
  exact changed.symm.trans unchanged

/-- No entry is found beyond the end. -/
theorem get?_eq_none_iff (table : Table α) (key : Nat) :
    table.get? key = none ↔ table.size ≤ key := by
  simp [get?, size]

/-- One is found under each key below the size. -/
theorem get?_isSome_iff (table : Table α) (key : Nat) :
    (table.get? key).isSome ↔ key < table.size := by
  simp [get?, size]

end Table

end ConstraintSearch
