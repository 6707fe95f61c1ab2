import ConstraintSearch.Table
import Std.Data.TreeMap

/-!
# Directories

A directory is a table whose entries have labels. An index leads from a label to the first entry
that has it, without a look at the others; the proof that it does so is part of the directory, so
that an answer of the index can always be replaced by a search through the table.
-/

namespace ConstraintSearch

/-- A table, and for each label the key of the first entry that has it. -/
structure Directory (α : Type) {κ : Type} [Ord κ] [DecidableEq κ] (label : α → κ) where
  table : Table α
  index : Std.TreeMap κ Nat
  index_eq : ∀ sought, index[sought]? = table.findKey? fun entry => label entry = sought

namespace Directory

variable {α κ : Type} [Ord κ] [DecidableEq κ] {label : α → κ}

/-- The number of entries, which is also the next key. -/
def size (directory : Directory α label) : Nat :=
  directory.table.size

/-- The entry under a key, if there is one. -/
def get? (directory : Directory α label) (key : Nat) : Option α :=
  directory.table.get? key

/-- The entries in the order of their keys. -/
def toList (directory : Directory α label) : List α :=
  directory.table.toList

/-- The key of the first entry with the label. -/
def keyOf? (directory : Directory α label) (sought : κ) : Option Nat :=
  directory.index[sought]?

/-- The first entry with the label. -/
def find? (directory : Directory α label) (sought : κ) : Option α :=
  (directory.keyOf? sought).bind directory.get?

/-- The index finds the first entry with the label. -/
theorem keyOf?_eq_findKey? (directory : Directory α label) (sought : κ) :
    directory.keyOf? sought = directory.table.findKey? fun entry => label entry = sought :=
  directory.index_eq sought

/-- So does the search by label. -/
theorem find?_eq_find? (directory : Directory α label) (sought : κ) :
    directory.find? sought = directory.table.find? fun entry => label entry = sought := by
  rw [find?, keyOf?_eq_findKey?, Table.find?_eq_findKey?_bind]
  rfl

variable [Std.TransOrd κ] [Std.LawfulEqOrd κ]

/-- The directory without entries. -/
def empty : Directory α label where
  table := ∅
  index := ∅
  index_eq _ := Std.TreeMap.getElem?_emptyc.trans (Table.findKey?_empty _).symm

instance : EmptyCollection (Directory α label) :=
  ⟨empty⟩

/-- The directory with one more entry, whose key is the former size. -/
def push (directory : Directory α label) (entry : α) : Directory α label :=
  let key := directory.table.size
  { table := directory.table.push entry
    index := directory.index.insertIfNew (label entry) key
    index_eq := fun sought => by
      rw [Std.TreeMap.getElem?_insertIfNew, Table.findKey?_push, ← directory.index_eq]
      by_cases same : label entry = sought
      · subst same
        by_cases known : label entry ∈ directory.index <;> simp [known, key]
      · simp [same] }

/-- The directory with the entry under a key changed in a way that keeps its label. -/
def modify (directory : Directory α label) (key : Nat) (change : α → α)
    (keeps : ∀ entry, label (change entry) = label entry) : Directory α label where
  table := directory.table.modify key change
  index := directory.index
  index_eq sought := by
    rw [directory.index_eq, Table.findKey?_modify]
    simp [keeps]

end Directory

end ConstraintSearch
