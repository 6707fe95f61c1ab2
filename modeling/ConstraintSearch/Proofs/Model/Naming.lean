import ConstraintSearch.Proofs.Network.Attachment
import Mathlib.Data.List.Nodup
import Mathlib.Data.List.Perm.Subperm
import Std.Data.String.ToNat

/-!
# Labels and generated names

A directory whose entries have pairwise distinct labels finds every entry under its label.
Directories stay so as long as only entries with new labels are added, and the generated name of a
variable is always new: the attempts give different names, and there are more of them than
variables.
-/

namespace ConstraintSearch

/-! ### Pairwise distinct labels -/

namespace Directory

section Labels

variable {α κ : Type} [Ord κ] [DecidableEq κ] {label : α → κ} {directory : Directory α label}

/-- Different entries have different labels. -/
def Distinct (directory : Directory α label) : Prop :=
  ∀ ⦃first second entry other⦄, directory.get? first = some entry →
    directory.get? second = some other → label entry = label other → first = second

/-- What is found under a label has it. -/
theorem exists_get?_of_keyOf? {sought : κ} {key : Nat}
    (found : directory.keyOf? sought = some key) :
    ∃ entry, directory.get? key = some entry ∧ label entry = sought := by
  rw [keyOf?_eq_findKey?, Table.findKey?, Array.findIdx?_eq_some_iff_getElem] at found
  obtain ⟨inside, passes, -⟩ := found
  exact ⟨_, Array.getElem?_eq_getElem inside, by simpa using passes⟩

/-- Something is found under the label of every entry. -/
theorem keyOf?_isSome_of_get? {key : Nat} {entry : α} (found : directory.get? key = some entry) :
    (directory.keyOf? (label entry)).isSome := by
  rw [keyOf?_eq_findKey?, Table.findKey?, Array.findIdx?_isSome, Array.any_eq_true']
  exact ⟨entry, Array.mem_of_getElem? found, by simp⟩

/-- A label that nothing is found under is no label of an entry. -/
theorem keyOf?_eq_none_of_find? {sought : κ} (new : directory.find? sought = none) :
    directory.keyOf? sought = none := by
  cases found : directory.keyOf? sought with
  | none => rfl
  | some key =>
    obtain ⟨entry, isEntry, -⟩ := exists_get?_of_keyOf? found
    rw [find?, found, Option.bind_some, isEntry] at new
    cases new

/-- If the labels are distinct, then the index is the inverse of the table. -/
theorem Distinct.keyOf?_eq_some_iff (distinct : directory.Distinct) {sought : κ} {key : Nat} :
    directory.keyOf? sought = some key ↔
      ∃ entry, directory.get? key = some entry ∧ label entry = sought := by
  refine ⟨exists_get?_of_keyOf?, ?_⟩
  rintro ⟨entry, found, rfl⟩
  obtain ⟨other, foundOther⟩ := Option.isSome_iff_exists.mp (keyOf?_isSome_of_get? found)
  obtain ⟨entryOther, foundEntry, same⟩ := exists_get?_of_keyOf? foundOther
  rw [foundOther, distinct foundEntry found same]

/-- A change that keeps the labels keeps them distinct. -/
theorem Distinct.modify (distinct : directory.Distinct) (key : Nat) (change : α → α)
    (keeps : ∀ entry, label (change entry) = label entry) :
    (directory.modify key change keeps).Distinct := by
  have origin : ∀ {place entry}, (directory.modify key change keeps).get? place = some entry →
      ∃ former, directory.get? place = some former ∧ label entry = label former := by
    intro place entry found
    change (directory.table.modify key change).get? place = some entry at found
    rw [Table.get?_modify] at found
    split at found
    · obtain ⟨former, isFormer, rfl⟩ := Option.map_eq_some_iff.mp found
      exact ⟨former, isFormer, keeps former⟩
    · exact ⟨entry, found, rfl⟩
  intro first second left right foundLeft foundRight same
  obtain ⟨formerLeft, isLeft, sameLeft⟩ := origin foundLeft
  obtain ⟨formerRight, isRight, sameRight⟩ := origin foundRight
  exact distinct isLeft isRight (sameLeft.symm.trans (same.trans sameRight))

variable [Std.TransOrd κ] [Std.LawfulEqOrd κ]

omit [Std.LawfulEqOrd κ] in
theorem distinct_empty : (∅ : Directory α label).Distinct := by
  intro first second entry other found
  cases (show (none : Option α) = some entry from found)

/-- An entry with a new label keeps the labels distinct. -/
theorem Distinct.push (distinct : directory.Distinct) {entry : α}
    (new : directory.keyOf? (label entry) = none) : (directory.push entry).Distinct := by
  have fresh : ∀ {key other}, directory.get? key = some other → label other ≠ label entry := by
    intro key other found same
    have known := keyOf?_isSome_of_get? found
    rw [same, new] at known
    cases known
  intro first second left right foundLeft foundRight same
  change (directory.table.push entry).get? first = some left at foundLeft
  change (directory.table.push entry).get? second = some right at foundRight
  rw [Table.get?_push] at foundLeft foundRight
  split at foundLeft <;> split at foundRight
  · rename_i isFirst isSecond
    exact isFirst.trans isSecond.symm
  · cases foundLeft
    exact absurd same.symm (fresh foundRight)
  · cases foundRight
    exact absurd same (fresh foundLeft)
  · exact distinct foundLeft foundRight same

end Labels

end Directory

/-! ### Generated names -/

/-- All attempts but the first one say which they are. -/
theorem generatedName_succ (position attempt : Nat) :
    generatedName position (attempt + 1) = generatedName position 0 ++
      ("_" ++ (attempt + 1).repr) :=
  String.append_assoc

/-- Different attempts give different names. -/
theorem generatedName_inj {position attempt other : Nat} :
    generatedName position attempt = generatedName position other ↔ attempt = other := by
  have longer : ∀ attempt, generatedName position (attempt + 1) ≠ generatedName position 0 := by
    intro attempt same
    have lengths := congrArg String.length (generatedName_succ position attempt)
    rw [same, String.length_append, String.length_append] at lengths
    have one : "_".length = 1 := rfl
    omega
  refine ⟨fun same => ?_, congrArg _⟩
  cases attempt <;> cases other
  · rfl
  · exact absurd same.symm (longer _)
  · exact absurd same (longer _)
  · rwa [generatedName_succ, generatedName_succ, String.append_right_inj, String.append_right_inj,
      Nat.repr_inj] at same

/-- The first unused name is one that no variable has, if any of the remaining attempts gives such a
name. -/
theorem keyOf?_unusedNameFrom {vars : Variables} {remaining attempt : Nat}
    (unused : ∃ later ≤ remaining, vars.keyOf? (generatedName vars.size (attempt + later)) = none) :
    vars.keyOf? (unusedNameFrom vars remaining attempt) = none := by
  induction remaining generalizing attempt with
  | zero =>
    obtain ⟨later, isZero, new⟩ := unused
    obtain rfl : later = 0 := Nat.le_zero.mp isZero
    exact new
  | succ remaining inductionHypothesis =>
    rw [unusedNameFrom]
    split
    · rename_i taken
      obtain ⟨later, enough, new⟩ := unused
      cases later with
      | zero =>
        rw [Nat.add_zero] at new
        rw [new] at taken
        cases taken
      | succ later =>
        refine inductionHypothesis ⟨later, Nat.le_of_succ_le_succ enough, ?_⟩
        rwa [Nat.add_assoc, Nat.add_comm 1 later]
    · rename_i new
      exact Option.not_isSome_iff_eq_none.mp new

/-- There are fewer variables than attempts, so some attempt gives a name that no variable has. -/
theorem exists_unused_attempt (vars : Variables) :
    ∃ attempt ≤ vars.size, vars.keyOf? (generatedName vars.size attempt) = none := by
  by_contra none
  have taken : ∀ attempt ≤ vars.size, generatedName vars.size attempt ∈
      vars.toList.map Variable.name := by
    intro attempt few
    cases found : vars.keyOf? (generatedName vars.size attempt) with
    | none => exact absurd ⟨attempt, few, found⟩ none
    | some key =>
      obtain ⟨entry, isEntry, named⟩ := Directory.exists_get?_of_keyOf? found
      exact List.mem_map.mpr ⟨entry,
        Array.mem_toList_iff.mpr (Array.mem_of_getElem? isEntry), named⟩
  have different : ((List.range (vars.size + 1)).map (generatedName vars.size)).Nodup :=
    List.nodup_range.map fun _ _ => generatedName_inj.mp
  have inside : (List.range (vars.size + 1)).map (generatedName vars.size) ⊆
      vars.toList.map Variable.name := by
    intro name member
    obtain ⟨attempt, few, rfl⟩ := List.mem_map.mp member
    exact taken attempt (Nat.le_of_lt_succ (List.mem_range.mp few))
  have fewer := different.length_le_of_subset inside
  rw [List.length_map, List.length_map, List.length_range] at fewer
  exact Nat.not_succ_le_self _ fewer

/-- No variable has the name that is generated for the next one. -/
theorem keyOf?_unusedName (vars : Variables) : vars.keyOf? (unusedName vars) = none := by
  obtain ⟨attempt, few, new⟩ := exists_unused_attempt vars
  exact keyOf?_unusedNameFrom ⟨attempt, few, by rwa [Nat.zero_add]⟩

/-- The search for a name ends with one of the attempts. -/
theorem unusedNameFrom_eq (vars : Variables) (remaining attempt : Nat) :
    ∃ later, unusedNameFrom vars remaining attempt = generatedName vars.size later := by
  induction remaining generalizing attempt with
  | zero => exact ⟨attempt, rfl⟩
  | succ remaining inductionHypothesis =>
    rw [unusedNameFrom]
    split
    · exact inductionHypothesis (attempt + 1)
    · exact ⟨attempt, rfl⟩

/-- An unused name is a generated one. -/
theorem exists_unusedName_eq (vars : Variables) :
    ∃ attempt, unusedName vars = generatedName vars.size attempt :=
  unusedNameFrom_eq vars vars.size 0

/-- A variable without a name of its own keeps the names different. -/
theorem Directory.Distinct.pushAnonymous {vars : Variables} (distinct : vars.Distinct)
    (domain : Domain) : (vars.pushAnonymous domain).Distinct :=
  distinct.push (keyOf?_unusedName vars)

end ConstraintSearch
