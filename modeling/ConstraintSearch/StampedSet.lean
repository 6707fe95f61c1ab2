import ConstraintSearch.Fault

/-!
# Sets that empty at once

A stamped set holds keys below a capacity. Each key remembers the epoch in which it was last added,
and is a member when that epoch is the current one, so that starting a new epoch empties the set
without touching the stamps. Only behind the last epoch that a stamp has room for are the stamps
reset, and the epochs counted from the first one again.
-/

namespace ConstraintSearch

/-- A set of keys below the number of its stamps. -/
structure StampedSet where
  stamps : Array UInt32
  /-- Positive, since a key that was never added is stamped 0. -/
  epoch : UInt32
deriving DecidableEq

namespace StampedSet

/-- The empty set with room for the keys below the capacity. -/
def withCapacity (capacity : Nat) : StampedSet :=
  ⟨Array.replicate capacity 0, 1⟩

/-- The keys below the capacity are those that can be added. -/
def capacity (set : StampedSet) : Nat :=
  set.stamps.size

/-- Whether the key was added in the current epoch. -/
def contains (set : StampedSet) (key : Nat) : Bool :=
  set.stamps[key]? == some set.epoch

/-- The set with the key added, if there is room for it. -/
def add (set : StampedSet) (key : Nat) : StampedSet :=
  { set with stamps := set.stamps.setIfInBounds key set.epoch }

/-- Adds the key and tells whether it is new, or reports the fault that there is no room for it. -/
def insert (set : StampedSet) (key : Nat) : Except Fault (Bool × StampedSet) :=
  if key < set.capacity then
    .ok (!set.contains key, set.add key)
  else
    .error (.outOfBounds set.capacity key)

/-- The last epoch that a stamp has room for. -/
def lastEpoch : UInt32 :=
  0xffffffff

/-- The empty set, reached by starting one epoch. -/
def next (set : StampedSet) : StampedSet :=
  if set.epoch = lastEpoch then
    ⟨set.stamps.map fun _ => 0, 1⟩
  else
    { set with epoch := set.epoch + 1 }

/-- The set after as many new epochs as given. -/
def advance (set : StampedSet) : (epochs : Nat) → StampedSet
  | 0 => set
  | epochs + 1 => set.next.advance epochs

/-- The members in increasing order. -/
def members (set : StampedSet) : List Nat :=
  (List.range set.capacity).filter set.contains

/-- A key is a member after an addition when it was one before or was added and has room. -/
theorem contains_add (set : StampedSet) (key other : Nat) :
    (set.add key).contains other =
      (set.contains other || (key == other && key < set.capacity)) := by
  simp only [contains, add, capacity, Array.getElem?_setIfInBounds]
  split
  · rename_i same
    subst same
    split <;> rename_i room <;> simp [room]
  · simp_all

@[simp] theorem capacity_add (set : StampedSet) (key : Nat) :
    (set.add key).capacity = set.capacity := by
  rw [capacity, capacity, add, Array.size_setIfInBounds]

@[simp] theorem capacity_next (set : StampedSet) : set.next.capacity = set.capacity := by
  rw [next]
  split
  · exact Array.size_map
  · rfl

/-- No key is stamped with a later epoch than the current one. -/
def Timely (set : StampedSet) : Prop :=
  ∀ (key : Nat) (stamp : UInt32), set.stamps[key]? = some stamp → stamp ≤ set.epoch

/-- The stamps of a new set come before its first epoch. -/
theorem timely_withCapacity (capacity : Nat) : (withCapacity capacity).Timely := by
  intro key stamp found
  simp only [withCapacity, Array.getElem?_replicate] at found
  split at found
  · cases found
    exact UInt32.zero_le
  · cases found

/-- A key is stamped with the current epoch at most. -/
theorem Timely.add {set : StampedSet} (timely : set.Timely) (key : Nat) : (set.add key).Timely := by
  intro other stamp found
  simp only [StampedSet.add, Array.getElem?_setIfInBounds] at found ⊢
  split at found
  · split at found <;> cases found
    exact UInt32.le_refl _
  · exact timely other stamp found

/-- The epoch after one that is not the last comes later. -/
theorem lt_add_one_of_ne_lastEpoch {epoch : UInt32} (early : epoch ≠ lastEpoch) :
    epoch < epoch + 1 := by
  have bounded := epoch.toNat_lt
  have notLast : epoch.toNat ≠ 4294967295 := fun same => early (UInt32.toNat_inj.mp same)
  rw [UInt32.lt_iff_toNat_lt, UInt32.toNat_add]
  have one : (1 : UInt32).toNat = 1 := rfl
  omega

/-- A new epoch is later than all stamps, or else these are reset. -/
theorem Timely.next {set : StampedSet} (timely : set.Timely) : set.next.Timely := by
  intro key stamp found
  rw [StampedSet.next] at found ⊢
  split at found
  · rename_i last
    obtain ⟨_, _, rfl⟩ := Option.map_eq_some_iff.mp (Array.getElem?_map.symm.trans found)
    exact UInt32.zero_le
  · rename_i early
    rw [if_neg early]
    exact UInt32.le_of_lt (UInt32.lt_of_le_of_lt (timely key stamp found)
      (lt_add_one_of_ne_lastEpoch early))

/-- A new epoch begins without members. -/
theorem Timely.contains_next {set : StampedSet} (timely : set.Timely) (key : Nat) :
    set.next.contains key = false := by
  rw [StampedSet.next, contains]
  split
  · rw [Array.getElem?_map]
    cases set.stamps[key]? <;> rfl
  · rename_i early
    refine beq_eq_false_iff_ne.mpr fun stamped => ?_
    exact UInt32.not_le.mpr (lt_add_one_of_ne_lastEpoch early) (timely key _ stamped)

end StampedSet

end ConstraintSearch
