import ConstraintSearch.Proofs.Propagation.Outcome
import Mathlib.Data.Finset.Basic

/-!
# Epochs and cycles

A stamped set leaves the stamps of earlier epochs as they are, and changes are collected in a list
beside such a set. Both are shown to answer all sequences of requests as if they forgot everything
whenever an epoch or a cycle begins: the set like a plain set that is emptied then, and the changes
with the variables that were noted in the cycle, in the order in which they were first noted
(`Changes.refine_ordered_sets`).
-/

namespace ConstraintSearch

/-! ### Sequences of requests -/

section Requests

variable {State Request Answer : Type}

/-- The answers to requests that are served one after the other, up to the first fault. -/
def answersFrom (serve : State → Request → Except Fault (Answer × State)) :
    State → List Request → List (Except Fault Answer)
  | _, [] => []
  | state, request :: requests =>
    match serve state request with
    | .ok (answer, state) => .ok answer :: answersFrom serve state requests
    | .error fault => [.error fault]

/-- Every answer is one that is expected after the requests before it. -/
inductive Explained (expects : List Request → Request → Except Fault Answer → Prop) :
    (history requests : List Request) → List (Except Fault Answer) → Prop
  | nil {history} : Explained expects history [] []
  | answered {history request requests answer answers}
      (expected : expects history request (.ok answer))
      (rest : Explained expects (history ++ [request]) requests answers) :
      Explained expects history (request :: requests) (.ok answer :: answers)
  | faulted {history request requests fault} (expected : expects history request (.error fault)) :
      Explained expects history (request :: requests) [.error fault]

/-- Answers are explained where every request that is served in a state which fits the history gets
an expected answer, and leaves a state that fits the longer history. -/
theorem explained_answersFrom {serve : State → Request → Except Fault (Answer × State)}
    {expects : List Request → Request → Except Fault Answer → Prop}
    {Fits : List Request → State → Prop}
    (served : ∀ {history state}, Fits history state → ∀ request,
      (∃ answer next, serve state request = .ok (answer, next) ∧
        expects history request (.ok answer) ∧ Fits (history ++ [request]) next) ∨
      ∃ fault, serve state request = .error fault ∧ expects history request (.error fault))
    (requests : List Request) {history : List Request} {state : State} (fits : Fits history state) :
    Explained expects history requests (answersFrom serve state requests) := by
  induction requests generalizing history state with
  | nil => exact .nil
  | cons request requests inductionHypothesis =>
    rw [answersFrom]
    rcases served fits request with ⟨answer, next, done, expected, fitsNext⟩ | ⟨fault,
      failed, expected⟩
    · rw [done]
      exact .answered expected (inductionHypothesis fitsNext)
    · rw [failed]
      exact .faulted expected

end Requests

/-! ### Sets -/

namespace StampedSet

/-- What a set can be asked. -/
inductive Request
  | insert (key : Nat)
  | contains (key : Nat)
  | next
deriving DecidableEq, Repr

/-- The answer of a set to a request, none where an epoch begins. -/
def serve (set : StampedSet) : Request → Except Fault (Option Bool × StampedSet)
  | .insert key => (set.insert key).map fun (isNew, set) => (some isNew, set)
  | .contains key => .ok (some (set.contains key), set)
  | .next => .ok (none, set.next)

/-- A plain set after a request. -/
def membersThen (members : Finset Nat) : Request → Finset Nat
  | .insert key => members ∪ {key}
  | .contains _ => members
  | .next => ∅

/-- The plain set that is empty at first, after the requests. -/
def membersAfter (history : List Request) : Finset Nat :=
  history.foldl membersThen ∅

/-- The key was inserted, and no epoch has begun since. -/
def InsertedSince (history : List Request) (key : Nat) : Prop :=
  ∃ earlier later, history = earlier ++ .insert key :: later ∧ .next ∉ later

/-- What a set with the capacity answers after a history of requests. -/
def Expects (capacity : Nat) (history : List Request) : Request → Except Fault (Option Bool) → Prop
  | .insert key, answer =>
    if key < capacity then ∃ isNew, answer = .ok (some isNew) ∧
      (isNew = true ↔ ¬ InsertedSince history key)
    else answer = .error (.outOfBounds capacity key)
  | .contains key, answer =>
    ∃ isMember, answer = .ok (some isMember) ∧ (isMember = true ↔ key ∈ membersAfter history)
  | .next, answer => answer = .ok none

/-- The last request is made of the set that the others have left. -/
theorem membersAfter_concat (history : List Request) (request : Request) :
    membersAfter (history ++ [request]) = membersThen (membersAfter history) request := by
  rw [membersAfter, membersAfter, List.foldl_append, List.foldl_cons, List.foldl_nil]

/-- A key has been inserted by the last request, or before it in the same epoch. -/
theorem insertedSince_concat {history : List Request} {request : Request} {key : Nat} :
    InsertedSince (history ++ [request]) key ↔
      request = .insert key ∨ request ≠ .next ∧ InsertedSince history key := by
  constructor
  · rintro ⟨earlier, later, same, quiet⟩
    rcases List.eq_nil_or_concat later with rfl | ⟨between, last, rfl⟩
    · obtain ⟨-, same⟩ := List.append_inj' same rfl
      exact .inl (List.singleton_inj.mp same)
    · rw [List.concat_eq_append] at same quiet
      rw [← List.cons_append, ← List.append_assoc] at same
      obtain ⟨rfl, sameLast⟩ := List.append_inj' same rfl
      obtain rfl := List.singleton_inj.mp sameLast
      rw [List.mem_append, List.mem_singleton, not_or] at quiet
      exact .inr ⟨Ne.symm quiet.2, earlier, between, rfl, quiet.1⟩
  · rintro (rfl | ⟨different, earlier, later, rfl, quiet⟩)
    · exact ⟨history, [], rfl, List.not_mem_nil⟩
    · refine ⟨earlier, later ++ [request], by rw [List.append_assoc, List.cons_append], ?_⟩
      rw [List.mem_append, List.mem_singleton, not_or]
      exact ⟨quiet, Ne.symm different⟩

/-- The members of the plain set are the keys that were inserted since the epoch began. -/
theorem mem_membersAfter {history : List Request} {key : Nat} :
    key ∈ membersAfter history ↔ InsertedSince history key := by
  induction history using List.reverseRecOn with
  | nil =>
    refine ⟨fun member => absurd member (Finset.notMem_empty key), ?_⟩
    rintro ⟨earlier, later, same, -⟩
    simp at same
  | append_singleton history request inductionHypothesis =>
    rw [membersAfter_concat, insertedSince_concat, ← inductionHypothesis]
    cases request with
    | insert other =>
      rw [membersThen, Finset.mem_union, Finset.mem_singleton]
      constructor
      · rintro (member | rfl)
        · exact .inr ⟨nofun, member⟩
        · exact .inl rfl
      · rintro (same | ⟨-, member⟩)
        · cases same
          exact .inr rfl
        · exact .inl member
    | contains other => simp [membersThen]
    | next => simp [membersThen]

/-- The set has the capacity and the members. -/
structure Holds (set : StampedSet) (capacity : Nat) (members : Finset Nat) : Prop where
  timely : set.Timely
  capacity_eq : set.capacity = capacity
  contains_iff : ∀ key, set.contains key = true ↔ key ∈ members

/-- A new set has no members. -/
theorem holds_withCapacity (capacity : Nat) : (withCapacity capacity).Holds capacity ∅ where
  timely := timely_withCapacity capacity
  capacity_eq := Array.size_replicate
  contains_iff key := by
    simp only [contains, withCapacity, Array.getElem?_replicate, Finset.notMem_empty, iff_false,
      Bool.not_eq_true]
    split <;> rfl

namespace Holds

variable {set : StampedSet} {capacity : Nat} {members : Finset Nat}

/-- Adding a key for which there is room adds just that. -/
theorem add (holds : set.Holds capacity members) {key : Nat} (room : key < capacity) :
    (set.add key).Holds capacity (members ∪ {key}) where
  timely := holds.timely.add key
  capacity_eq := (capacity_add ..).trans holds.capacity_eq
  contains_iff other := by
    rw [contains_add, Bool.or_eq_true, holds.contains_iff, Finset.mem_union, Finset.mem_singleton,
      holds.capacity_eq, decide_eq_true room, Bool.and_true, beq_iff_eq, @eq_comm _ key]

/-- A new epoch begins without members. -/
theorem next (holds : set.Holds capacity members) : set.next.Holds capacity ∅ where
  timely := holds.timely.next
  capacity_eq := (capacity_next _).trans holds.capacity_eq
  contains_iff key := by simp [holds.timely.contains_next]

end Holds

/-- A set that has the members which it should have after a history serves the next request as
expected. -/
theorem serve_expected {set : StampedSet} {capacity : Nat} {history : List Request}
    (holds : set.Holds capacity (membersAfter history)) (request : Request) :
    (∃ answer next, set.serve request = .ok (answer, next) ∧
      Expects capacity history request (.ok answer) ∧
        next.Holds capacity (membersAfter (history ++ [request]))) ∨
    ∃ fault, set.serve request = .error fault ∧
      Expects capacity history request (.error fault) := by
  rw [membersAfter_concat]
  cases request with
  | insert key =>
    by_cases room : key < capacity
    · have inserted : set.insert key = .ok (!set.contains key, set.add key) :=
        if_pos (holds.capacity_eq.symm ▸ room)
      refine .inl ⟨some (!set.contains key), set.add key, by rw [serve, inserted]; rfl, ?_,
        holds.add room⟩
      rw [Expects, if_pos room]
      refine ⟨_, rfl, ?_⟩
      rw [← mem_membersAfter, ← holds.contains_iff, Bool.not_eq_true', Bool.not_eq_true]
    · have failed : set.insert key = .error (.outOfBounds set.capacity key) :=
        if_neg (holds.capacity_eq.symm ▸ room)
      refine .inr ⟨_, by rw [serve, failed]; rfl, ?_⟩
      rw [Expects, if_neg room, holds.capacity_eq]
  | contains key => exact .inl ⟨_, set, rfl, ⟨_, rfl, holds.contains_iff key⟩, holds⟩
  | next => exact .inl ⟨none, set.next, rfl, rfl, holds.next⟩

end StampedSet

/-! ### Changes -/

namespace Changes

/-- What changes can be asked: to note a variable, or to hand out those of the cycle and begin a new
one. -/
inductive Request
  | record (variableId : VariableId)
  | next
deriving DecidableEq, Repr

/-- The answer to a request, none where a variable is noted. -/
def serve (changes : Changes) : Request → Except Fault (Option (List VariableId) × Changes)
  | .record variableId =>
    (changes.recorded.insert variableId).map fun _ => (none, changes.record variableId)
  | .next => .ok (some changes.order.toList, changes.next)

/-- The variables noted in a cycle, in order and with repetitions, after a request. -/
def recordedThen (recorded : List VariableId) : Request → List VariableId
  | .record variableId => recorded ++ [variableId]
  | .next => []

/-- The variables that were noted since the cycle began, in order and with repetitions. -/
def recordedSince (history : List Request) : List VariableId :=
  history.foldl recordedThen []

/-- The list has every entry of the other one once, in the order of their first places there. -/
structure ListsFirst (recorded listed : List VariableId) : Prop where
  nodup : listed.Nodup
  mem_iff : ∀ variableId, variableId ∈ listed ↔ variableId ∈ recorded
  ordered : listed.Pairwise fun first second => recorded.idxOf first < recorded.idxOf second

/-- What changes of a number of variables answer after a history of requests. -/
def Expects (count : Nat) (history : List Request) :
    Request → Except Fault (Option (List VariableId)) → Prop
  | .record variableId, answer =>
    if variableId < count then answer = .ok none
      else answer = .error (.outOfBounds count variableId)
  | .next, answer =>
    ∃ listed, answer = .ok (some listed) ∧ ListsFirst (recordedSince history) listed

/-- The last request is made of the changes that the others have left. -/
theorem recordedSince_concat (history : List Request) (request : Request) :
    recordedSince (history ++ [request]) = recordedThen (recordedSince history) request := by
  rw [recordedSince, recordedSince, List.foldl_append, List.foldl_cons, List.foldl_nil]

namespace ListsFirst

variable {recorded listed : List VariableId} {variableId : VariableId}

/-- Nothing lists nothing. -/
theorem nil : ListsFirst [] [] :=
  ⟨.nil, fun _ => Iff.rfl, .nil⟩

/-- The first places are not those of entries that come behind. -/
theorem ordered_append (lists : ListsFirst recorded listed) (others : List VariableId) :
    listed.Pairwise fun first second =>
      (recorded ++ others).idxOf first < (recorded ++ others).idxOf second := by
  refine lists.ordered.imp_of_mem fun {first second} firstListed secondListed earlier => ?_
  rwa [List.idxOf_append_of_mem ((lists.mem_iff first).mp firstListed),
    List.idxOf_append_of_mem ((lists.mem_iff second).mp secondListed)]

/-- A variable that is noted again is not listed again. -/
theorem again (lists : ListsFirst recorded listed) (before : variableId ∈ recorded) :
    ListsFirst (recorded ++ [variableId]) listed where
  nodup := lists.nodup
  mem_iff other := by
    rw [lists.mem_iff, List.mem_append, List.mem_singleton]
    exact ⟨.inl, fun member => member.elim id fun same => same ▸ before⟩
  ordered := lists.ordered_append [variableId]

/-- One that is noted for the first time is listed last. -/
theorem first (lists : ListsFirst recorded listed) (new : variableId ∉ recorded) :
    ListsFirst (recorded ++ [variableId]) (listed ++ [variableId]) where
  nodup := by
    refine List.nodup_append.mpr ⟨lists.nodup, List.pairwise_singleton _ _, ?_⟩
    rintro other otherListed _ added rfl
    rw [List.mem_singleton.mp added, lists.mem_iff] at otherListed
    exact new otherListed
  mem_iff other := by rw [List.mem_append, List.mem_append, lists.mem_iff]
  ordered := by
    refine List.pairwise_append.mpr ⟨lists.ordered_append [variableId],
      List.pairwise_singleton _ _, ?_⟩
    rintro other otherListed _ added
    rw [List.mem_singleton.mp added]
    have otherRecorded := (lists.mem_iff other).mp otherListed
    rw [List.idxOf_append_of_mem otherRecorded, List.idxOf_append_of_notMem new]
    exact Nat.lt_of_lt_of_le (List.idxOf_lt_length_of_mem otherRecorded) (Nat.le_add_right _ _)

end ListsFirst

/-- The changes have room for the variables and list those that were noted. -/
structure Tracks (changes : Changes) (count : Nat) (recorded : List VariableId) : Prop where
  precise : changes.Precise
  capacity_eq : changes.recorded.capacity = count
  lists : ListsFirst recorded changes.order.toList

/-- New changes list nothing. -/
theorem tracks_forVariables (count : Nat) : (forVariables count).Tracks count [] where
  precise := precise_forVariables count
  capacity_eq := Array.size_replicate
  lists := .nil

namespace Tracks

variable {changes : Changes} {count : Nat} {recorded : List VariableId}

/-- Noting a variable keeps track of it, be it for the first time or again. -/
theorem record (tracks : changes.Tracks count recorded) {variableId : VariableId}
    (room : variableId < count) :
    (changes.record variableId).Tracks count (recorded ++ [variableId]) where
  precise := tracks.precise.record (tracks.capacity_eq.symm ▸ room)
  capacity_eq := (capacity_record ..).trans tracks.capacity_eq
  lists := by
    rw [Changes.record]
    split
    · rename_i contained
      exact tracks.lists.again ((tracks.lists.mem_iff variableId).mp
        (tracks.precise.listed contained))
    · rename_i new
      rw [Array.toList_push]
      exact tracks.lists.first fun before =>
        new (tracks.precise.contains_of_mem ((tracks.lists.mem_iff variableId).mpr before))

/-- A new cycle lists nothing. -/
theorem next (tracks : changes.Tracks count recorded) : changes.next.Tracks count [] where
  precise := tracks.precise.next
  capacity_eq := (capacity_next _).trans tracks.capacity_eq
  lists := .nil

end Tracks

/-- Changes that list what they should list after a history serve the next request as expected. -/
theorem serve_expected {changes : Changes} {count : Nat} {history : List Request}
    (tracks : changes.Tracks count (recordedSince history)) (request : Request) :
    (∃ answer next, changes.serve request = .ok (answer, next) ∧
      Expects count history request (.ok answer) ∧
        next.Tracks count (recordedSince (history ++ [request]))) ∨
    ∃ fault, changes.serve request = .error fault ∧
      Expects count history request (.error fault) := by
  rw [recordedSince_concat]
  cases request with
  | record variableId =>
    by_cases room : variableId < count
    · have inserted : changes.recorded.insert variableId =
          .ok (!changes.recorded.contains variableId, changes.recorded.add variableId) :=
        if_pos (tracks.capacity_eq.symm ▸ room)
      refine .inl ⟨none, changes.record variableId, by rw [serve, inserted]; rfl, ?_,
        tracks.record room⟩
      rw [Expects, if_pos room]
    · have failed : changes.recorded.insert variableId =
          .error (.outOfBounds changes.recorded.capacity variableId) :=
        if_neg (tracks.capacity_eq.symm ▸ room)
      refine .inr ⟨_, by rw [serve, failed]; rfl, ?_⟩
      rw [Expects, if_neg room, tracks.capacity_eq]
  | next => exact .inl ⟨_, changes.next, rfl, ⟨_, rfl, tracks.lists⟩, tracks.next⟩

/-- Changes and stamped sets answer every sequence of requests as if each cycle and each epoch were
the only one. -/
theorem refine_ordered_sets (count : Nat) :
    (∀ requests, Explained (Changes.Expects count) [] requests
      (answersFrom Changes.serve (.forVariables count) requests)) ∧ ∀ requests,
        Explained (StampedSet.Expects count) [] requests
          (answersFrom StampedSet.serve (.withCapacity count) requests) :=
  ⟨fun requests => explained_answersFrom serve_expected requests (tracks_forVariables count),
    fun requests => explained_answersFrom StampedSet.serve_expected requests
    (StampedSet.holds_withCapacity count)⟩

example :
    answersFrom Changes.serve (.forVariables 3) [.record 2, .record 0, .record 2, .next, .record 1,
      .next, .next] = [.ok none, .ok none, .ok none, .ok (some [2, 0]), .ok none, .ok (some [1]),
        .ok (some [])] :=
  rfl

end Changes

end ConstraintSearch
