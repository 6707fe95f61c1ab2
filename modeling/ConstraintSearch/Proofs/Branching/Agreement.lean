import ConstraintSearch.Proofs.Branching.Weights
import ConstraintSearch.Proofs.Domain.Order
import ConstraintSearch.Search.Narrowing

/-!
# Drawn values and accepted ones

A Markov matrix is read in two ways. A value is drawn if any place of the legend where it stands has
a positive weight, and behind the legend come all values of the domain that it lacks. A fixed value
is accepted if its first place has a positive weight, and behind the legend comes that value alone.
The two readings agree just if no value of the legend owes its weight to a later place, and the row
has the same to say about all places behind the legend.
-/

namespace ConstraintSearch

namespace MarkovMatrix

variable {Guard : Type} {matrix : MarkovMatrix Guard} {isTrue : Guard → Bool}
  {row : MarkovRow Guard}

/-- No value of the legend owes its weight to a later place, and the row says the same of all places
that values can have behind the legend. -/
structure Unambiguous (matrix : MarkovMatrix Guard) (row : MarkovRow Guard) : Prop where
  repeated : ∀ value ∈ Domain.full, ∀ place, matrix.legend[place]? = some value →
    matrix.Weighs row place → matrix.Weighs row (matrix.legend.idxOf value)
  behind : ∀ place < (matrix.appended .full).length,
    (matrix.Weighs row (matrix.legend.length + place) ↔ matrix.Weighs row matrix.legend.length)

/-- There is nothing ambiguous about a legend without repetitions and a row that is not longer. -/
theorem Unambiguous.of_nodup (nodup : matrix.legend.Nodup)
    (short : row.weights.length ≤ matrix.legend.length) : matrix.Unambiguous row where
  repeated value _ place stands weighs := by
    obtain ⟨inside, rfl⟩ := List.getElem?_eq_some_iff.mp stands
    rwa [nodup.idxOf_getElem]
  behind place _ := by
    rw [Weighs, Weighs, weightAt?, weightAt?]
    cases matrix.expansion with
    | none =>
      dsimp only
      rw [List.getElem?_eq_none (by omega), List.getElem?_eq_none short]
    | some filling =>
      dsimp only
      rw [List.getD_eq_getElem?_getD, List.getD_eq_getElem?_getD, List.getElem?_eq_none (by omega),
        List.getElem?_eq_none short]

/-- In all domains with several values, those are candidates which have a positive weight once the
variable is fixed to them. -/
def Agrees (matrix : MarkovMatrix Guard) (row : MarkovRow Guard) (isTrue : Guard → Bool) : Prop :=
  ∀ domain : Domain, 2 ≤ domain.size → ∀ value ∈ domain,
    ((∃ weight, (value, weight) ∈ matrix.candidates row domain ∧ 0.0 < weight) ↔
      0.0 < matrix.weightOf value (.value value) isTrue)

/-- Agreement says the same of every domain with a choice: what is offered is what has weight once
it is chosen. -/
theorem agrees_iff_offers (active : matrix.IsActive isTrue row) : matrix.Agrees row isTrue ↔
    ∀ domain : Domain, 2 ≤ domain.size → ∀ value ∈ domain,
      (matrix.Offers row domain value ↔ 0.0 < matrix.weightIn row value (.value value)) := by
  refine forall₂_congr fun domain _ => forall₂_congr fun value inside => ?_
  rw [weightOf_eq_weightIn active]
  refine iff_congr ⟨?_, fun offered => ?_⟩ Iff.rfl
  · rintro ⟨weight, candidate, _⟩
    exact (exists_mem_candidates_iff.mp ⟨weight, candidate⟩).2
  · obtain ⟨weight, candidate⟩ := exists_mem_candidates_iff.mpr ⟨inside, offered⟩
    refine ⟨weight, candidate, ?_⟩
    simp only [candidates, List.mem_filter, Bool.and_eq_true, decide_eq_true_eq] at candidate
    exact candidate.2.1

theorem two_le_size_full : 2 ≤ Domain.full.size := by
  decide

/-- The two readings of a matrix agree just if its active row is unambiguous. -/
theorem agrees_iff (active : matrix.IsActive isTrue row) :
    matrix.Agrees row isTrue ↔ matrix.Unambiguous row := by
  rw [agrees_iff_offers active]
  constructor
  · intro agrees
    -- The full domain shows each condition: it has every value that can be listed, and it appends
    -- the most.
    refine ⟨fun value inFull place stands weighs => ?_, fun place early => ?_⟩
    · have listed := List.mem_of_getElem? stands
      rw [← weightIn_pos_iff_of_listed listed]
      exact (agrees .full two_le_size_full value inFull).mp
        ((offers_iff_of_listed listed).mpr ⟨place, stands, weighs⟩)
    · have behind := List.getElem_mem early
      have agreed := agrees .full two_le_size_full _ (mem_appended.mp behind).2.1
      rwa [offers_iff_of_appended behind, nodup_appended.idxOf_getElem,
        weightIn_value_pos_iff_of_appended behind] at agreed
  · intro unambiguous domain _ value inside
    have inFull : value ∈ Domain.full := Domain.mem_full.mpr (Domain.bounds inside)
    by_cases listed : value ∈ matrix.legend
    · rw [offers_iff_of_listed listed, weightIn_pos_iff_of_listed listed]
      exact ⟨fun ⟨place, stands, weighs⟩ => unambiguous.repeated value inFull place stands weighs,
        fun weighs => ⟨_, List.getElem?_idxOf listed, weighs⟩⟩
    · by_cases expanded : matrix.expansion.isSome
      · have behind : value ∈ matrix.appended domain := mem_appended.mpr ⟨expanded, inside, listed⟩
        have early : (matrix.appended domain).idxOf value < (matrix.appended .full).length :=
          Nat.lt_of_lt_of_le (List.idxOf_lt_length_of_mem behind)
            (length_appended_le fun other otherInside =>
              Domain.mem_full.mpr (Domain.bounds otherInside))
        rw [offers_iff_of_appended behind, weightIn_value_pos_iff_of_appended behind]
        exact unambiguous.behind _ early
      · -- Without an expansion a value that is not listed has no place at all.
        have nowhere : ∀ other : Domain, value ∉ matrix.legendFor other := by
          intro other inLegend
          rw [legendFor_eq] at inLegend
          exact (List.mem_append.mp inLegend).elim listed fun behind =>
            expanded (mem_appended.mp behind).1
        rw [offers_iff, weightIn_pos_iff]
        exact iff_of_false (fun ⟨_, stands, _⟩ => nowhere domain (List.mem_of_getElem? stands))
          fun weighed => nowhere _ weighed.1

end MarkovMatrix

/-- The propagator of a Markov variable accepts a fixed variable just if its value has a positive
weight under the guards that are known to be true. -/
theorem Propagator.markov_accepts_iff {weighted : VariableId} {matrix : MarkovMatrix VariableId}
    {state : Narrowing} {value : Int}
    (fixed : (state.domainOf weighted).solvedValue? = some value) :
    (markov weighted matrix).propagate state = .ok () state ↔
      0.0 < matrix.weightOf value (.value value) fun guard => (state.domainOf guard).isValue 1 := by
  have rejected : Narrow.restrict weighted ∅ state ≠ .ok () state := by
    have none_left : (state.domainOf weighted ∩ ∅).isEmpty := by
      rw [Domain.isEmpty_iff]
      simp [Domain.mem_inter]
    simp [Narrow.restrict, none_left]
  have isValue := Domain.eq_value_of_solvedValue? fixed
  simp only [propagate, propagateMarkov, fixed, ← isValue]
  split
  · rename_i positive
    exact iff_of_true rfl positive
  · rename_i weightless
    exact iff_of_false rejected weightless

namespace MarkovMatrix

variable {matrix : MarkovMatrix VariableId} {row : MarkovRow VariableId}
  {isTrue : VariableId → Bool}

/-- The propagator accepts a fixed variable by the weight of its value. Sampling and the propagator
agree on which values have weight just if the active row is unambiguous, as it is if it is not
longer than a legend without repetitions. -/
theorem agreement (active : matrix.IsActive isTrue row) :
    (∀ (weighted : VariableId) (state : Narrowing) (value : Int),
      (state.domainOf weighted).solvedValue? = some value →
        (∀ guard, (state.domainOf guard).isValue 1 = isTrue guard) →
          ((Propagator.markov weighted matrix).propagate state = .ok () state ↔
            0.0 < matrix.weightOf value (.value value) isTrue)) ∧
      (matrix.Agrees row isTrue ↔ matrix.Unambiguous row) ∧
        (matrix.legend.Nodup → row.weights.length ≤ matrix.legend.length →
          matrix.Agrees row isTrue) := by
  refine ⟨fun weighted state value fixed guards => ?_, agrees_iff active, fun nodup short => ?_⟩
  · rw [Propagator.markov_accepts_iff fixed, funext guards]
  · exact (agrees_iff active).mpr (.of_nodup nodup short)

/-- A row that is longer than the legend, and has a zero where the first value behind the legend is
weighed. -/
def ragged : MarkovMatrix VariableId :=
  ⟨[1], [⟨[1.0, 0.0, 2.0], none⟩], some 1.0⟩

/-- From 2 and 3 the value 3 is drawn with weight 2, but it has no weight once the variable is fixed
to it. -/
theorem agreement_ragged :
    ragged.IsActive (fun _ => false) ⟨[1.0, 0.0, 2.0], none⟩ ∧
      ragged.candidates ⟨[1.0, 0.0, 2.0], none⟩ (.range 2 3) = [(3, 2.0)] ∧
        ¬ 0.0 < ragged.weightOf 3 (.value 3) (fun _ => false) ∧
          ¬ ragged.Agrees ⟨[1.0, 0.0, 2.0], none⟩ fun _ => false := by
  have active : ragged.IsActive (fun _ => false) ⟨[1.0, 0.0, 2.0], none⟩ :=
    activeRow?_eq_some_iff.mp rfl
  refine ⟨active, by decide +kernel, by decide +kernel,
    mt (agreement active).2.1.mp fun unambiguous => ?_⟩
  have early : 1 < (ragged.appended .full).length := by
    have fewer : (ragged.appended (.range 2 3)).length ≤ (ragged.appended .full).length :=
      length_appended_le fun value inside => Domain.mem_full.mpr (Domain.bounds inside)
    exact Nat.lt_of_lt_of_le (by decide) fewer
  obtain ⟨weight, ⟨rfl⟩, positive⟩ := (unambiguous.behind 1 early).mp ⟨2.0, rfl, by decide +kernel⟩
  exact absurd positive (by decide +kernel)

end MarkovMatrix

end ConstraintSearch
