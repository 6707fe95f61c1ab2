import ConstraintSearch.Domain.Size
import ConstraintSearch.Strategy.Markov
import Mathlib.Data.List.Perm.Subperm

/-!
# Weights of values

A Markov matrix weighs values by the row that is active. Here the active row is described by its
place among the rows, and a positive weight by the row that gives it and the places where the value
stands, in the legend or behind it.
-/

namespace ConstraintSearch

namespace MarkovMatrix

variable {Guard : Type} {matrix : MarkovMatrix Guard} {isTrue : Guard → Bool}
  {row : MarkovRow Guard} {value : Int} {domain : Domain} {place : Nat}

/-- The row is the first one without a guard or with a true guard, or the last one if there is none
of these. -/
def IsActive (matrix : MarkovMatrix Guard) (isTrue : Guard → Bool) (row : MarkovRow Guard) : Prop :=
  (∃ earlier later, matrix.rows = earlier ++ row :: later ∧
    (∀ guard, row.guard = some guard → isTrue guard) ∧
      ∀ other ∈ earlier, ∃ guard, other.guard = some guard ∧ ¬ isTrue guard) ∨
    (∀ other ∈ matrix.rows, ∃ guard, other.guard = some guard ∧ ¬ isTrue guard) ∧
      matrix.rows.getLast? = some row

/-- The weight that a row gives a value of a variable with the given domain. -/
def weightIn (matrix : MarkovMatrix Guard) (row : MarkovRow Guard) (value : Int) (domain : Domain) :
    Float :=
  let legend := matrix.legendFor domain
  ((legend.findIdx? (· == value)).bind fun place =>
    (matrix.weightsOf row legend.length)[place]?).getD 0.0

/-- The row that is found is the active one. -/
theorem activeRow?_eq_some_iff :
    matrix.activeRow? isTrue = some row ↔ matrix.IsActive isTrue row := by
  have guarded : ∀ other : MarkovRow Guard, (!other.guard.all isTrue) = true ↔
      ∃ guard, other.guard = some guard ∧ ¬ isTrue guard := by
    intro other
    cases other.guard <;> simp
  have unguarded : row.guard.all isTrue = true ↔
      ∀ guard, row.guard = some guard → isTrue guard := by
    cases row.guard <;> simp
  rw [activeRow?, Option.or_eq_some_iff, List.find?_eq_some_iff_append,
    List.find?_eq_none, IsActive]
  refine or_congr ?_ (and_congr_left fun _ => forall₂_congr fun other _ => ?_)
  · simp only [unguarded, guarded]
    constructor
    · rintro ⟨inForce, earlier, later, placed, before⟩
      exact ⟨earlier, later, placed, inForce, before⟩
    · rintro ⟨earlier, later, placed, inForce, before⟩
      exact ⟨inForce, earlier, later, placed, before⟩
  · rw [← guarded, Bool.not_eq_true', Bool.not_eq_true]

/-- It is one of the rows of the matrix. -/
theorem mem_of_activeRow? (active : matrix.activeRow? isTrue = some row) : row ∈ matrix.rows := by
  rcases Option.or_eq_some_iff.mp active with isFirst | ⟨_, isLast⟩
  · exact List.mem_of_find?_eq_some isFirst
  · exact List.mem_of_getLast? isLast

/-- A value is weighed by the active row. -/
theorem weightOf_eq_weightIn (active : matrix.IsActive isTrue row) :
    matrix.weightOf value domain isTrue = matrix.weightIn row value domain := by
  rw [weightOf, activeRow?_eq_some_iff.mpr active, weightIn]

/-- Only an active row gives weight. -/
theorem exists_isActive_of_weightOf_pos (positive : 0.0 < matrix.weightOf value domain isTrue) :
    ∃ row, matrix.IsActive isTrue row ∧ 0.0 < matrix.weightIn row value domain := by
  cases active : matrix.activeRow? isTrue with
  | none =>
    have isZero : matrix.weightOf value domain isTrue = 0.0 := by rw [weightOf, active]
    rw [isZero] at positive
    exact absurd positive (by decide +kernel)
  | some row =>
    have isActive := activeRow?_eq_some_iff.mp active
    exact ⟨row, isActive, weightOf_eq_weightIn isActive ▸ positive⟩

/-! ### Places -/

/-- The weight at a place of a row, which is filled up for as long as needed if rows are
expanded. -/
def weightAt? (matrix : MarkovMatrix Guard) (row : MarkovRow Guard) (place : Nat) : Option Float :=
  match matrix.expansion with
  | none => row.weights[place]?
  | some filling => some (row.weights.getD place filling)

/-- The row has a positive weight at the place. -/
def Weighs (matrix : MarkovMatrix Guard) (row : MarkovRow Guard) (place : Nat) : Prop :=
  ∃ weight, matrix.weightAt? row place = some weight ∧ 0.0 < weight

/-- The values that come behind the legend: if rows are expanded, those of the domain that the
legend lacks. -/
def appended (matrix : MarkovMatrix Guard) (domain : Domain) : List Int :=
  match matrix.expansion with
  | none => []
  | some _ => domain.values.filter fun value => !matrix.legend.contains value

/-- The legend for a domain is the one of the matrix and what is appended to it. -/
theorem legendFor_eq : matrix.legendFor domain = matrix.legend ++ matrix.appended domain := by
  rw [legendFor, appended]
  cases matrix.expansion with
  | none => exact (List.append_nil _).symm
  | some filling => rfl

/-- Where rows are expanded, those values of the domain are appended that the legend does not
have. -/
theorem mem_appended :
    value ∈ matrix.appended domain ↔
      matrix.expansion.isSome ∧ value ∈ domain ∧ value ∉ matrix.legend := by
  rw [appended]
  cases matrix.expansion <;> simp [Domain.mem_values]

/-- None of them is appended twice. -/
theorem nodup_appended : (matrix.appended domain).Nodup := by
  rw [appended]
  cases matrix.expansion with
  | none => exact .nil
  | some filling => exact ((Domain.pairwise_values domain).imp Int.ne_of_lt).filter _

/-- A larger domain has as many values behind the legend. -/
theorem length_appended_le {whole : Domain} (subset : ∀ value ∈ domain, value ∈ whole) :
    (matrix.appended domain).length ≤ (matrix.appended whole).length := by
  refine (List.subperm_of_subset nodup_appended fun value inside => ?_).length_le
  obtain ⟨expanded, inDomain, unlisted⟩ := mem_appended.mp inside
  exact mem_appended.mpr ⟨expanded, subset value inDomain, unlisted⟩

/-- A row is cut off or filled up to the length that is asked for. -/
theorem getElem?_weightsOf {count : Nat} (inside : place < count) :
    (matrix.weightsOf row count)[place]? = matrix.weightAt? row place := by
  rw [weightsOf, weightAt?]
  cases matrix.expansion with
  | none => rfl
  | some filling =>
    dsimp only
    rw [List.getD_eq_getElem?_getD]
    by_cases given : place < row.weights.length
    · rw [List.getElem?_append_left given, List.getElem?_eq_getElem given, Option.getD_some]
    · have behind := Nat.le_of_not_lt given
      rw [List.getElem?_append_right behind, List.getElem?_replicate, if_pos (by omega),
        List.getElem?_eq_none behind, Option.getD_none]

/-- The row has a positive weight at a place of the legend where the value stands. -/
def Offers (matrix : MarkovMatrix Guard) (row : MarkovRow Guard) (domain : Domain) (value : Int) :
    Prop :=
  ∃ (place : Nat) (weight : Float), (matrix.legendFor domain)[place]? = some value ∧
    (matrix.weightsOf row (matrix.legendFor domain).length)[place]? = some weight ∧ 0.0 < weight

/-- A value is offered if it has any place with a positive weight. -/
theorem offers_iff :
    matrix.Offers row domain value ↔
      ∃ place, (matrix.legendFor domain)[place]? = some value ∧ matrix.Weighs row place := by
  constructor
  · rintro ⟨place, weight, stands, weighs, positive⟩
    obtain ⟨inside, _⟩ := List.getElem?_eq_some_iff.mp stands
    exact ⟨place, stands, weight, getElem?_weightsOf inside ▸ weighs, positive⟩
  · rintro ⟨place, stands, weight, weighs, positive⟩
    obtain ⟨inside, _⟩ := List.getElem?_eq_some_iff.mp stands
    exact ⟨place, weight, stands, (getElem?_weightsOf inside).trans weighs, positive⟩

/-- A value has a positive weight if its first place has. -/
theorem weightIn_pos_iff : 0.0 < matrix.weightIn row value domain ↔
    value ∈ matrix.legendFor domain ∧
      matrix.Weighs row ((matrix.legendFor domain).idxOf value) := by
  have nothing : ¬ (0.0 : Float) < 0.0 := by decide +kernel
  rw [weightIn]
  by_cases listed : value ∈ matrix.legendFor domain
  · have early := List.idxOf_lt_length_of_mem listed
    have placed : (matrix.legendFor domain).findIdx? (· == value) =
        some ((matrix.legendFor domain).idxOf value) :=
      List.findIdx?_eq_some_iff_findIdx_eq.mpr ⟨early, rfl⟩
    simp only [placed, Option.bind_some, getElem?_weightsOf early, listed, true_and]
    rw [Weighs]
    cases matrix.weightAt? row ((matrix.legendFor domain).idxOf value) with
    | none => simpa using nothing
    | some weight => simp
  · have placeless : (matrix.legendFor domain).findIdx? (· == value) = none := by
      rw [List.findIdx?_eq_none_iff]
      intro other isOther
      simpa using fun same : other = value => listed (same ▸ isOther)
    simp only [placeless, Option.bind_none, Option.getD_none, listed, false_and, iff_false]
    exact nothing

/-! ### Values of the legend, and values behind it -/

section Listed

variable (listed : value ∈ matrix.legend)

include listed

/-- A listed value is offered at the places that it has in the legend. -/
theorem offers_iff_of_listed :
    matrix.Offers row domain value ↔
      ∃ place, matrix.legend[place]? = some value ∧ matrix.Weighs row place := by
  rw [offers_iff, legendFor_eq]
  refine exists_congr fun place => and_congr_left fun _ => ?_
  by_cases given : place < matrix.legend.length
  · rw [List.getElem?_append_left given]
  · have behind := Nat.le_of_not_lt given
    rw [List.getElem?_append_right behind, List.getElem?_eq_none behind]
    refine iff_of_false (fun stands => ?_) (Option.some_ne_none value).symm
    exact (mem_appended.mp (List.mem_of_getElem? stands)).2.2 listed

/-- It has the weight of the first of these places. -/
theorem weightIn_pos_iff_of_listed :
    0.0 < matrix.weightIn row value domain ↔ matrix.Weighs row (matrix.legend.idxOf value) := by
  rw [weightIn_pos_iff, legendFor_eq, List.idxOf_append_of_mem listed]
  exact and_iff_right (List.mem_append_left _ listed)

end Listed

/-- An appended value has one place, behind the legend. -/
theorem getElem?_legendFor_appended (behind : value ∈ matrix.appended domain) :
    (matrix.legendFor domain)[place]? = some value ↔
      place = matrix.legend.length + (matrix.appended domain).idxOf value := by
  have unlisted := (mem_appended.mp behind).2.2
  rw [legendFor_eq]
  constructor
  · intro stands
    have late : matrix.legend.length ≤ place := by
      refine Nat.le_of_not_lt fun early => unlisted ?_
      rw [List.getElem?_append_left early] at stands
      exact List.mem_of_getElem? stands
    rw [List.getElem?_append_right late] at stands
    obtain ⟨inside, isValue⟩ := List.getElem?_eq_some_iff.mp stands
    have := nodup_appended.idxOf_getElem _ inside
    rw [isValue] at this
    omega
  · rintro rfl
    rw [List.getElem?_append_right (Nat.le_add_right _ _), Nat.add_sub_cancel_left,
      List.getElem?_idxOf behind]

/-- It is offered at that place only. -/
theorem offers_iff_of_appended (behind : value ∈ matrix.appended domain) :
    matrix.Offers row domain value ↔
      matrix.Weighs row (matrix.legend.length + (matrix.appended domain).idxOf value) := by
  rw [offers_iff]
  simp only [getElem?_legendFor_appended behind, exists_eq_left]

/-- A fixed value that the legend lacks has the first place behind it. -/
theorem weightIn_value_pos_iff_of_appended (behind : value ∈ matrix.appended domain) :
    0.0 < matrix.weightIn row value (.value value) ↔ matrix.Weighs row matrix.legend.length := by
  obtain ⟨expanded, inside, unlisted⟩ := mem_appended.mp behind
  have alone : value ∈ matrix.appended (.value value) :=
    mem_appended.mpr ⟨expanded, Domain.mem_value.mpr ⟨rfl, Domain.bounds inside⟩, unlisted⟩
  have first : (matrix.appended (.value value)).idxOf value = 0 := by
    rw [List.idxOf_eq_zero_iff_head_eq (List.ne_nil_of_mem alone)]
    exact (Domain.mem_value.mp (mem_appended.mp (List.head_mem _)).2.1).1
  rw [weightIn_pos_iff, legendFor_eq, List.idxOf_append_of_notMem unlisted, first]
  exact and_iff_right (List.mem_append_right _ alone)

/-! ### Candidates -/

/-- The candidates are the values of the domain that the row offers. -/
theorem exists_mem_candidates_iff :
    (∃ weight, (value, weight) ∈ matrix.candidates row domain) ↔
      value ∈ domain ∧ matrix.Offers row domain value := by
  simp only [candidates, List.mem_filter, Bool.and_eq_true, decide_eq_true_eq]
  constructor
  · rintro ⟨weight, zipped, positive, inside⟩
    obtain ⟨place, found⟩ := List.mem_iff_getElem?.mp zipped
    obtain ⟨stands, weighs⟩ := List.getElem?_zip_eq_some.mp found
    exact ⟨inside, place, weight, stands, weighs, positive⟩
  · rintro ⟨inside, place, weight, stands, weighs, positive⟩
    exact ⟨weight, List.mem_of_getElem? (List.getElem?_zip_eq_some.mpr ⟨stands, weighs⟩),
      positive, inside⟩

/-- There are no candidates if no value of the domain is offered. -/
theorem candidates_eq_nil_iff :
    matrix.candidates row domain = [] ↔ ∀ value ∈ domain, ¬ matrix.Offers row domain value := by
  rw [List.eq_nil_iff_forall_not_mem]
  constructor
  · intro none value inside offered
    obtain ⟨weight, candidate⟩ := exists_mem_candidates_iff.mpr ⟨inside, offered⟩
    exact none _ candidate
  · rintro none ⟨value, weight⟩ candidate
    obtain ⟨inside, offered⟩ := exists_mem_candidates_iff.mp ⟨weight, candidate⟩
    exact none value inside offered

/-- If a value has a positive weight once the variable is fixed to it, there are candidates in every
domain that has it. -/
theorem candidates_ne_nil (inside : value ∈ domain)
    (positive : 0.0 < matrix.weightIn row value (.value value)) :
    matrix.candidates row domain ≠ [] := by
  rw [ne_eq, candidates_eq_nil_iff]
  intro unoffered
  by_cases listed : value ∈ matrix.legend
  · have weighs := (weightIn_pos_iff_of_listed listed).mp positive
    exact unoffered value inside ((offers_iff_of_listed listed).mpr
      ⟨_, List.getElem?_idxOf listed, weighs⟩)
  · -- The first value behind the legend has the place which the fixed value has.
    have alone := (weightIn_pos_iff.mp positive).1
    rw [legendFor_eq] at alone
    have expanded := (mem_appended.mp ((List.mem_append.mp alone).resolve_left listed)).1
    have behind : value ∈ matrix.appended domain := mem_appended.mpr ⟨expanded, inside, listed⟩
    have weighs := (weightIn_value_pos_iff_of_appended behind).mp positive
    have firstBehind := List.head_mem (List.ne_nil_of_mem behind)
    refine unoffered _ (mem_appended.mp firstBehind).2.1
      ((offers_iff_of_appended firstBehind).mpr ?_)
    rwa [(List.idxOf_eq_zero_iff_head_eq (List.ne_nil_of_mem behind)).mpr rfl]

end MarkovMatrix

end ConstraintSearch
