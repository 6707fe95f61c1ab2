import ConstraintSearch.Branching.Division
import ConstraintSearch.Proofs.Network.Built
import Mathlib.Data.List.Perm.Subperm

/-!
# Divisions that lose no value

The two choices of a value strategy split a domain: every value is in exactly one of the two parts,
and neither part is empty. The second choice depends on nothing but the domain and the value by
which the first one divided it.
-/

namespace ConstraintSearch

namespace Domain

/-- Every value of the whole is in exactly one of the parts, and there is one in each. -/
structure Split (whole first second : Domain) : Prop where
  subset : first ⊆ whole
  mem_second : ∀ value, value ∈ second ↔ value ∈ whole ∧ ¬ value ∈ first
  first_nonempty : first.Nonempty
  second_nonempty : second.Nonempty

namespace Split

variable {whole first second : Domain}

/-- The second part is a part of the whole. -/
theorem second_subset (split : whole.Split first second) : second ⊆ whole :=
  fun value member => ((split.mem_second value).mp member).1

/-- Each value of the whole is in one of the parts. -/
theorem mem_whole_iff (split : whole.Split first second) (value : Int) :
    value ∈ whole ↔ value ∈ first ∨ value ∈ second := by
  rw [split.mem_second]
  by_cases inFirst : value ∈ first
  · exact iff_of_true (split.subset value inFirst) (.inl inFirst)
  · simp [inFirst]

/-- The first part is smaller than the whole. -/
theorem first_size_lt (split : whole.Split first second) : first.size < whole.size := by
  apply size_lt_of_subset_of_ne split.subset
  intro same
  obtain ⟨value, member⟩ := split.second_nonempty
  obtain ⟨inWhole, outside⟩ := (split.mem_second value).mp member
  exact outside (same ▸ inWhole)

/-- The second part is smaller than the whole. -/
theorem second_size_lt (split : whole.Split first second) : second.size < whole.size := by
  apply size_lt_of_subset_of_ne split.second_subset
  intro same
  obtain ⟨value, member⟩ := split.first_nonempty
  exact ((split.mem_second value).mp (same ▸ split.subset value member)).2 member

end Split

/-- A domain has several values just if it is neither empty nor down to one value. -/
theorem two_le_size_iff {domain : Domain} :
    2 ≤ domain.size ↔ domain.Nonempty ∧ ¬ domain.isSolved := by
  rw [← length_values]
  constructor
  · intro several
    match listed : domain.values with
    | [] | [_] => simp [listed] at several
    | smallest :: second :: rest =>
      have smaller : smallest < second := by
        have ordered := domain.pairwise_values
        rw [listed] at ordered
        exact List.rel_of_pairwise_cons ordered List.mem_cons_self
      refine ⟨⟨smallest, mem_values.mp (listed ▸ List.mem_cons_self)⟩, fun solved => ?_⟩
      obtain ⟨only, isOnly⟩ := isSolved_iff.mp solved
      have same := solvedValue?_eq_some_iff.mp isOnly
      have isFirst := (same smallest).mp (mem_values.mp (listed ▸ List.mem_cons_self))
      have isSecond := (same second).mp (mem_values.mp (listed ▸ by simp))
      omega
  · rintro ⟨⟨value, member⟩, unsolved⟩
    obtain ⟨other, otherMember, different⟩ := exists_ne_of_not_isSolved member unsolved
    have pair : [value, other].Nodup := by simpa using different.symm
    refine (List.subperm_of_subset pair ?_).length_le
    simp [mem_values, member, otherMember]

section Unsolved

variable {domain : Domain} (unsolved : ¬ domain.isSolved)

include unsolved

/-- A value of a domain and the rest of it split the domain, unless it is the only one. -/
theorem split_pick {picked : Int} (member : picked ∈ domain) :
    domain.Split (.value picked) (domain.removeValue picked) where
  subset value inside := by
    rw [(mem_value.mp inside).1]
    exact member
  mem_second value := by
    rw [mem_removeValue, mem_value]
    refine and_congr_right fun inside => not_congr ⟨fun same => ?_, And.left⟩
    have inBounds := bounds member
    exact ⟨same, same ▸ inBounds⟩
  first_nonempty := ⟨picked, mem_value.mpr ⟨rfl, bounds member⟩⟩
  second_nonempty := by
    obtain ⟨other, inside, different⟩ := exists_ne_of_not_isSolved member unsolved
    exact ⟨other, mem_removeValue.mpr ⟨inside, different⟩⟩

/-- The values up to the midpoint and those above it split the domain, in either order. -/
theorem split_halves {middle : Int} (isMiddle : domain.midpoint? = some middle) :
    domain.Split (domain.removeAbove middle) (domain.removeBelow (middle + 1)) ∧
      domain.Split (domain.removeBelow (middle + 1)) (domain.removeAbove middle) := by
  rw [midpoint?] at isMiddle
  split at isMiddle
  · rename_i smallest greatest isSmallest isGreatest
    cases isMiddle
    obtain ⟨smallestInside, least⟩ := min?_eq_some_iff.mp isSmallest
    obtain ⟨greatestInside, most⟩ := max?_eq_some_iff.mp isGreatest
    obtain ⟨other, otherInside, different⟩ := exists_ne_of_not_isSolved smallestInside unsolved
    have proper : smallest < greatest := by
      have := least other otherInside
      have := most other otherInside
      omega
    have lower : (domain.removeAbove (smallest + (greatest - smallest) / 2)).Nonempty :=
      ⟨smallest, mem_removeAbove.mpr ⟨smallestInside, by omega⟩⟩
    have upper : (domain.removeBelow (smallest + (greatest - smallest) / 2 + 1)).Nonempty :=
      ⟨greatest, mem_removeBelow.mpr ⟨greatestInside, by omega⟩⟩
    refine ⟨⟨inter_subset_left _ _, fun value => ?_, lower, upper⟩,
      ⟨inter_subset_left _ _, fun value => ?_, upper, lower⟩⟩
    · rw [mem_removeBelow, mem_removeAbove]
      apply and_congr_right
      intro inside
      simp only [inside, true_and]
      omega
    · rw [mem_removeBelow, mem_removeAbove]
      apply and_congr_right
      intro inside
      simp only [inside, true_and]
      omega
  · cases isMiddle

end Unsolved

/-! ### Picked values -/

/-- The middle value is a value of the domain. -/
theorem mem_of_middle? {domain : Domain} {middle : Int} (isMiddle : domain.middle? = some middle) :
    middle ∈ domain := by
  rw [middle?_eq_getElem?] at isMiddle
  exact mem_values.mp (List.mem_of_getElem? isMiddle)

/-- A domain with values has a middle one. -/
theorem Nonempty.exists_middle? {domain : Domain} (nonempty : domain.Nonempty) :
    ∃ middle, domain.middle? = some middle := by
  obtain ⟨value, member⟩ := nonempty
  have positive := List.length_pos_of_mem (mem_values.mpr member)
  rw [middle?_eq_getElem?, ← length_values]
  exact ⟨_, List.getElem?_eq_getElem (by omega)⟩

/-- The first listed value that is found is one of the domain. -/
theorem mem_of_firstMember? {domain : Domain} {listed : List Int} {value : Int}
    (found : domain.firstMember? listed = some value) : value ∈ domain := by
  rw [firstMember?_eq_find?] at found
  simpa using List.find?_some found

/-! ### Cuts -/

/-- A way to cut a domain: the part for a choice, given the value by which the first choice cut. -/
abbrev Cut :=
  (lastChosen : Option Int) → (choice : Nat) → Option Part

/-- Given the value by which it cut the domain, the cut gives the other part as the second
choice. -/
def Shares (whole : Domain) (cut : Cut) : Prop :=
  ∀ lastChosen first, cut lastChosen 0 = some first →
    ∃ rest, whole.Split first.domain rest ∧ cut first.lastChosen 1 = some ⟨rest, first.lastChosen⟩

section Cuts

variable {domain : Domain} (unsolved : ¬ domain.isSolved)

include unsolved

/-- Taking a value and then removing it shares the domain. -/
theorem shares_pickThenRemove {picked : Option Int}
    (member : ∀ value, picked = some value → value ∈ domain) :
    domain.Shares (domain.pickThenRemove picked) := by
  intro lastChosen first isFirst
  obtain ⟨value, isPicked, rfl⟩ := Option.map_eq_some_iff.mp isFirst
  exact ⟨_, split_pick unsolved (member value isPicked), rfl⟩

/-- So does taking the lower half first. -/
theorem shares_lowerHalfFirst : domain.Shares domain.lowerHalfFirst := by
  intro lastChosen first isFirst
  obtain ⟨middle, isMiddle, rfl⟩ := Option.map_eq_some_iff.mp isFirst
  exact ⟨_, (split_halves unsolved isMiddle).1, rfl⟩

/-- So does taking the upper half first. -/
theorem shares_upperHalfFirst : domain.Shares domain.upperHalfFirst := by
  intro lastChosen first isFirst
  obtain ⟨middle, isMiddle, rfl⟩ := Option.map_eq_some_iff.mp isFirst
  exact ⟨_, (split_halves unsolved isMiddle).2, rfl⟩

end Cuts

end Domain

/-! ### Strategies -/

variable {γ : Type} [Generator γ]

/-- A strategy that has divided a domain gives the other part next, as long as the value by which it
divided is kept. -/
def ValueStrategy.GivesRest (γ : Type) [Generator γ] (strategy : ValueStrategy VariableId)
    (variableId : VariableId) (whole : Domain) (first : Part) : Prop :=
  ∃ rest, whole.Split first.domain rest ∧
    ∀ (later : Space) (generator : γ), later.domainOf variableId = whole →
    later.lastChosen = first.lastChosen →
      strategy.divide variableId later 1 generator = some (⟨rest, first.lastChosen⟩, generator)

namespace ValueStrategy

variable {variableId : VariableId} {space : Space}

/-- Only domains with several values are divided. -/
theorem several_of_divide {strategy : ValueStrategy VariableId} {choice : Nat} {generator next : γ}
    {part : Part} (divided : strategy.divide variableId space choice generator =
      some (part, next)) :
    2 ≤ (space.domainOf variableId).size := by
  have counted : ((space.domainOf variableId).isEmpty || (space.domainOf variableId).isSolved) =
      false := by
    cases single : (space.domainOf variableId).isEmpty || (space.domainOf variableId).isSolved with
    | false => rfl
    | true => cases strategy <;> simp [divide, single] at divided
  obtain ⟨nonempty, unsolved⟩ := Bool.or_eq_false_iff.mp counted
  exact Domain.two_le_size_iff.mpr
    ⟨Domain.isEmpty_eq_false_iff.mp nonempty, Bool.eq_false_iff.mp unsolved⟩

/-- A fixed variable is never divided. -/
theorem not_isSolved_of_divide {strategy : ValueStrategy VariableId} {choice : Nat}
    {generator next : γ} {part : Part}
    (divided : strategy.divide variableId space choice generator = some (part, next)) :
    ¬ (space.domainOf variableId).isSolved :=
  (Domain.two_le_size_iff.mp (several_of_divide divided)).2

/-- What a strategy does with a domain of several values: it cuts it in a way that nothing but the
domain and the variable decide, or it draws by the weights of a matrix. -/
def manner (variableId : VariableId) (whole : Domain) :
    ValueStrategy VariableId → Domain.Cut ⊕ MarkovMatrix VariableId
  | .min => .inl (whole.pickThenRemove whole.min?)
  | .max => .inl (whole.pickThenRemove whole.max?)
  | .mid => .inl (whole.pickThenRemove whole.middle?)
  | .splitMin => .inl whole.lowerHalfFirst
  | .splitMax => .inl whole.upperHalfFirst
  | .minMaxCycle =>
    .inl (whole.pickThenRemove (if variableId % 2 = 0 then whole.min? else whole.max?))
  | .list values fallback =>
    match whole.firstMember? values with
    | some value => .inl (whole.pickThenRemove (some value))
    | none => fallback.manner variableId whole
  | .markov matrix => .inr matrix

/-- A strategy that cuts reads nothing of the space but the domain and the last chosen value. -/
theorem divide_eq_of_several {strategy : ValueStrategy VariableId} {whole : Domain}
    (several : 2 ≤ whole.size) (sameDomain : space.domainOf variableId = whole) (choice : Nat)
    (generator : γ) :
    strategy.divide variableId space choice generator =
      match strategy.manner variableId whole with
      | .inl cut => (cut space.lastChosen choice).map (·, generator)
      | .inr matrix => matrix.divide whole space choice generator := by
  obtain ⟨nonempty, unsolved⟩ := Domain.two_le_size_iff.mp several
  have counted : (whole.isEmpty || whole.isSolved) = false :=
    Bool.or_eq_false_iff.mpr
      ⟨Domain.isEmpty_eq_false_iff.mpr nonempty, Bool.eq_false_iff.mpr unsolved⟩
  induction strategy with
  | list values fallback inductionHypothesis =>
    simp only [divide, sameDomain, counted, Bool.false_eq_true, if_false, manner]
    cases whole.firstMember? values with
    | none => exact inductionHypothesis
    | some value => rfl
  | _ => simp only [divide, sameDomain, counted, Bool.false_eq_true, if_false, manner]

/-- Every cut that a strategy makes gives the rest as its second choice. -/
theorem shares_of_manner {strategy : ValueStrategy VariableId} {whole : Domain}
    (unsolved : ¬ whole.isSolved) {cut : Domain.Cut}
    (cuts : strategy.manner variableId whole = .inl cut) : whole.Shares cut := by
  have minInside : ∀ value, whole.min? = some value → value ∈ whole :=
    fun value isMin => (Domain.min?_eq_some_iff.mp isMin).1
  have maxInside : ∀ value, whole.max? = some value → value ∈ whole :=
    fun value isMax => (Domain.max?_eq_some_iff.mp isMax).1
  induction strategy with
  | min =>
    cases cuts
    exact Domain.shares_pickThenRemove unsolved minInside
  | max =>
    cases cuts
    exact Domain.shares_pickThenRemove unsolved maxInside
  | mid =>
    cases cuts
    exact Domain.shares_pickThenRemove unsolved fun _ => Domain.mem_of_middle?
  | splitMin =>
    cases cuts
    exact Domain.shares_lowerHalfFirst unsolved
  | splitMax =>
    cases cuts
    exact Domain.shares_upperHalfFirst unsolved
  | minMaxCycle =>
    cases cuts
    refine Domain.shares_pickThenRemove unsolved fun value picked => ?_
    split at picked
    · exact minInside value picked
    · exact maxInside value picked
  | list values fallback inductionHypothesis =>
    rw [manner] at cuts
    split at cuts
    · rename_i value found
      cases cuts
      refine Domain.shares_pickThenRemove unsolved fun _ same => ?_
      exact Option.some.inj same ▸ Domain.mem_of_firstMember? found
    · exact inductionHypothesis cuts
  | markov matrix => cases cuts

/-- A drawn value is one of the domain. -/
theorem rest_of_markov {whole : Domain} (unsolved : ¬ whole.isSolved) {first : Part}
    {generator next : γ} {matrix : MarkovMatrix VariableId}
    (divided : matrix.divide whole space 0 generator = some (first, next)) :
    ∃ rest, whole.Split first.domain rest ∧
      ∀ (later : Space) (again : γ), later.lastChosen = first.lastChosen →
      matrix.divide whole later 1 again = some (⟨rest, first.lastChosen⟩, again) := by
  simp only [MarkovMatrix.divide, Option.bind_eq_bind, Option.bind_eq_some_iff] at divided
  obtain ⟨row, _, ⟨index, drawn⟩, _, ⟨value, weight⟩, isCandidate, same⟩ := divided
  cases same
  have candidate := List.mem_of_getElem? isCandidate
  simp only [MarkovMatrix.candidates, List.mem_filter, Bool.and_eq_true,
    decide_eq_true_eq] at candidate
  refine ⟨_, Domain.split_pick unsolved candidate.2.2, fun later again sameChosen => ?_⟩
  simp only [MarkovMatrix.divide, sameChosen, Option.map_some]

/-- Whatever the strategy, what it gives first is one part of a split whose other part comes
next. -/
theorem givesRest_of_divide {strategy : ValueStrategy VariableId} {generator next : γ}
    {first : Part} (divided : strategy.divide variableId space 0 generator = some (first, next)) :
    strategy.GivesRest γ variableId (space.domainOf variableId) first := by
  have several := several_of_divide divided
  have unsolved := not_isSolved_of_divide divided
  rw [divide_eq_of_several several rfl] at divided
  cases cuts : strategy.manner variableId (space.domainOf variableId) with
  | inl cut =>
    rw [cuts] at divided
    obtain ⟨part, isFirst, same⟩ := Option.map_eq_some_iff.mp divided
    cases same
    obtain ⟨rest, split, isRest⟩ := shares_of_manner unsolved cuts space.lastChosen first isFirst
    refine ⟨rest, split, fun later again sameDomain sameChosen => ?_⟩
    rw [divide_eq_of_several several sameDomain, cuts, sameChosen]
    simp only [isRest, Option.map_some]
  | inr matrix =>
    rw [cuts] at divided
    obtain ⟨rest, split, isRest⟩ := rest_of_markov unsolved divided
    refine ⟨rest, split, fun later again sameDomain sameChosen => ?_⟩
    rw [divide_eq_of_several several sameDomain, cuts]
    exact isRest later again sameChosen

/-! ### Parts that are smaller -/

/-- A deterministic strategy cuts, since it has no matrix to draw by. -/
theorem Deterministic.exists_cut {strategy : ValueStrategy VariableId}
    (deterministic : strategy.Deterministic) (whole : Domain) :
    ∃ cut, strategy.manner variableId whole = .inl cut := by
  induction strategy with
  | list values fallback inductionHypothesis =>
    rw [manner]
    split
    · exact ⟨_, rfl⟩
    · exact inductionHypothesis deterministic
  | markov matrix => cases deterministic
  | _ => exact ⟨_, rfl⟩

/-- Every cut that a strategy makes has a first part if the domain has a value. -/
theorem exists_first_of_manner {strategy : ValueStrategy VariableId} {whole : Domain}
    (nonempty : whole.Nonempty) {cut : Domain.Cut}
    (cuts : strategy.manner variableId whole = .inl cut) (lastChosen : Option Int) :
    ∃ first, cut lastChosen 0 = some first := by
  have picks : ∀ {pick : Option Int}, (∃ value, pick = some value) →
      ∃ first, whole.pickThenRemove pick lastChosen 0 = some first := by
    rintro _ ⟨value, rfl⟩
    exact ⟨_, rfl⟩
  obtain ⟨smallest, isSmallest⟩ := nonempty.exists_min?
  obtain ⟨greatest, isGreatest⟩ := nonempty.exists_max?
  induction strategy with
  | min =>
    cases cuts
    exact picks ⟨smallest, isSmallest⟩
  | max =>
    cases cuts
    exact picks ⟨greatest, isGreatest⟩
  | mid =>
    cases cuts
    exact picks nonempty.exists_middle?
  | splitMin =>
    cases cuts
    simp [Domain.lowerHalfFirst, Domain.midpoint?, isSmallest, isGreatest]
  | splitMax =>
    cases cuts
    simp [Domain.upperHalfFirst, Domain.midpoint?, isSmallest, isGreatest]
  | minMaxCycle =>
    cases cuts
    refine picks ?_
    split
    · exact ⟨smallest, isSmallest⟩
    · exact ⟨greatest, isGreatest⟩
  | list values fallback inductionHypothesis =>
    rw [manner] at cuts
    split at cuts
    · rename_i value found
      cases cuts
      exact picks ⟨value, rfl⟩
    · exact inductionHypothesis cuts
  | markov matrix => cases cuts

/-- A deterministic strategy divides every domain with several values. -/
theorem Deterministic.exists_divide {strategy : ValueStrategy VariableId}
    (deterministic : strategy.Deterministic) (nonempty : (space.domainOf variableId).Nonempty)
    (unsolved : ¬ (space.domainOf variableId).isSolved) (generator : γ) :
    ∃ part next, strategy.divide variableId space 0 generator = some (part, next) := by
  have several := Domain.two_le_size_iff.mpr ⟨nonempty, unsolved⟩
  obtain ⟨cut, cuts⟩ := deterministic.exists_cut (space.domainOf variableId)
  obtain ⟨first, isFirst⟩ := exists_first_of_manner nonempty cuts space.lastChosen
  refine ⟨first, generator, ?_⟩
  rw [divide_eq_of_several several rfl, cuts]
  simp only [isFirst, Option.map_some]

/-- The part that is asked for as a smaller one is the part of the division. -/
theorem divide_of_divide? {strategy : ValueStrategy VariableId} {choice : Nat} {generator next : γ}
    {part : SmallerPart space variableId}
    (divided : strategy.divide? variableId space choice generator = some (part, next)) :
    strategy.divide variableId space choice generator = some (part.toPart, next) := by
  rw [divide?] at divided
  split at divided
  · cases divided
  · rename_i first generator found
    split at divided
    · cases divided
      exact found
    · cases divided

/-- The check that a part is smaller passes for a part that is. -/
theorem divide?_of_divide {strategy : ValueStrategy VariableId} {choice : Nat} {generator next : γ}
    {part : Part} (divided : strategy.divide variableId space choice generator = some (part, next))
    (smaller : part.domain.size < (space.domainOf variableId).size) :
    strategy.divide? variableId space choice generator = some ({ part with smaller }, next) := by
  simp only [divide?, divided, smaller, dif_pos]

/-- A deterministic strategy makes a smaller part of any domain of several values. -/
theorem Deterministic.exists_divide? {strategy : ValueStrategy VariableId}
    (deterministic : strategy.Deterministic) (nonempty : (space.domainOf variableId).Nonempty)
    (unsolved : ¬ (space.domainOf variableId).isSolved) (generator : γ) :
    ∃ part next, strategy.divide? variableId space 0 generator = some (part, next) := by
  obtain ⟨part, next, divided⟩ := deterministic.exists_divide nonempty unsolved generator
  obtain ⟨rest, split, _⟩ := givesRest_of_divide divided
  exact ⟨_, next, divide?_of_divide divided split.first_size_lt⟩

/-- What is left as the second choice is a smaller part, and takes no draw. -/
theorem GivesRest.exists_divide? {strategy : ValueStrategy VariableId} {whole : Domain}
    {first : Part} (givesRest : strategy.GivesRest γ variableId whole first) {later : Space}
    (sameDomain : later.domainOf variableId = whole)
    (sameChosen : later.lastChosen = first.lastChosen) :
    ∃ rest : SmallerPart later variableId, whole.Split first.domain rest.domain ∧
      ∀ generator : γ, strategy.divide? variableId later 1 generator = some (rest, generator) := by
  obtain ⟨rest, split, divides⟩ := givesRest
  have smaller : rest.size < (later.domainOf variableId).size := by
    rw [sameDomain]
    exact split.second_size_lt
  refine ⟨{ domain := rest, lastChosen := first.lastChosen, smaller }, split, fun generator => ?_⟩
  exact divide?_of_divide (divides later generator sameDomain sameChosen) smaller

end ValueStrategy

end ConstraintSearch
