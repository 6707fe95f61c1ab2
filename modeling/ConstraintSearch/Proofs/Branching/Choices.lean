import ConstraintSearch.Model.Prepare
import ConstraintSearch.Proofs.Branching.Partition
import ConstraintSearch.Proofs.Model.Building
import ConstraintSearch.Search.Explore

/-!
# Strategies without weights

A list strategy is accepted only if its fallback draws nothing by weight and is accepted itself. So
an accepted strategy that does not draw on the outside does not draw at all. On a domain of several
values it always has two choices, which share out the values between them. What they are depends
neither on a generator nor on what has happened to the space in between.
-/

namespace ConstraintSearch

open Build

namespace ValueStrategy

/-- An accepted strategy draws by weight on the outside or not at all. -/
theorem deterministic_of_accepted {declared : ValueStrategy String} {owner : String}
    {workspace : Workspace} {strategy : ValueStrategy VariableId}
    (accepted : ((declared.resolve owner).run workspace).1 = .ok strategy)
    (plain : declared.isMarkov = false) : strategy.Deterministic := by
  induction declared generalizing strategy with
  | list values fallback inductionHypothesis =>
    rw [resolve] at accepted
    split at accepted
    · rw [run_bind] at accepted
      cases accepted
    · rename_i fallbackPlain
      rw [run_bind] at accepted
      rcases ran : (fallback.resolve owner).run workspace with ⟨refusal | resolved, rest⟩
      · rw [ran] at accepted
        cases accepted
      · rw [ran] at accepted
        obtain rfl : ValueStrategy.list values resolved = strategy := Except.ok.inj accepted
        have inner : resolved.Deterministic :=
          inductionHypothesis (by rw [ran]) (Bool.eq_false_iff.mpr fallbackPlain)
        exact inner
  | markov matrix => cases plain
  | _ =>
    cases accepted
    trivial

variable {strategy : ValueStrategy VariableId} {variableId : VariableId} {space : Space}

/-- A deterministic strategy gives the same part whatever the generator, and leaves every generator
as it is. -/
theorem Deterministic.divide_again {γ δ : Type} [Generator γ] [Generator δ]
    (deterministic : strategy.Deterministic) {choice : Nat} {generator next : γ} {part : Part}
    (divided : strategy.divide variableId space choice generator = some (part, next)) (again : δ) :
    strategy.divide variableId space choice again = some (part, again) := by
  have several := several_of_divide divided
  obtain ⟨cut, cuts⟩ := deterministic.exists_cut (space.domainOf variableId)
  rw [divide_eq_of_several several rfl, cuts] at divided ⊢
  obtain ⟨_, isPart, same⟩ := Option.map_eq_some_iff.mp divided
  cases same
  simp only [isPart, Option.map_some]

end ValueStrategy

/-- The child with the domain of one variable replaced has fewer values left than the space, before
its propagation and after. -/
structure Space.Smaller (space : Space) (variableId : VariableId) (domain : Domain) : Prop where
  child : valuesLeft (space.child variableId domain).domains < valuesLeft space.domains
  propagated : ∀ {σ : Type} {network : Network} {observer : Observer σ} {engine final : Engine σ}
    {settled : Space}, engine.propagate network observer (space.child variableId domain) =
      (.stable settled, final) → valuesLeft settled.domains < valuesLeft space.domains

theorem Space.smaller_of_size_lt {space : Space} {variableId : VariableId} {domain : Domain}
    (fewer : domain.size < (space.domainOf variableId).size) : space.Smaller variableId domain := by
  have child : valuesLeft (space.child variableId domain).domains < valuesLeft space.domains :=
    valuesLeft_set_lt fewer
  exact ⟨child, fun stable => Nat.lt_of_le_of_lt (Engine.propagate_stable stable).2 child⟩

namespace ValueStrategy

/-- Two parts are what a strategy makes of the domain of a variable in a space. The second one is
given in every later space in which the variable has the same domain and the value that the first
choice left is kept, so in particular when the search comes back to the space, of which nothing but
that value and the number of requested children has changed. -/
structure SharesOut (strategy : ValueStrategy VariableId) (variableId : VariableId) (space : Space)
    (first second : Part) : Prop where
  first_choice : ∀ {γ : Type} [Generator γ] (generator : γ),
    strategy.divide variableId space 0 generator = some (first, generator)
  second_choice : ∀ {γ : Type} [Generator γ] (generator : γ) (later : Space),
    later.domainOf variableId = space.domainOf variableId → later.lastChosen = first.lastChosen →
      strategy.divide variableId later 1 generator = some (second, generator)
  no_third_choice : ∀ {γ : Type} [Generator γ] (generator : γ) (later : Space),
    strategy.divide variableId later 2 generator = none
  first_nonempty : first.domain.Nonempty
  second_nonempty : second.domain.Nonempty
  disjoint : ∀ value ∈ first.domain, ¬ value ∈ second.domain
  union : ∀ value, value ∈ space.domainOf variableId ↔ value ∈ first.domain ∨ value ∈ second.domain
  keeps_chosen : second.lastChosen = first.lastChosen
  keeps_space : space.branched first.lastChosen =
    { space with branchCount := Nat.min (space.branchCount + 1) 2, lastChosen := first.lastChosen }
  first_smaller : space.Smaller variableId first.domain
  second_smaller : (space.branched first.lastChosen).Smaller variableId second.domain

/-- An accepted strategy that does not draw by weight shares out every domain of several values. -/
theorem exists_sharesOut {declared : ValueStrategy String} {owner : String} {workspace : Workspace}
    (accepted : ((declared.resolve owner).run workspace).1 = .ok strategy)
    (plain : declared.isMarkov = false)
    (several : 2 ≤ (space.domainOf variableId).size) :
    ∃ first second, strategy.SharesOut variableId space first second := by
  have deterministic := deterministic_of_accepted accepted plain
  obtain ⟨nonempty, unsolved⟩ := Domain.two_le_size_iff.mp several
  -- No output of the script is ever read.
  obtain ⟨first, next, divided⟩ := deterministic.exists_divide nonempty unsolved (⟨#[], 0⟩ : Script)
  obtain ⟨rest, split, again⟩ := givesRest_of_divide divided
  exact ⟨first, ⟨rest, first.lastChosen⟩, {
    first_choice := deterministic.divide_again divided
    second_choice := fun generator later sameDomain sameChosen =>
      deterministic.divide_again (again later ⟨#[], 0⟩ sameDomain sameChosen) generator
    no_third_choice :=
      fun generator later => strategy.divide_of_two_le variableId later generator (Nat.le_refl 2)
    first_nonempty := split.first_nonempty
    second_nonempty := split.second_nonempty
    disjoint := fun value inFirst inSecond => ((split.mem_second value).mp inSecond).2 inFirst
    union := split.mem_whole_iff
    keeps_chosen := rfl
    keeps_space := rfl
    first_smaller := Space.smaller_of_size_lt split.first_size_lt
    second_smaller := Space.smaller_of_size_lt split.second_size_lt }⟩

/-- One variable, whose domain has its midpoint 4 in a hole. -/
def gapped : Space :=
  { domains := ⟨#[.ofRanges [⟨1, 2⟩, ⟨6, 6⟩, ⟨8, 8⟩]]⟩, unsolved := [0] }

/-- Two lists, of which neither applies, hand the domain on to the strategy behind them. -/
theorem exists_sharesOut_gapped :
    (((list [7] (list [] splitMax)).resolve "X").run {}).1 = .ok (list [7] (list [] splitMax)) ∧
      2 ≤ (gapped.domainOf 0).size ∧ ∃ first second,
        (list [7] (list [] splitMax)).SharesOut 0 gapped first second := by
  have accepted : (((list [7] (list [] splitMax)).resolve "X").run {}).1 =
      .ok (list [7] (list [] splitMax)) := rfl
  have several : 2 ≤ (gapped.domainOf 0).size := by decide
  exact ⟨accepted, several, exists_sharesOut accepted rfl several⟩

end ValueStrategy

end ConstraintSearch
