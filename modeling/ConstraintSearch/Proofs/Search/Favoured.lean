import ConstraintSearch.Proofs.Search.Regions

/-!
# Complete searches with weights

Without an observer no two reported spaces share an assignment, and an assignment that satisfies the
network is in one of them if the weights favour it. Without the latter it can be lost: a value that
the row for the known guards gives no weight is discarded for good, although a guard that is still
open may make a row active that gives it some.
-/

namespace ConstraintSearch

namespace Network

variable {γ : Type} [Generator γ] {network : Network} {model : Model}

/-- Every variable of the space is fixed to the value of the assignment. -/
def Fixes (network : Network) (space : Space) (assignment : VariableId → Int) : Prop :=
  ∀ variableId < network.vars.size, (space.domainOf variableId).solvedValue? =
    some (assignment variableId)

/-- No assignment is both in the next child of a frame and awaited after it. -/
theorem separates_ne (built : network.BuiltFor model) : network.Separates γ (· ≠ ·) := by
  rintro top variableId part frame _ branches earlier later contains awaits rfl
  exact (frame.awaits_iff built branches).2 ⟨contains, awaits⟩

end Network

/-- **Completeness with weights.** Without an observer, a search of a prepared model all of whose
variables are targeted comes to its end, whichever values are drawn. No assignment is then reported
twice, and every assignment that satisfies the network and is favoured by the weights is reported
exactly once. -/
theorem Workspace.Reachable.exists_unique_report_of_favours {workspace : Workspace}
    {network : Network} (reachable : workspace.Reachable)
    (prepared : workspace.model.network = some network) (all : workspace.model.targets = .all)
    {γ : Type} [Generator γ] (generator : γ) (journal : Journal) :
    (∃ spaces, (Search.initial network generator () journal).Reports network .silent spaces) ∧
      ∀ spaces, (Search.initial network generator () journal).Reports network .silent spaces →
        (∀ space ∈ spaces, ∃ assignment, network.Fixes space assignment) ∧
          (spaces.Pairwise fun first second => ∀ assignment, network.Fixes first assignment →
            ¬ network.Fixes second assignment) ∧ ∀ assignment, network.Satisfied assignment →
              network.Favours assignment → ∃! index : Nat, ∃ space,
                spaces[index]? = some space ∧ network.Fixes space assignment := by
  have built := reachable.builtFor prepared
  have faithful := Changes.faithful_forVariables network.vars.size
  have sound : (Search.initial network generator () journal).position.Sound γ network :=
    ⟨faithful, fun _ inside => by cases inside⟩
  constructor
  · obtain ⟨bound, proceeds⟩ :=
      @Search.exists_proceeds_start γ _ network generator (.initial network () journal)
    exact @Search.exists_reports γ _ network (.initial network generator () journal) bound proceeds
  · intro spaces reports
    -- All variables are targeted, so a reported space contains only the assignment that it fixes.
    have fixed : ∀ space ∈ spaces, ∀ assignment, network.Contains space assignment ↔
        network.Fixes space assignment :=
      fun space inside assignment =>
        (reports.solves built sound space inside).contains_iff_fixed built (built.targeted_all all)
    refine ⟨fun space inside => ?_, ?_, fun assignment satisfied favours => ?_⟩
    · have contains := (reports.solves built sound space inside).contains_leastPoint
      exact ⟨_, (fixed space inside _).mp contains⟩
    · have apart := reports.apart_of_initial built (Network.separates_ne built)
      refine apart.imp_of_mem fun firstInside secondInside differ assignment first second => ?_
      exact differ assignment assignment ((fixed _ firstInside _).mpr first)
        ((fixed _ secondInside _).mpr second) rfl
    · have one := reports.containing_eq built favours satisfied sound
        (Search.accounts_start built favours satisfied faithful)
      refine (existsUnique_congr fun index => exists_congr fun space => ?_).mp
        (Search.exists_unique_of_containing_eq_one one)
      exact and_congr_right fun found => fixed space (List.mem_of_getElem? found) assignment

/-! ### A guard that becomes fixed late -/

/-- A variable from 1 to 2 which is weighed by a boolean that is declared after it: 1 where the
boolean is true, 2 elsewhere. -/
def Workspace.weighedEarly : Workspace :=
  .ofRequests
    [.declareRange "X" 1 2, .declareRange "B" 0 1,
      .divideVariableBy "X" (.markov ⟨[1, 2], [⟨[1.0, 0.0], some "B"⟩, ⟨[0.0, 1.0], none⟩], none⟩),
      .prepare]

/-- The variable and its guard can be prepared. -/
theorem Workspace.isPrepared_weighedEarly : weighedEarly.model.isPrepared := by
  decide +kernel

namespace Network

/-- The network of the variable that is weighed by a later boolean. -/
def weighedEarly : Network :=
  Workspace.weighedEarly.model.network.get Workspace.isPrepared_weighedEarly

/-- The matrix of the variable, guarded by the boolean. -/
def weightsByGuard : MarkovMatrix VariableId :=
  ⟨[1, 2], [⟨[1.0, 0.0], some 1⟩, ⟨[0.0, 1.0], none⟩], none⟩

/-- Every assignment with weighed values satisfies the network, which has no other propagator. -/
theorem satisfied_weighedEarly {assignment : VariableId → Int}
    (admits : ∀ variableId < weighedEarly.vars.size,
      assignment variableId ∈ weighedEarly.vars.domainOf variableId)
    (weighs : 0.0 < weightsByGuard.weightOf (assignment 0) (.value (assignment 0)) fun guard =>
      assignment guard == 1) :
    weighedEarly.Satisfied assignment := by
  have only : weighedEarly.propagators.toList = [.markov 0 weightsByGuard] := rfl
  refine ⟨admits, ?_⟩
  rw [only]
  exact List.forall_mem_singleton.mpr weighs

/-- The network favours the assignment of 2 and 0. -/
theorem favours_weighedEarly : weighedEarly.Favours ([2, 0].getD · 0) := by
  intro weighted matrix isStrategy known isTrue
  have inside : (1 : Nat) < weighedEarly.vars.size := by decide +kernel
  have unknown : known 1 = false :=
    Bool.eq_false_iff.mpr fun isKnown => absurd (isTrue 1 inside isKnown) (by decide)
  match weighted with
  | 0 =>
    have own : weighedEarly.strategyOf 0 = .markov weightsByGuard := rfl
    cases own.symm.trans isStrategy
    have same : ∀ guard ∈ weightsByGuard.rows.filterMap MarkovRow.guard,
        known guard = (fun _ => false) guard :=
      List.forall_mem_singleton.mpr unknown
    rw [Propagator.weightOf_congr same]
    decide +kernel
  | 1 => cases isStrategy
  | variableId + 2 => cases isStrategy

/-- Only 2 is ever reported for the variable. -/
theorem reports_weighedEarly {spaces : List Space}
    (reports : (Search.initial weighedEarly (⟨#[], 0⟩ : Script) () {}).Reports weighedEarly
      .silent spaces) :
    ∀ space ∈ spaces, (space.domainOf 0).solvedValue? = some 2 := by
  have first : ((Search.initial weighedEarly (⟨#[], 0⟩ : Script) () {}).next weighedEarly
      .silent).1.space?.map (fun space => (space.domainOf 0).solvedValue?) = some (some 2) := by
    decide +kernel
  have second : ((Search.initial weighedEarly (⟨#[], 0⟩ : Script) () {}).next weighedEarly
      .silent).2.next weighedEarly .silent
      |>.1.space?.isNone := by
    decide +kernel
  cases reports with
  | finished ended => exact fun _ inside => absurd inside List.not_mem_nil
  | solved reported later =>
    rw [reported] at first second
    cases later with
    | finished ended => exact List.forall_mem_singleton.mpr (Option.some.inj first)
    | solved again =>
      rw [again] at second
      cases second

end Network

/-- The value 2 with a false boolean is favoured and reported once. The value 1 with a true boolean
satisfies the network as well, but it is discarded while the boolean is open. -/
theorem Workspace.exists_unique_report_weighedEarly :
    ∃ spaces, weighedEarly.model.network = some Network.weighedEarly ∧
      (Search.initial Network.weighedEarly (⟨#[], 0⟩ : Script) () {}).Reports Network.weighedEarly
        .silent spaces ∧
      (∃! index : Nat, ∃ space, spaces[index]? = some space ∧
        Network.weighedEarly.Fixes space ([2, 0].getD · 0)) ∧
      Network.weighedEarly.Satisfied ([1, 1].getD · 0) ∧
      ∀ space ∈ spaces, ¬ Network.weighedEarly.Fixes space ([1, 1].getD · 0) := by
  have prepared : weighedEarly.model.network = some Network.weighedEarly :=
    Option.eq_some_of_isSome _
  obtain ⟨⟨spaces, reports⟩, placed⟩ :=
    (reachable_ofRequests _).exists_unique_report_of_favours prepared rfl (⟨#[], 0⟩ : Script) {}
  obtain ⟨_, _, unique⟩ := placed spaces reports
  have satisfied :=
    @Network.satisfied_weighedEarly ([2, 0].getD · 0) (by decide +kernel) (by decide +kernel)
  have other :=
    @Network.satisfied_weighedEarly ([1, 1].getD · 0) (by decide +kernel) (by decide +kernel)
  refine ⟨spaces, prepared, reports, unique _ satisfied Network.favours_weighedEarly, other,
    fun space inside fixes => ?_⟩
  have one := fixes 0 (by decide +kernel)
  rw [Network.reports_weighedEarly reports space inside] at one
  exact absurd (Option.some.inj one) (by decide)

end ConstraintSearch
