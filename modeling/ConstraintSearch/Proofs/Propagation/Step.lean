import ConstraintSearch.Proofs.Propagation.Kept
import ConstraintSearch.Proofs.Propagation.Outcome

/-!
# Single steps of propagators

A propagator runs its rules one after the other on domains that it has itself narrowed in between,
and some of its operands may be the same variable. Nevertheless no solution is lost: the domains
that hold just the values of a solution are kept by the propagator, so that they are sheltered from
the step.
-/

namespace ConstraintSearch

/-- The state with the listed domains in which no propagator has run. -/
def Narrowing.ofDomains (domains : List Domain) : Narrowing where
  domains := .ofList domains
  changes := .forVariables domains.length
  runs := 0
  journal := {}

namespace Propagator

/-- The assignment satisfies the relation of the propagator and takes the values of the propagator's
variables from the family. -/
structure SolvedBy (propagator : Propagator) (family : Family) (assignment : VariableId → Int) :
    Prop where
  mem : ∀ variableId ∈ propagator.scope, assignment variableId ∈ family variableId
  holds : propagator.Holds assignment

/-- Where the truth variable has truth values only, an assignment to it is a truth value. -/
theorem truth_of_mem {propagator : Propagator} {family : Family} {assignment : VariableId → Int}
    (truth : ∀ result, propagator.truthVariable? = some result → family result ⊆ .range 0 1)
    (mem : ∀ variableId ∈ propagator.scope, assignment variableId ∈ family variableId) :
    ∀ result, propagator.truthVariable? = some result →
      assignment result = 0 ∨ assignment result = 1 := by
  intro result isTruth
  have inScope : result ∈ propagator.scope := by
    cases propagator <;> cases isTruth
    simp
  have between := Domain.mem_range.mp (truth result isTruth _ (mem result inScope))
  omega

variable {propagator : Propagator} {state : Narrowing}

/-- A step succeeds where there is a solution, and loses no value of it. -/
theorem exists_of_solvedBy (weightless : propagator.isMarkov = false)
    (truth : ∀ result, propagator.truthVariable? = some result → state.domainOf result ⊆ .range 0 1)
    {assignment : VariableId → Int} (solved : propagator.SolvedBy state.domainOf assignment) :
    ∃ final, propagator.propagate state = .ok () final ∧
      ∀ variableId, assignment variableId ∈ state.domainOf variableId →
        assignment variableId ∈ final.domainOf variableId := by
  -- The solution alone on the variables that have its values, and the domains themselves elsewhere.
  let inner : Family := fun variableId =>
    if assignment variableId ∈ state.domainOf variableId then .value (assignment variableId)
      else state.domainOf variableId
  have innerOf : ∀ {variableId}, assignment variableId ∈ state.domainOf variableId →
      (inner variableId).solvedValue? = some (assignment variableId) := by
    intro variableId member
    simp only [inner, if_pos member]
    exact Domain.solvedValue?_value (Domain.bounds member).1 (Domain.bounds member).2
  have inScope := fun variableId inside => innerOf (solved.mem variableId inside)
  have keeps : propagator.Keeps inner :=
    (keeps_iff_holds inScope (truth_of_mem truth solved.mem)).mpr solved.holds
  have within : Within inner state.domainOf := by
    intro variableId value member
    by_cases inside : assignment variableId ∈ state.domainOf variableId
    · rwa [(Domain.solvedValue?_eq_some_iff.mp (innerOf inside) value).mp member]
    · simpa only [inner, if_neg inside] using member
  have unweighed : propagator.isMarkov → propagator.Keeps state.domainOf := by
    rw [weightless]
    exact fun absurdity => nomatch absurdity
  have nonempty : ∀ variableId ∈ propagator.scope, (inner variableId).Nonempty :=
    fun variableId inside => ⟨_, Domain.mem_of_solvedValue? (inScope variableId inside)⟩
  obtain ⟨final, ran, sheltered⟩ := propagate_shelters unweighed nonempty keeps within
  exact ⟨final, ran, fun variableId member =>
    sheltered variableId _ (Domain.mem_of_solvedValue? (innerOf member))⟩

/-- On fixed variables a step succeeds exactly when the relation holds. -/
theorem propagate_ok_iff_holds {assignment : VariableId → Int}
    (truth : ∀ result, propagator.truthVariable? = some result → state.domainOf result ⊆ .range 0 1)
    (fixed : ∀ variableId ∈ propagator.scope, (state.domainOf variableId).solvedValue? =
      some (assignment variableId)) :
    (∃ final, propagator.propagate state = .ok () final) ↔ propagator.Holds assignment := by
  have mem : ∀ variableId ∈ propagator.scope, assignment variableId ∈ state.domainOf variableId :=
    fun variableId inside => Domain.mem_of_solvedValue? (fixed variableId inside)
  have nonempty : ∀ variableId ∈ propagator.scope, (state.domainOf variableId).Nonempty :=
    fun variableId inside => ⟨_, mem variableId inside⟩
  rw [← keeps_iff_holds fixed (truth_of_mem truth mem)]
  constructor
  · rintro ⟨final, ran⟩
    have narrows := narrows_of_propagate nonempty ran
    refine keeps_of_propagate nonempty ran (funext fun variableId => ?_)
    by_cases inside : variableId ∈ propagator.scope
    · exact narrows.eq_of_solvedValue? (fixed variableId inside)
    · exact elsewhere_of_propagate nonempty ran inside
  · exact fun keeps => ⟨state, propagate_of_keeps nonempty keeps⟩

/-- **Sound steps.** Whatever variables coincide, a step without weights replaces domains by parts
of them, keeps every solution within the domains, and fails only where there is none, with a
variable of its own that has no value left. On fixed variables it succeeds exactly when its relation
holds. -/
theorem propagate_sound (propagator : Propagator) (weightless : propagator.isMarkov = false)
    (state : Narrowing) (nonempty : ∀ variableId ∈ propagator.scope,
      (state.domainOf variableId).Nonempty)
    (truth : ∀ result, propagator.truthVariable? = some result →
      state.domainOf result ⊆ .range 0 1) :
    Within (propagator.propagate.after state).domainOf state.domainOf ∧
      (∀ assignment, propagator.SolvedBy state.domainOf assignment →
        ∃ final, propagator.propagate state = .ok () final ∧ ∀ variableId,
          assignment variableId ∈ state.domainOf variableId →
            assignment variableId ∈ final.domainOf variableId) ∧
      (∀ variableId failed, propagator.propagate state = .error variableId failed →
        variableId ∈ propagator.scope ∧ (state.domainOf variableId).Nonempty ∧
          (failed.domainOf variableId).isEmpty ∧ ¬ ∃ assignment,
            propagator.SolvedBy state.domainOf assignment) ∧
      ∀ assignment, (∀ variableId ∈ propagator.scope,
          (state.domainOf variableId).solvedValue? = some (assignment variableId)) →
        ((∃ final, propagator.propagate state = .ok () final) ↔ propagator.Holds assignment) := by
  refine ⟨(shrinks_propagate propagator state).within, fun assignment =>
    exists_of_solvedBy weightless truth, ?_, fun assignment => propagate_ok_iff_holds truth⟩
  intro variableId failed ran
  obtain ⟨inScope, empty⟩ := isEmpty_of_propagate_error ran
  refine ⟨inScope, nonempty variableId inScope, empty, ?_⟩
  rintro ⟨assignment, solved⟩
  obtain ⟨final, succeeded, _⟩ := exists_of_solvedBy weightless truth solved
  rw [ran] at succeeded
  cases succeeded

/-- A truth variable that tells whether it is less than 0 itself: the step keeps that it is not. -/
theorem propagate_sound_ownOperand :
    ∃ final, (reified .lt 0 1 0).propagate (.ofDomains [.range 0 1, .value 0]) = .ok () final ∧
      0 ∈ final.domainOf 0 := by
  have inScope : ∀ variableId, variableId ∈ (reified .lt 0 1 0).scope →
      variableId = 0 ∨ variableId = 1 := by
    intro variableId inside
    simpa [or_comm, or_assoc] using inside
  have nonempty : ∀ variableId ∈ (reified .lt 0 1 0).scope,
      ((Narrowing.ofDomains [.range 0 1, .value 0]).domainOf variableId).Nonempty := by
    intro variableId inside
    rcases inScope variableId inside with rfl | rfl
    · exact ⟨0, by decide⟩
    · exact ⟨0, by decide⟩
  have truth : ∀ result, (reified .lt 0 1 0).truthVariable? = some result →
      (Narrowing.ofDomains [.range 0 1, .value 0]).domainOf result ⊆ .range 0 1 := by
    rintro result ⟨rfl⟩
    exact Domain.Subset.refl _
  obtain ⟨-, keeps, -⟩ := propagate_sound (reified .lt 0 1 0) rfl _ nonempty truth
  have solved : (reified .lt 0 1 0).SolvedBy (Narrowing.ofDomains [.range 0 1, .value 0]).domainOf
      fun _ => 0 := by
    refine ⟨fun variableId inside => ?_, .inr ⟨rfl, by decide⟩⟩
    rcases inScope variableId inside with rfl | rfl <;> decide
  obtain ⟨final, ran, kept⟩ := keeps _ solved
  exact ⟨final, ran, kept 0 (by decide)⟩

end Propagator

end ConstraintSearch
