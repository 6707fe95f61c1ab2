import ConstraintSearch.Proofs.Propagation.Idempotence
import ConstraintSearch.Proofs.Propagation.Step
import Mathlib.Logic.Function.Basic

/-!
# Arc consistency

A single run of a comparison, or of a reified comparison, between different variables is exact: it
fails only when the relation has no solution within the domains, and otherwise leaves just the
values that occur in a solution. A step is exact when every value that it leaves occurs in a
solution, since no step loses a solution.
-/

namespace ConstraintSearch

/-! ### Exact steps -/

namespace Propagator

/-- Every value that the family has for a variable of the propagator occurs in a solution within the
family. -/
def Supports (propagator : Propagator) (family : Family) : Prop :=
  ∀ variableId ∈ propagator.scope, ∀ value ∈ family variableId,
    ∃ assignment, propagator.SolvedBy family assignment ∧ assignment variableId = value

/-- A solution within a family is one within every larger family. -/
theorem SolvedBy.mono {propagator : Propagator} {inner outer : Family}
    {assignment : VariableId → Int} (solved : propagator.SolvedBy inner assignment)
    (within : Within inner outer) : propagator.SolvedBy outer assignment :=
  ⟨fun variableId inside => within variableId _ (solved.mem variableId inside), solved.holds⟩

/-- The step fails exactly where there is no solution, and otherwise leaves exactly the values that
occur in solutions. -/
structure Exact (propagator : Propagator) (state : Narrowing) : Prop where
  fails_iff : (∃ variableId failed, propagator.propagate state = .error variableId failed) ↔
    ¬ ∃ assignment, propagator.SolvedBy state.domainOf assignment
  mem_iff : ∀ {final}, propagator.propagate state = .ok () final → ∀ variableId ∈ propagator.scope,
    ∀ value, value ∈ final.domainOf variableId ↔
      ∃ assignment, propagator.SolvedBy state.domainOf assignment ∧ assignment variableId = value

/-- Every propagator reads some variable. -/
theorem mem_scope_self (propagator : Propagator) : ∃ variableId, variableId ∈ propagator.scope := by
  cases propagator with
  | relation comparison left right => exact ⟨left, by simp⟩
  | reified comparison left right result => exact ⟨left, by simp⟩
  | ring operation left right result => exact ⟨left, by simp⟩
  | markov weighted matrix => exact ⟨weighted, by simp⟩

/-- A sound step is exact when the domains that it leaves are supported. -/
theorem exact_of_supports {propagator : Propagator} {state : Narrowing}
    (weightless : propagator.isMarkov = false)
    (nonempty : ∀ variableId ∈ propagator.scope, (state.domainOf variableId).Nonempty)
    (truth : ∀ result, propagator.truthVariable? = some result → state.domainOf result ⊆ .range 0 1)
    (supports : ∀ final, propagator.propagate state = .ok () final →
      propagator.Supports final.domainOf) : propagator.Exact state where
  fails_iff := by
    constructor
    · rintro ⟨variableId, failed, ran⟩ ⟨assignment, solved⟩
      obtain ⟨final, succeeded, -⟩ := exists_of_solvedBy weightless truth solved
      rw [ran] at succeeded
      cases succeeded
    · intro unsolvable
      cases ran : propagator.propagate state with
      | error variableId failed => exact ⟨variableId, failed, rfl⟩
      | ok result final =>
        have narrows := narrows_of_propagate nonempty ran
        obtain ⟨variableId, inside⟩ := propagator.mem_scope_self
        obtain ⟨value, member⟩ := narrows.nonempty (nonempty variableId inside)
        obtain ⟨assignment, solved, -⟩ := supports final ran variableId inside value member
        exact absurd ⟨assignment, solved.mono narrows.subset⟩ unsolvable
  mem_iff {final} ran variableId inside value := by
    constructor
    · intro member
      obtain ⟨assignment, solved, same⟩ := supports final ran variableId inside value member
      exact ⟨assignment, solved.mono (narrows_of_propagate nonempty ran).subset, same⟩
    · rintro ⟨assignment, solved, rfl⟩
      obtain ⟨_, succeeded, kept⟩ := exists_of_solvedBy weightless truth solved
      rw [ran] at succeeded
      cases succeeded
      exact kept variableId (solved.mem variableId inside)

end Propagator

/-! ### Pairs and triples -/

namespace Comparison

open Propagator

variable {comparison : Comparison} {left right result : VariableId} {family : Family}

/-- Values of the operands between which the comparison holds. -/
structure Paired (comparison : Comparison) (left right : VariableId) (family : Family)
    (first second : Int) : Prop where
  mem_left : first ∈ family left
  mem_right : second ∈ family right
  holds : comparison.Holds first second

/-- Values of three variables the last of which tells whether the comparison holds between the
others. -/
structure Told (comparison : Comparison) (left right result : VariableId) (family : Family)
    (first second truth : Int) : Prop where
  mem_left : first ∈ family left
  mem_right : second ∈ family right
  mem_result : truth ∈ family result
  tells : truth = 1 ↔ comparison.Holds first second

/-- A solution of a comparison is a pair of values between which it holds. -/
theorem solvedBy_relation {assignment : VariableId → Int} :
    (relation comparison left right).SolvedBy family assignment ↔
      comparison.Paired left right family (assignment left) (assignment right) := by
  constructor
  · rintro ⟨mem, holds⟩
    exact ⟨mem left (by simp), mem right (by simp), holds⟩
  · rintro ⟨inLeft, inRight, holds⟩
    refine ⟨fun variableId inside => ?_, holds⟩
    rcases mem_scope_relation.mp inside with rfl | rfl <;> assumption

/-- A solution of a reified comparison is a triple of values the last of which is the truth about
the others. -/
theorem solvedBy_reified {assignment : VariableId → Int} (truth : family result ⊆ .range 0 1) :
    (reified comparison left right result).SolvedBy family assignment ↔
      comparison.Told left right result family (assignment left) (assignment right)
        (assignment result) := by
  constructor
  · rintro ⟨mem, holds⟩
    refine ⟨mem left (by simp), mem right (by simp),
      mem result (by simp), ?_⟩
    rcases holds with ⟨isOne, related⟩ | ⟨isZero, unrelated⟩
    · exact iff_of_true isOne related
    · exact iff_of_false (by omega) unrelated
  · rintro ⟨inLeft, inRight, inResult, tells⟩
    refine ⟨fun variableId inside => ?_, ?_⟩
    · rcases mem_scope_reified.mp inside with rfl | rfl | rfl <;> assumption
    · have between := Domain.mem_range.mp (truth _ inResult)
      by_cases isOne : assignment result = 1
      · exact .inl ⟨isOne, tells.mp isOne⟩
      · exact .inr ⟨by omega, fun related => isOne (tells.mpr related)⟩

/-- Two values for two different variables. -/
theorem exists_solvedBy_relation_iff (comparison : Comparison) (family : Family)
    (different : left ≠ right) (chosen : Int → Int → Prop) :
    (∃ assignment, (relation comparison left right).SolvedBy family assignment ∧
      chosen (assignment left) (assignment right)) ↔ ∃ first second,
        comparison.Paired left right family first second ∧ chosen first second := by
  constructor
  · rintro ⟨assignment, solved, isChosen⟩
    exact ⟨_, _, solvedBy_relation.mp solved, isChosen⟩
  · rintro ⟨first, second, pair, isChosen⟩
    let assignment : VariableId → Int := Function.update (fun _ => second) left first
    have atLeft : assignment left = first := by simp [assignment]
    have atRight : assignment right = second := by simp [assignment, different.symm]
    rw [← atLeft, ← atRight] at pair isChosen
    exact ⟨assignment, solvedBy_relation.mpr pair, isChosen⟩

/-- Three values for three different variables. -/
theorem exists_solvedBy_reified_iff (comparison : Comparison) (different : left ≠ right)
    (apartLeft : result ≠ left) (apartRight : result ≠ right) (truth : family result ⊆ .range 0 1)
    (chosen : Int → Int → Int → Prop) :
    (∃ assignment, (reified comparison left right result).SolvedBy family assignment ∧
        chosen (assignment left) (assignment right) (assignment result)) ↔
      ∃ first second value, comparison.Told left right result family first second value ∧
        chosen first second value := by
  constructor
  · rintro ⟨assignment, solved, isChosen⟩
    exact ⟨_, _, _, (solvedBy_reified truth).mp solved, isChosen⟩
  · rintro ⟨first, second, value, triple, isChosen⟩
    let assignment : VariableId → Int :=
      Function.update (Function.update (fun _ => value) right second) left first
    have atLeft : assignment left = first := by simp [assignment]
    have atRight : assignment right = second := by simp [assignment, different.symm]
    have atResult : assignment result = value := by simp [assignment, apartLeft, apartRight]
    rw [← atLeft, ← atRight, ← atResult] at triple isChosen
    exact ⟨assignment, (solvedBy_reified truth).mpr triple, isChosen⟩

/-! ### Supported domains -/

/-- Where both operands support each other, every value of either occurs in a solution. The operands
have to be different, since the partner of a value is chosen for the other one. -/
theorem supports_relation (different : left ≠ right)
    (supported : comparison.Supported (family left) (family right)) :
    (relation comparison left right).Supports family := by
  intro variableId inside value member
  rcases mem_scope_relation.mp inside with rfl | rfl
  · obtain ⟨other, inRight, holds⟩ := supported.1 value member
    exact (exists_solvedBy_relation_iff comparison family different fun first _ =>
      first = value).mpr ⟨value, other, ⟨member, inRight, holds⟩, rfl⟩
  · obtain ⟨other, inLeft, holds⟩ := supported.2 value member
    exact (exists_solvedBy_relation_iff comparison family different fun _ second =>
      second = value).mpr ⟨other, value, ⟨inLeft, member, holds⟩, rfl⟩

/-- Every value of each of the three variables occurs in a triple. -/
structure ToldEverywhere (comparison : Comparison) (left right result : VariableId)
    (family : Family) : Prop where
  at_left : ∀ first ∈ family left, ∃ second truth,
    comparison.Told left right result family first second truth
  at_right : ∀ second ∈ family right, ∃ first truth,
    comparison.Told left right result family first second truth
  at_result : ∀ truth ∈ family result, ∃ first second,
    comparison.Told left right result family first second truth

/-- Operands that support each other and a result with the one value that tells so. -/
theorem toldEverywhere_of_supported {related : Comparison} {only : Int}
    (resultSolved : (family result).solvedValue? = some only) (nonempty : (family left).Nonempty)
    (supported : related.Supported (family left) (family right))
    (tells : ∀ {first second}, related.Holds first second →
      (only = 1 ↔ comparison.Holds first second)) :
        comparison.ToldEverywhere left right result family := by
  have isOnly := Domain.mem_of_solvedValue? resultSolved
  refine ⟨fun first member => ?_, fun second member => ?_, fun truth member => ?_⟩
  · obtain ⟨second, inRight, holds⟩ := supported.1 first member
    exact ⟨second, only, member, inRight, isOnly, tells holds⟩
  · obtain ⟨first, inLeft, holds⟩ := supported.2 second member
    exact ⟨first, only, inLeft, member, isOnly, tells holds⟩
  · obtain ⟨first, inLeft⟩ := nonempty
    obtain ⟨second, inRight, holds⟩ := supported.1 first inLeft
    obtain rfl := (Domain.solvedValue?_eq_some_iff.mp resultSolved truth).mp member
    exact ⟨first, second, inLeft, inRight, member, tells holds⟩

/-- Where the result is open, the comparison holds between some values and not between others, and
any two values of the operands occur in a triple. -/
theorem toldEverywhere_of_open (leftNonempty : (family left).Nonempty)
    (rightNonempty : (family right).Nonempty) (truth : family result ⊆ .range 0 1)
    (one : 1 ∈ family result) (zero : 0 ∈ family result)
    (possible : ¬ comparison.isRejected (family left) (family right))
    (avoidable : ¬ comparison.negate.isRejected (family left) (family right)) :
    comparison.ToldEverywhere left right result family := by
  have told : ∀ {first second}, first ∈ family left → second ∈ family right →
      ∃ value, comparison.Told left right result family first second value := by
    intro first second inLeft inRight
    by_cases holds : comparison.Holds first second
    · exact ⟨1, inLeft, inRight, one, iff_of_true rfl holds⟩
    · exact ⟨0, inLeft, inRight, zero, iff_of_false (by decide) holds⟩
  rw [isRejected_iff] at possible avoidable
  push Not at possible avoidable
  refine ⟨fun first member => ?_, fun second member => ?_, fun value member => ?_⟩
  · obtain ⟨second, inRight⟩ := rightNonempty
    exact ⟨second, told member inRight⟩
  · obtain ⟨first, inLeft⟩ := leftNonempty
    exact ⟨first, told inLeft member⟩
  · have between := Domain.mem_range.mp (truth value member)
    by_cases isOne : value = 1
    · obtain ⟨first, inLeft, second, inRight, holds⟩ := possible
      exact ⟨first, second, inLeft, inRight, member, iff_of_true isOne holds⟩
    · obtain ⟨first, inLeft, second, inRight, holds⟩ := avoidable
      exact ⟨first, second, inLeft, inRight, member,
        iff_of_false isOne ((comparison.holds_negate first second).mp holds)⟩

/-- A truth value that is not fixed may be either one. -/
theorem mem_of_open {domain : Domain} (nonempty : domain.Nonempty) (truth : domain ⊆ .range 0 1)
    (notOne : ¬ domain.isValue 1) (notZero : ¬ domain.isValue 0) : 1 ∈ domain ∧ 0 ∈ domain := by
  have truthValue : ∀ {value}, value ∈ domain → value = 0 ∨ value = 1 := by
    intro value member
    have := Domain.mem_range.mp (truth value member)
    omega
  have unsolved : ¬ domain.isSolved := by
    intro solved
    obtain ⟨only, isOnly⟩ := Domain.isSolved_iff.mp solved
    rcases truthValue (Domain.mem_of_solvedValue? isOnly) with rfl | rfl
    · exact notZero (Domain.isValue_iff.mpr isOnly)
    · exact notOne (Domain.isValue_iff.mpr isOnly)
  obtain ⟨value, member⟩ := nonempty
  obtain ⟨other, inside, different⟩ := Domain.exists_ne_of_not_isSolved member unsolved
  rcases truthValue member with rfl | rfl <;> rcases truthValue inside with rfl | rfl
  · exact absurd rfl different
  · exact ⟨inside, member⟩
  · exact ⟨member, inside⟩
  · exact absurd rfl different

/-- Where a reified comparison is at rest, every value occurs in a triple. The cases are whether the
result is 1, 0 or open. -/
theorem toldEverywhere_of_keeps (leftNonempty : (family left).Nonempty)
    (rightNonempty : (family right).Nonempty) (resultNonempty : (family result).Nonempty)
    (truth : family result ⊆ .range 0 1)
    (keeps : (reified comparison left right result).Keeps family) :
    comparison.ToldEverywhere left right result family := by
  by_cases one : (family result).isValue 1
  · have supported := (keeps_reified_of_one leftNonempty rightNonempty one).mp keeps
    exact toldEverywhere_of_supported (Domain.isValue_iff.mp one) leftNonempty supported
      (iff_of_true rfl)
  by_cases zero : (family result).isValue 0
  · have supported := (keeps_reified_of_zero leftNonempty rightNonempty zero).mp keeps
    refine toldEverywhere_of_supported (Domain.isValue_iff.mp zero) leftNonempty supported
      fun {first second} holds => ?_
    exact iff_of_false (by decide) ((comparison.holds_negate first second).mp holds)
  have both := mem_of_open resultNonempty truth one zero
  have notExcluded := (keeps_reified_of_open one zero).mp keeps
  have possible : ¬ comparison.isRejected (family left) (family right) := fun rejected =>
    Domain.subset_allBut_iff.mp (notExcluded.1 rejected) both.1
  have avoidable : ¬ comparison.negate.isRejected (family left) (family right) := fun rejected =>
    Domain.subset_allBut_iff.mp (notExcluded.2 possible rejected) both.2
  exact toldEverywhere_of_open leftNonempty rightNonempty truth both.1 both.2 possible avoidable

/-- Where every value occurs in a triple, every value occurs in a solution, as the three variables
are different. -/
theorem supports_reified (different : left ≠ right) (apartLeft : result ≠ left)
    (apartRight : result ≠ right) (truth : family result ⊆ .range 0 1)
    (told : comparison.ToldEverywhere left right result family) :
    (reified comparison left right result).Supports family := by
  have chosen := exists_solvedBy_reified_iff comparison different apartLeft apartRight truth
  intro variableId inside value member
  rcases mem_scope_reified.mp inside with rfl | rfl | rfl
  · obtain ⟨second, third, triple⟩ := told.at_left value member
    exact (chosen fun first _ _ => first = value).mpr ⟨value, second, third, triple, rfl⟩
  · obtain ⟨first, third, triple⟩ := told.at_right value member
    exact (chosen fun _ second _ => second = value).mpr ⟨first, value, third, triple, rfl⟩
  · obtain ⟨first, second, triple⟩ := told.at_result value member
    exact (chosen fun _ _ third => third = value).mpr ⟨first, second, value, triple, rfl⟩

/-! ### One run -/

section OneRun

variable (comparison) {state : Narrowing} (leftNonempty : (state.domainOf left).Nonempty)
  (rightNonempty : (state.domainOf right).Nonempty)

include leftNonempty rightNonempty

/-- Both operands have values. -/
theorem nonempty_scope_relation :
    ∀ variableId ∈ (relation comparison left right).scope,
      (state.domainOf variableId).Nonempty := by
  intro variableId inside
  rcases mem_scope_relation.mp inside with rfl | rfl <;> assumption

/-- So have the operands and the result. -/
theorem nonempty_scope_reified (resultNonempty : (state.domainOf result).Nonempty) :
    ∀ variableId ∈ (reified comparison left right result).scope,
      (state.domainOf variableId).Nonempty := by
  intro variableId inside
  rcases mem_scope_reified.mp inside with rfl | rfl | rfl <;> assumption

/-- A comparison of different variables is exact. -/
theorem exact_relation (different : left ≠ right) :
    (relation comparison left right).Exact state := by
  have nonempty := nonempty_scope_relation comparison leftNonempty rightNonempty
  refine exact_of_supports rfl nonempty (fun _ absurdity => nomatch absurdity) fun final ran => ?_
  have narrows := narrows_of_propagate nonempty ran
  have keeps := keeps_of_propagate_of_not_ordersItself rfl nonempty ran fun ordersItself =>
    different ordersItself.2
  exact supports_relation different
    ((keeps_relation_iff (narrows.nonempty leftNonempty) (narrows.nonempty rightNonempty)).mp keeps)

/-- So is a reified comparison of three different variables. -/
theorem exact_reified (different : left ≠ right) (apartLeft : result ≠ left)
    (apartRight : result ≠ right) (resultNonempty : (state.domainOf result).Nonempty)
    (truth : state.domainOf result ⊆ .range 0 1) :
    (reified comparison left right result).Exact state := by
  have nonempty := nonempty_scope_reified comparison leftNonempty rightNonempty resultNonempty
  have isTruth : ∀ variableId, (reified comparison left right result).truthVariable? =
      some variableId → state.domainOf variableId ⊆ .range 0 1 := by
    rintro variableId ⟨rfl⟩
    exact truth
  refine exact_of_supports rfl nonempty isTruth fun final ran => ?_
  have narrows := narrows_of_propagate nonempty ran
  have keeps := keeps_of_propagate_of_not_ordersItself rfl nonempty ran fun ordersItself =>
    different ordersItself.1
  have finalTruth := Domain.Subset.trans (narrows.subset result) truth
  exact supports_reified different apartLeft apartRight finalTruth
    (toldEverywhere_of_keeps (narrows.nonempty leftNonempty) (narrows.nonempty rightNonempty)
      (narrows.nonempty resultNonempty) finalTruth keeps)

end OneRun

/-- The comparison fails exactly when it holds between no two values of its operands, and otherwise
leaves exactly the values of each operand that have a partner in the other one. -/
structure FindsPairs (comparison : Comparison) (left right : VariableId) (state : Narrowing) :
    Prop where
  fails_iff : (∃ variableId failed, comparison.propagate left right state =
    .error variableId failed) ↔
      ¬ ∃ first second, comparison.Paired left right state.domainOf first second
  mem_left : ∀ {final}, comparison.propagate left right state = .ok () final → ∀ first,
    first ∈ final.domainOf left ↔ ∃ second, comparison.Paired left right state.domainOf first second
  mem_right : ∀ {final}, comparison.propagate left right state = .ok () final → ∀ second,
    second ∈ final.domainOf right ↔
      ∃ first, comparison.Paired left right state.domainOf first second

/-- The reified comparison fails exactly when no triple of values tells whether the comparison
holds, and otherwise leaves exactly the values that occur in such a triple. -/
structure FindsTriples (comparison : Comparison) (left right result : VariableId)
    (state : Narrowing) : Prop where
  fails_iff : (∃ variableId failed, comparison.propagateReified left right result state =
    .error variableId failed) ↔
      ¬ ∃ first second truth, comparison.Told left right result state.domainOf first second truth
  mem_left : ∀ {final}, comparison.propagateReified left right result state = .ok () final →
    ∀ first, first ∈ final.domainOf left ↔
      ∃ second truth, comparison.Told left right result state.domainOf first second truth
  mem_right : ∀ {final}, comparison.propagateReified left right result state = .ok () final →
    ∀ second, second ∈ final.domainOf right ↔
      ∃ first truth, comparison.Told left right result state.domainOf first second truth
  mem_result : ∀ {final}, comparison.propagateReified left right result state = .ok () final →
    ∀ truth, truth ∈ final.domainOf result ↔
      ∃ first second, comparison.Told left right result state.domainOf first second truth

variable {state : Narrowing}

/-- What exactness says of the solutions of a comparison is said of pairs of values. -/
theorem findsPairs_of_exact (different : left ≠ right)
    (exact : (relation comparison left right).Exact state) :
    comparison.FindsPairs left right state := by
  have chosen := exists_solvedBy_relation_iff comparison state.domainOf different
  refine ⟨exact.fails_iff.trans (not_congr ?_), fun {final} ran first => ?_,
    fun {final} ran second => ?_⟩
  · simpa using chosen fun _ _ => True
  · refine (exact.mem_iff ran left (by simp) first).trans ?_
    simpa using chosen fun value _ => value = first
  · refine (exact.mem_iff ran right (by simp) second).trans ?_
    simpa using chosen fun _ value => value = second

/-- That of a reified comparison is said of triples. -/
theorem findsTriples_of_exact (different : left ≠ right) (apartLeft : result ≠ left)
    (apartRight : result ≠ right) (isTruth : state.domainOf result ⊆ .range 0 1)
    (exact : (reified comparison left right result).Exact state) :
    comparison.FindsTriples left right result state := by
  have chosen := exists_solvedBy_reified_iff comparison different apartLeft apartRight isTruth
  refine ⟨exact.fails_iff.trans (not_congr ?_), fun {final} ran first => ?_,
    fun {final} ran second => ?_, fun {final} ran truth => ?_⟩
  · simpa using chosen fun _ _ _ => True
  · refine (exact.mem_iff ran left (by simp) first).trans ?_
    simpa using chosen fun value _ _ => value = first
  · refine (exact.mem_iff ran right (by simp) second).trans ?_
    simpa using chosen fun _ value _ => value = second
  · refine (exact.mem_iff ran result (by simp) truth).trans ?_
    simpa using chosen fun _ _ value => value = truth

/-- **Arc consistency in one run.** Whatever the domains of two different variables are, one run of
a comparison between them leaves exactly the values that have partners, one run of its reified form
with a third variable leaves exactly the values that occur in triples, and both fail exactly where
nothing would be left. Just the variables whose domains differ afterwards are noted besides those
noted before, each once. -/
theorem exact_in_one_run (comparison : Comparison) (left right : VariableId) (state : Narrowing)
    (different : left ≠ right) (leftNonempty : (state.domainOf left).Nonempty)
    (rightNonempty : (state.domainOf right).Nonempty) (precise : state.changes.Precise)
    (room : state.domains.size ≤ state.changes.recorded.capacity) :
    (comparison.FindsPairs left right state ∧
      NotesChanges (comparison.propagate left right) state) ∧ ∀ result, result ≠ left →
        result ≠ right → (state.domainOf result).Nonempty → state.domainOf result ⊆ .range 0 1 →
          comparison.FindsTriples left right result state ∧
            NotesChanges (comparison.propagateReified left right result) state := by
  refine ⟨⟨findsPairs_of_exact different
    (exact_relation comparison leftNonempty rightNonempty different), ?_⟩, ?_⟩
  · exact notesChanges (nonempty_scope_relation comparison leftNonempty rightNonempty) precise room
  · intro result apartLeft apartRight resultNonempty truth
    have exact := exact_reified comparison leftNonempty rightNonempty different apartLeft apartRight
      resultNonempty truth
    exact ⟨findsTriples_of_exact different apartLeft apartRight truth exact,
      notesChanges (nonempty_scope_reified comparison leftNonempty rightNonempty resultNonempty)
      precise room⟩

/-- Two variables with gaps in their domains, and one that is 1. -/
def gaps : Narrowing :=
  .ofDomains [.ofRanges [⟨0, 0⟩, ⟨5, 5⟩], .ofRanges [⟨1, 1⟩, ⟨3, 3⟩], .value 1]

/-- The first value of the first domain is less than one of the second domain. -/
theorem paired_gaps : lt.Paired 0 1 gaps.domainOf 0 1 :=
  ⟨by decide, by decide, by decide⟩

/-- The last value of the first domain is less than none of them. -/
theorem not_paired_gaps (second : Int) : ¬ lt.Paired 0 1 gaps.domainOf 5 second := by
  rintro ⟨-, inRight, below⟩
  have inRanges := (Domain.mem_ofRanges.mp inRight).1
  simp only [covers_cons, covers_nil, or_false, Range.mem_iff] at inRanges
  have above : (5 : Int) < second := below
  omega

/-- Of 0 and 5 only 0 is less than one of 1 and 3, and only 0 is left where a third variable tells
that it is. -/
theorem exact_in_one_run_gaps :
    (∃ final, lt.propagate 0 1 gaps = .ok () final ∧ 0 ∈ final.domainOf 0 ∧
      ¬ 5 ∈ final.domainOf 0) ∧ ∃ final, lt.propagateReified 0 1 2 gaps = .ok () final ∧
        0 ∈ final.domainOf 0 ∧ ¬ 5 ∈ final.domainOf 0 := by
  have truth : gaps.domainOf 2 ⊆ .range 0 1 := by
    intro value member
    obtain ⟨rfl, -⟩ := Domain.mem_value.mp member
    decide
  obtain ⟨⟨pairs, -⟩, reified⟩ :=
    exact_in_one_run lt 0 1 gaps (by decide) ⟨0, by decide⟩ ⟨1, by decide⟩
      (Changes.precise_forVariables 3) (by decide)
  obtain ⟨triples, -⟩ := reified 2 (by decide) (by decide) ⟨1, by decide⟩ truth
  have told : lt.Told 0 1 2 gaps.domainOf 0 1 1 :=
    ⟨paired_gaps.mem_left, paired_gaps.mem_right, by decide, iff_of_true rfl paired_gaps.holds⟩
  constructor
  · cases ran : lt.propagate 0 1 gaps with
    | error variableId failed =>
      exact absurd ⟨0, 1, paired_gaps⟩ (pairs.fails_iff.mp ⟨variableId, failed, ran⟩)
    | ok result final =>
      refine ⟨final, rfl, (pairs.mem_left ran 0).mpr ⟨1, paired_gaps⟩, fun member => ?_⟩
      obtain ⟨second, paired⟩ := (pairs.mem_left ran 5).mp member
      exact not_paired_gaps second paired
  · cases ran : lt.propagateReified 0 1 2 gaps with
    | error variableId failed =>
      exact absurd ⟨0, 1, 1, told⟩ (triples.fails_iff.mp ⟨variableId, failed, ran⟩)
    | ok result final =>
      refine ⟨final, rfl, (triples.mem_left ran 0).mpr ⟨1, 1, told⟩, fun member => ?_⟩
      obtain ⟨second, value, inLeft, inRight, inResult, tells⟩ := (triples.mem_left ran 5).mp member
      exact not_paired_gaps second ⟨inLeft, inRight, tells.mp (Domain.mem_value.mp inResult).1⟩

end Comparison

end ConstraintSearch
