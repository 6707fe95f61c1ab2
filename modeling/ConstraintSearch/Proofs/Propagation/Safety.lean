import ConstraintSearch.Proofs.Propagation.Checked
import ConstraintSearch.Proofs.Propagation.Fixpoint

/-!
# Propagation that never fails a check

On domains that all have values, with room to note every change, the checks of propagation never
fail, and the steps do the same with and without them. A step leaves such domains again, unless a
variable runs empty.
-/

namespace ConstraintSearch

open Narrow

/-! ### Checks that pass -/

/-- Noting a variable below a bound keeps all noted ones below it. -/
theorem Changes.lt_of_mem_order_record {changes : Changes} {bound : Nat} {added : VariableId}
    (inside : added < bound) (listed : ∀ variableId ∈ changes.order.toList, variableId < bound) :
    ∀ variableId ∈ (changes.record added).order.toList, variableId < bound := by
  rw [record]
  split
  · exact listed
  · intro variableId member
    rw [Array.toList_push, List.mem_append, List.mem_singleton] at member
    rcases member with before | rfl
    · exact listed variableId before
    · exact inside

/-- Reading an entry that is there passes. -/
theorem Table.get_eq_ok {α : Type} {table : Table α} {key : Nat} (inside : key < table.size)
    (substitute : α) : table.get key = .ok (table.getD key substitute) := by
  obtain ⟨entry, found⟩ := Option.isSome_iff_exists.mp ((table.get?_isSome_iff key).mpr inside)
  rw [get, getD, found]
  rfl

/-- A domain with values has a least one, and reading it passes. -/
theorem Domain.Nonempty.exists_minimum {domain : Domain} (nonempty : domain.Nonempty) :
    ∃ smallest, domain.min? = some smallest ∧ domain.minimum = .ok smallest := by
  obtain ⟨smallest, isSmallest⟩ := nonempty.exists_min?
  exact ⟨smallest, isSmallest, by rw [minimum, isSmallest]; rfl⟩

/-- A domain with values has a greatest one, and reading it passes. -/
theorem Domain.Nonempty.exists_maximum {domain : Domain} (nonempty : domain.Nonempty) :
    ∃ greatest, domain.max? = some greatest ∧ domain.maximum = .ok greatest := by
  obtain ⟨greatest, isGreatest⟩ := nonempty.exists_max?
  exact ⟨greatest, isGreatest, by rw [maximum, isGreatest]; rfl⟩

/-- All domains have values, and changes can be noted for all variables and have been for no
others. -/
structure Network.Readable (network : Network) (state : Narrowing) : Prop where
  size_eq : state.domains.size = network.vars.size
  nonempty : ∀ variableId < network.vars.size, (state.domainOf variableId).Nonempty
  room : state.changes.recorded.capacity = network.vars.size
  listed : ∀ variableId ∈ state.changes.order.toList, variableId < network.vars.size

namespace Checked

variable {α β : Type} {network : Network} {state : Narrowing}

/-- What the checked form of a step comes to if all checks pass. -/
def outcome : EStateM.Result VariableId Narrowing α → EStateM.Result Stop Narrowing α
  | .ok value state => .ok value state
  | .error variableId state => .error (.empty variableId) state

/-- On the state the checked step does what the step does, which leaves a state that is readable,
unless it fails with a variable of the network. -/
structure Agrees (network : Network) (state : Narrowing) (checked : Checked α) (step : Narrow α) :
    Prop where
  same : checked state = outcome (step state)
  readable : ∀ value final, step state = .ok value final → network.Readable final
  known : ∀ variableId final, step state = .error variableId final →
    variableId < network.vars.size ∧ final.changes.recorded.capacity = network.vars.size

/-- Nothing is checked where nothing happens. -/
theorem agrees_pure (readable : network.Readable state) (value : α) :
    Agrees network state (pure value) (pure value) where
  same := rfl
  readable _ _ ran := by
    cases ran
    exact readable
  known _ _ failed := by cases failed

/-- After a checked step that succeeds comes the next one. -/
theorem bind_of_ok {checked : Checked α} {next : α → Checked β} {value : α} {middle : Narrowing}
    (ran : checked state = .ok value middle) : (checked >>= next) state = next value middle := by
  simp only [Bind.bind, EStateM.bind, ran]

/-- After one that fails comes nothing. -/
theorem bind_of_error {checked : Checked α} {next : α → Checked β} {stop : Stop}
    {failed : Narrowing} (ran : checked state = .error stop failed) :
    (checked >>= next) state = .error stop failed := by
  simp only [Bind.bind, EStateM.bind, ran]

/-- Steps in a row agree with their checked forms, as each of them leaves a readable state to the
next one. -/
theorem Agrees.bind {checked : Checked α} {step : Narrow α} {checkedNext : α → Checked β}
    {next : α → Narrow β} (first : Agrees network state checked step)
    (later : ∀ value middle, step state = .ok value middle → network.Readable middle →
      Agrees network middle (checkedNext value) (next value)) :
    Agrees network state (checked >>= checkedNext) (step >>= next) := by
  have same := first.same
  cases ran : step state with
  | ok value middle =>
    have rest := later value middle ran (first.readable value middle ran)
    rw [ran] at same
    have steps : (step >>= next) state = next value middle := by
      simp only [Bind.bind, EStateM.bind, ran]
    refine ⟨?_, ?_, ?_⟩
    · rw [bind_of_ok same, steps, rest.same]
    · rw [steps]
      exact rest.readable
    · rw [steps]
      exact rest.known
  | error variableId failed =>
    rw [ran] at same
    have steps : (step >>= next) state = .error variableId failed := by
      simp only [Bind.bind, EStateM.bind, ran]
    refine ⟨?_, ?_, ?_⟩
    · rw [bind_of_error same, steps, outcome]
    · rw [steps]
      exact fun _ _ ran => by cases ran
    · rw [steps]
      rintro _ _ ⟨rfl, rfl⟩
      exact first.known variableId failed ran

/-- Agreement depends just on what the steps do to the state. -/
theorem Agrees.congr {checked other : Checked α} {step otherStep : Narrow α} {before : Narrowing}
    (agrees : Agrees network state other otherStep) (sameChecks : checked before = other state)
    (sameSteps : step before = otherStep state) : Agrees network before checked step := by
  refine ⟨by rw [sameChecks, sameSteps, agrees.same], ?_, ?_⟩
  · rw [sameSteps]
    exact agrees.readable
  · rw [sameSteps]
    exact agrees.known

/-- A check that passes changes nothing. -/
theorem Agrees.check {read : Except Fault α} {value : α} {checkedNext : α → Checked β}
    {step : Narrow β} (passed : read = .ok value)
    (later : Agrees network state (checkedNext value) step) :
    Agrees network state ((liftM read : Checked α) >>= checkedNext) step := by
  have lifted : (liftM read : Checked α) state = .ok value state := by
    rw [passed]
    rfl
  exact ⟨(bind_of_ok lifted).trans later.same, later.readable, later.known⟩

/-- The domain of a variable of the network is there. -/
theorem domain_eq (readable : network.Readable state) {variableId : VariableId}
    (inside : variableId < network.vars.size) :
    Checked.domain variableId state = .ok (state.domainOf variableId) state := by
  have read : state.domains.get variableId = .ok (state.domainOf variableId) :=
    Table.get_eq_ok (readable.size_eq ▸ inside) ∅
  change (liftM (state.domains.get variableId) : Checked Domain) state = _
  rw [read]
  rfl

/-- Steps that read a domain agree with their checked forms if what follows does. -/
theorem Agrees.domain {checkedNext : Domain → Checked β} {next : Domain → Narrow β}
    (readable : network.Readable state) {variableId : VariableId}
    (inside : variableId < network.vars.size)
    (later : Agrees network state (checkedNext (state.domainOf variableId))
      (next (state.domainOf variableId))) : Agrees network state
    (Checked.domain variableId >>= checkedNext) (Narrow.domain variableId >>= next) :=
  ⟨(bind_of_ok (domain_eq readable inside)).trans later.same, later.readable, later.known⟩

/-- The domain of a variable of the network can be replaced. -/
theorem replace_eq (readable : network.Readable state) {variableId : VariableId}
    (inside : variableId < network.vars.size) (domain : Domain) :
    Checked.replace variableId domain state = .ok ()
      { state with domains := state.domains.set variableId domain } := by
  have replaced : state.domains.replace variableId domain =
      .ok (state.domains.set variableId domain) :=
    if_pos (readable.size_eq ▸ inside)
  change ((liftM (state.domains.replace variableId domain) : Checked (Table Domain)) >>=
    fun domains => set { state with domains }) state = _
  rw [replaced]
  rfl

/-- A change can be noted where there is room for the variable. -/
theorem record_eq {variableId : VariableId} (room : variableId < state.changes.recorded.capacity) :
    Checked.record variableId state =
      .ok () { state with changes := state.changes.record variableId } := by
  have inserted : state.changes.recorded.insert variableId =
      .ok (!state.changes.recorded.contains variableId, state.changes.recorded.add variableId) :=
        if_pos room
  change ((liftM (state.changes.recorded.insert variableId) : Checked (Bool × StampedSet)) >>=
    fun _ => set { state with changes := state.changes.record variableId }) state = _
  rw [inserted]
  rfl

/-- Restricting a domain passes its checks, and unless the domain runs empty, all domains have
values again. -/
theorem agrees_restrict (readable : network.Readable state) {variableId : VariableId}
    (inside : variableId < network.vars.size) (supported : Domain) :
    Agrees network state (Checked.restrict variableId supported)
      (Narrow.restrict variableId supported) := by
  have checks : Checked.restrict variableId supported state =
      outcome (Narrow.restrict variableId supported state) := by
    rw [Checked.restrict, bind_of_ok (domain_eq readable inside), Narrow.restrict]
    split
    · rw [bind_of_ok (replace_eq readable inside _)]
      rfl
    split
    · rfl
    · rw [bind_of_ok (replace_eq readable inside _)]
      exact record_eq (readable.room ▸ inside)
  refine ⟨checks, fun value final ran => ?_, fun other final failed => ?_⟩
  · simp only [Narrow.restrict] at ran
    split at ran
    · cases ran
    rename_i remaining
    split at ran
    · cases ran
      exact readable
    · cases ran
      refine ⟨(Table.size_set ..).trans readable.size_eq, fun other early => ?_,
        (Changes.capacity_record ..).trans readable.room,
        Changes.lt_of_mem_order_record inside readable.listed⟩
      rw [Narrowing.domainOf, Table.getD_set other _ ∅ (readable.size_eq ▸ inside)]
      split
      · exact Domain.isEmpty_eq_false_iff.mp (Bool.eq_false_iff.mpr remaining)
      · exact readable.nonempty other early
  · simp only [Narrow.restrict] at failed
    split at failed
    · cases failed
      exact ⟨inside, readable.room⟩
    · split at failed <;> cases failed

/-- The steps of a list agree one after the other. -/
theorem agrees_forM {entries : List α} {checked : α → Checked Unit} {step : α → Narrow Unit}
    (agrees : ∀ entry ∈ entries, ∀ state, network.Readable state →
      Agrees network state (checked entry) (step entry))
    (readable : network.Readable state) :
    Agrees network state (entries.forM checked) (entries.forM step) := by
  induction entries generalizing state with
  | nil => exact agrees_pure readable ()
  | cons head rest inductionHypothesis =>
    obtain ⟨headAgrees, restAgrees⟩ := List.forall_mem_cons.mp agrees
    exact (headAgrees state readable).bind fun _ middle _ middleReadable =>
      inductionHypothesis restAgrees middleReadable

end Checked

/-! ### Checked propagators -/

section Propagators

open Checked

variable {network : Network} {state : Narrowing} (readable : network.Readable state)
  {left right result : VariableId} (leftInside : left < network.vars.size)
  (rightInside : right < network.vars.size)

namespace Comparison

/-- Whether a comparison is rejected can be read off domains with or without values. -/
theorem isRejectedChecked_eq (comparison : Comparison) (left right : Domain) :
    comparison.isRejectedChecked left right = .ok (comparison.isRejected left right) := by
  simp only [isRejectedChecked, isRejected]
  by_cases empty : left.isEmpty || right.isEmpty
  · simp only [empty, if_true, Bool.true_or]
    rfl
  · rw [if_neg empty, Bool.eq_false_iff.mpr empty, Bool.false_or]
    simp only [Bool.or_eq_true, not_or, Bool.not_eq_true, Domain.isEmpty_eq_false_iff] at empty
    obtain ⟨leftLeast, leftMin, leftMinimum⟩ := empty.1.exists_minimum
    obtain ⟨leftMost, leftMax, leftMaximum⟩ := empty.1.exists_maximum
    obtain ⟨rightLeast, rightMin, rightMinimum⟩ := empty.2.exists_minimum
    obtain ⟨rightMost, rightMax, rightMaximum⟩ := empty.2.exists_maximum
    cases comparison <;>
      simp [leftMin, leftMinimum, leftMax, leftMaximum, rightMin, rightMinimum, rightMax,
        rightMaximum, Domain.startsBelow, Domain.startsUpTo, Bind.bind, Except.bind,
        Pure.pure, Except.pure]

include readable leftInside rightInside

/-- Two bounds, each of which lies by the gap beyond a bound of the other operand. -/
theorem agrees_orderChecked {gap : Int} {below above : Domain → Domain}
    (isBelow : ∀ {domain : Domain} {greatest : Int}, domain.max? = some greatest →
      below domain = .atMost (greatest - gap))
    (isAbove : ∀ {domain : Domain} {smallest : Int}, domain.min? = some smallest →
      above domain = .atLeast (smallest + gap)) :
    Agrees network state (orderChecked gap left right) (do
      restrict left (below (← domain right))
      restrict right (above (← domain left))) := by
  obtain ⟨greatest, isMax, isMaximum⟩ := (readable.nonempty right rightInside).exists_maximum
  refine .domain readable rightInside (.check isMaximum ?_)
  rw [isBelow isMax]
  refine (agrees_restrict readable leftInside _).bind fun _ middle _ middleReadable => ?_
  obtain ⟨smallest, isMin, isMinimum⟩ := (middleReadable.nonempty left leftInside).exists_minimum
  refine .domain middleReadable leftInside (.check isMinimum ?_)
  rw [isAbove isMin]
  exact agrees_restrict middleReadable rightInside _

/-- The rule for unequal variables passes its checks, also if both are the same. -/
theorem agrees_unequalChecked :
    Agrees network state (unequalChecked left right) (propagateUnequal left right) := by
  refine .domain readable leftInside ?_
  cases (state.domainOf left).solvedValue? with
  | none => exact agrees_pure readable ()
  | some value => exact agrees_restrict readable rightInside _

/-- The rule for a strict order passes its checks. -/
theorem agrees_propagateLess :
    Agrees network state (orderChecked 1 left right) (propagateLess left right) :=
  agrees_orderChecked readable leftInside rightInside
    (fun isMax => by rw [Domain.belowSome, isMax]; rfl) fun isMin => by
      rw [Domain.aboveSome, isMin]; rfl

/-- The rule for a weak order passes its checks. -/
theorem agrees_propagateLessOrEqual :
    Agrees network state (orderChecked 0 left right) (propagateLessOrEqual left right) :=
  agrees_orderChecked readable leftInside rightInside
    (fun isMax => by rw [Domain.upToSome, isMax, Int.sub_zero]; rfl) fun isMin => by
      rw [Domain.fromSome, isMin, Int.add_zero]; rfl

/-- Every comparison is propagated in the same way with the checks as without them. -/
theorem agrees_propagateChecked (comparison : Comparison) :
    Agrees network state (comparison.propagateChecked left right)
      (comparison.propagate left right) := by
  cases comparison with
  | eq =>
    refine .domain readable rightInside
      ((agrees_restrict readable leftInside _).bind fun _ middle _ middleReadable => ?_)
    exact .domain middleReadable leftInside (agrees_restrict middleReadable rightInside _)
  | neq =>
    refine (agrees_unequalChecked readable leftInside rightInside).bind
      fun _ middle _ middleReadable => ?_
    exact agrees_unequalChecked middleReadable rightInside leftInside
  | lt => exact agrees_propagateLess readable leftInside rightInside
  | lte => exact agrees_propagateLessOrEqual readable leftInside rightInside
  | gt => exact agrees_propagateLess readable rightInside leftInside
  | gte => exact agrees_propagateLessOrEqual readable rightInside leftInside

/-- So is every reified one, whether its result is open or not. -/
theorem agrees_propagateReifiedChecked (comparison : Comparison)
    (resultInside : result < network.vars.size) :
    Agrees network state (comparison.propagateReifiedChecked left right result)
      (comparison.propagateReified left right result) := by
  refine .domain readable resultInside ?_
  split
  · exact agrees_propagateChecked readable leftInside rightInside comparison
  split
  · exact agrees_propagateChecked readable leftInside rightInside comparison.negate
  refine .domain readable leftInside
    (.domain readable rightInside (.check (isRejectedChecked_eq ..) ?_))
  split
  · exact agrees_restrict readable resultInside _
  refine .check (isRejectedChecked_eq ..) ?_
  split
  · exact agrees_restrict readable resultInside _
  · exact agrees_pure readable ()

end Comparison

end Propagators

/-- Checks that all pass find what the test finds. -/
theorem findM?_eq_ok {α : Type} {entries : List α} {check : α → Except Fault Bool} {test : α → Bool}
    (passed : ∀ entry ∈ entries, check entry = .ok (test entry)) :
    entries.findM? check = .ok (entries.find? test) := by
  induction entries with
  | nil => rfl
  | cons head rest inductionHypothesis =>
    obtain ⟨first, later⟩ := List.forall_mem_cons.mp passed
    rw [List.findM?, first, List.find?_cons]
    change (match test head with | true => pure (some head) | false => rest.findM? check) = _
    cases test head with
    | true => rfl
    | false => exact inductionHypothesis later

/-- The active row is found by reading the domains of the guards, which are there. -/
theorem MarkovMatrix.activeRowChecked?_eq {matrix : MarkovMatrix VariableId}
    {domains : Table Domain} (inside : ∀ guard ∈ matrix.rows.filterMap MarkovRow.guard,
      guard < domains.size) :
    matrix.activeRowChecked? domains = .ok
    (matrix.activeRow? fun guard => (domains.getD guard ∅).isValue 1) := by
  have found : matrix.rows.findM? (·.isOpenChecked domains) =
      .ok (matrix.rows.find? fun row => row.guard.all fun guard =>
        (domains.getD guard ∅).isValue 1) := by
    refine findM?_eq_ok fun row isRow => ?_
    rw [MarkovRow.isOpenChecked]
    cases guarded : row.guard with
    | none => rfl
    | some guard =>
      have early := inside guard (List.mem_filterMap.mpr ⟨row, isRow, guarded⟩)
      simp only [Table.get_eq_ok early ∅, Option.all_some]
      rfl
  rw [activeRowChecked?, found]
  rfl

namespace Propagator

open Checked

variable {network : Network} {state : Narrowing} {weighted : VariableId}
  {matrix : MarkovMatrix VariableId}

/-- The rule by weights passes its checks: it reads the guards and restricts the weighted
variable. -/
theorem agrees_markovChecked (readable : network.Readable state)
    (inside : ∀ variableId ∈ (markov weighted matrix).scope, variableId < network.vars.size) :
    Agrees network state (markovChecked weighted matrix) (propagateMarkov weighted matrix) := by
  have weightedInside := inside weighted (by simp)
  have guards : ∀ guard ∈ matrix.rows.filterMap MarkovRow.guard, guard < state.domains.size :=
    fun guard isGuard => readable.size_eq ▸ inside guard (mem_scope_markov.mpr (.inr isGuard))
  have weighs : ∀ value, ((matrix.activeRow? fun guard => (state.domainOf guard).isValue 1).elim 0.0
      (matrix.weightIn · value (state.domainOf weighted))) =
        matrix.weightOf value (state.domainOf weighted) fun guard =>
          (state.domainOf guard).isValue 1 := by
    intro value
    rw [MarkovMatrix.weightOf]
    cases (matrix.activeRow? fun guard => (state.domainOf guard).isValue 1) <;> rfl
  have read : Checked.domain weighted state = .ok (state.domainOf weighted) state :=
    domain_eq readable weightedInside
  cases solved : (state.domainOf weighted).solvedValue? with
  | none =>
    refine (agrees_pure readable ()).congr ?_ ?_
    · rw [markovChecked, bind_of_ok read, solved]
    · simp only [propagateMarkov, solved]
      rfl
  | some value =>
    have rows : (liftM (matrix.activeRowChecked? state.domains) :
        Checked (Option (MarkovRow VariableId))) state =
          .ok (matrix.activeRow? fun guard => (state.domainOf guard).isValue 1) state := by
      rw [MarkovMatrix.activeRowChecked?_eq guards]
      rfl
    have checks : markovChecked weighted matrix state =
        (if 0.0 < matrix.weightOf value (state.domainOf weighted) fun guard =>
          (state.domainOf guard).isValue 1 then pure () else Checked.restrict weighted ∅ :
            Checked Unit) state := by
      rw [markovChecked, bind_of_ok read, solved, ← weighs]
      exact bind_of_ok rows
    by_cases positive : 0.0 < matrix.weightOf value (state.domainOf weighted) fun guard =>
      (state.domainOf guard).isValue 1
    · refine (agrees_pure readable ()).congr ?_ ?_
      · rw [checks, if_pos positive]
      · simp only [propagateMarkov, solved, positive, if_true]
        rfl
    · refine (agrees_restrict readable weightedInside ∅).congr ?_ ?_
      · rw [checks, if_neg positive]
      · simp only [propagateMarkov, solved, positive, if_false]

/-- Every propagator over variables of the network runs in the same way with its checks. -/
theorem agrees_runChecked {propagator : Propagator}
    (inside : ∀ variableId ∈ propagator.scope, variableId < network.vars.size)
    (readable : network.Readable state) :
    Agrees network state propagator.runChecked propagator.run := by
  have counted : network.Readable state.counted :=
    ⟨readable.size_eq, readable.nonempty, readable.room, readable.listed⟩
  have agrees : Agrees network state.counted propagator.propagateChecked propagator.propagate := by
    cases propagator with
    | relation comparison left right =>
      exact comparison.agrees_propagateChecked counted (inside left (by simp))
        (inside right (by simp))
    | reified comparison left right result =>
      exact comparison.agrees_propagateReifiedChecked counted (inside left (by simp))
        (inside right (by simp)) (inside result (by simp))
    | ring operation left right result =>
      refine .domain counted (inside left (by simp)) ?_
      refine .domain counted (inside right (by simp)) ?_
      exact agrees_restrict counted (inside result (by simp)) _
    | markov weighted matrix => exact agrees_markovChecked counted inside
  exact ⟨agrees.same, agrees.readable, agrees.known⟩

end Propagator

/-! ### Checked cycles -/

/-- There is a list of attached propagators for each variable. -/
theorem size_attachedPropagators (vars : Variables) (propagators : Table Propagator) :
    (attachedPropagators vars propagators).size = vars.size := by
  rw [attachedPropagators_eq_foldr, size_foldr_attachTo]
  exact Table.size_map _ _

namespace Network

open Checked

variable {network : Network} {state : Narrowing} (coherent : network.Coherent)

include coherent

/-- The propagators attached to a variable are there, and run one after the other. -/
theorem agrees_runAttachedChecked (threshold : Nat) {variableId : VariableId}
    (inside : variableId < network.vars.size) (readable : network.Readable state) :
    Agrees network state (network.runAttachedChecked threshold variableId)
      (network.runAttached threshold variableId) := by
  have room : variableId < network.attached.size := by
    rw [coherent.attached_eq, size_attachedPropagators]
    exact inside
  refine .check (Table.get_eq_ok room []) ?_
  rw [runAttached]
  split
  · exact agrees_pure readable ()
  · refine agrees_forM (fun index attached state readable => ?_) readable
    rw [coherent.attached_eq, mem_attachedPropagators inside] at attached
    obtain ⟨propagator, found, _⟩ := attached
    have read : network.propagators.get index = .ok propagator := by rw [Table.get, found]; rfl
    refine .check read ?_
    rw [runPropagator, found]
    exact Propagator.agrees_runChecked (coherent.scope_lt found) readable

omit coherent in
/-- A new round of changes has room for as many variables as the one before. -/
theorem Readable.next (readable : network.Readable state) {other : Narrowing}
    (sameDomains : other.domains = state.domains)
    (nextChanges : other.changes = state.changes.next) : network.Readable other where
  size_eq := sameDomains ▸ readable.size_eq
  nonempty variableId inside := by
    rw [Narrowing.domainOf, sameDomains]
    exact readable.nonempty variableId inside
  room := by
    rw [nextChanges, Changes.capacity_next]
    exact readable.room
  listed := by
    rw [nextChanges]
    exact fun _ inside => absurd inside List.not_mem_nil

/-- As many cycles as there are values and changes are enough. -/
theorem agrees_settleChecked {cycles threshold cycle : Nat} (readable : network.Readable state)
    (enough : state.potential < cycles) :
    Agrees network state (network.settleChecked cycles threshold cycle)
      (network.settle threshold cycle) := by
  induction cycles generalizing state threshold cycle with
  | zero => exact absurd enough (Nat.not_lt_zero _)
  | succ cycles inductionHypothesis =>
    by_cases quiet : state.changes.order.isEmpty
    · have settled : network.Readable { state with changes := state.changes.next } :=
        readable.next rfl rfl
      refine (agrees_pure settled ()).congr ?_ ?_
      · change (if state.changes.order.isEmpty then
          set { state with changes := state.changes.next } else _ : Checked Unit) state = _
        rw [if_pos quiet]
        rfl
      · rw [settle_eq, if_pos quiet]
        rfl
    · have changed := readable.listed
      have started : network.Readable (state.startCycle cycle) := readable.next rfl rfl
      have runs : Agrees network (state.startCycle cycle)
          (state.changes.order.toList.forM (network.runAttachedChecked threshold) >>= fun _ =>
            network.settleChecked cycles 2 (cycle + 1))
          (state.changes.order.toList.forM (network.runAttached threshold) >>= fun _ =>
              network.settle 2 (cycle + 1)) := by
        refine (agrees_forM (fun variableId inside state readable => ?_) started).bind
          fun _ middle ran middleReadable => ?_
        · exact agrees_runAttachedChecked coherent threshold (changed variableId inside) readable
        · have steady :=
            trend_potential.follows_forM (network.follows_runAttached trend_potential threshold)
              state.changes.order.toList (state.startCycle cycle)
          rw [after_of_ok ran] at steady
          have lower := Narrowing.potential_startCycle_lt cycle quiet
          -- Starting takes the listed changes away, and every new one costs a value.
          exact inductionHypothesis middleReadable (by omega)
      refine runs.congr ?_ ?_
      · change (if state.changes.order.isEmpty then _ else do
          set (state.startCycle cycle)
          state.changes.order.toList.forM (network.runAttachedChecked threshold)
          network.settleChecked cycles 2 (cycle + 1) : Checked Unit) state = _
        rw [if_neg quiet]
        rfl
      · rw [settle_eq, if_neg quiet]
        simp only [Bind.bind, EStateM.bind]
        cases state.changes.order.toList.forM (network.runAttached threshold)
          (state.startCycle cycle) <;> rfl

section Fixpoint

variable {cycles : Nat} (size_eq : state.domains.size = network.vars.size)
  (room : state.changes.recorded.capacity = network.vars.size)
  (enough : valuesLeft state.domains + 1 < cycles)

include size_eq room enough

/-- All checks pass when a child is propagated whose domains have values. -/
theorem agrees_fixpointChecked_of_child {variableId : VariableId}
    (inside : variableId < network.vars.size)
    (nonempty : ∀ variableId < network.vars.size, (state.domainOf variableId).Nonempty) :
    Agrees network state (network.fixpointChecked cycles (some variableId))
      (network.fixpoint (some variableId)) := by
  have roomAfter : state.changes.next.recorded.capacity = network.vars.size :=
    (Changes.capacity_next _).trans room
  have started : network.Readable { state with changes := state.changes.next.record variableId } :=
    ⟨size_eq, nonempty, (Changes.capacity_record ..).trans roomAfter,
      Changes.lt_of_mem_order_record inside fun _ member => absurd member List.not_mem_nil⟩
  have lower : Narrowing.potential { state with changes := state.changes.next.record variableId } <
      cycles := by
    have := state.changes.next.size_order_record_le variableId
    rw [Changes.size_order_next] at this
    exact Nat.lt_of_le_of_lt (Nat.add_le_add_left this _) enough
  refine (agrees_settleChecked coherent started lower).congr ?_ rfl
  have recorded :=
    @record_eq { state with changes := state.changes.next } variableId (roomAfter ▸ inside)
  exact bind_of_ok recorded

/-- All checks pass when the root is propagated. -/
theorem agrees_fixpointChecked_of_root :
    Agrees network state (network.fixpointChecked cycles none) (network.fixpoint none) := by
  have reset : (modify fun state => { state with changes := state.changes.next } : Checked Unit)
      state = .ok () { state with changes := state.changes.next } := rfl
  have read : (get : Checked Narrowing) { state with changes := state.changes.next } =
      .ok { state with changes := state.changes.next }
      { state with changes := state.changes.next } := rfl
  cases firstEmpty : firstEmpty? state.domains with
  | some variableId =>
    have inside : variableId < network.vars.size := by
      rw [firstEmpty?, Table.findKey?, Array.findIdx?_eq_some_iff_getElem] at firstEmpty
      exact size_eq ▸ firstEmpty.1
    have fails : network.fixpoint none state = .error variableId
        { state with changes := state.changes.next } := by
      simp only [fixpoint, firstEmpty]
    have checks : network.fixpointChecked cycles none state =
        .error (.empty variableId) { state with changes := state.changes.next } := by
      rw [fixpointChecked, bind_of_ok reset, bind_of_ok read, firstEmpty]
      rfl
    refine ⟨by rw [checks, fails, outcome], ?_, ?_⟩
    · rw [fails]
      exact fun _ _ ran => by cases ran
    · rw [fails]
      rintro _ _ ⟨rfl, rfl⟩
      exact ⟨inside, (Changes.capacity_next _).trans room⟩
  | none =>
    have started : network.Readable { state with changes := state.changes.next } :=
      ⟨size_eq, fun variableId inside =>
        firstEmpty?_eq_none_iff.mp firstEmpty variableId (size_eq ▸ inside),
        (Changes.capacity_next _).trans room, fun _ member => absurd member List.not_mem_nil⟩
    have runs : Agrees network { state with changes := state.changes.next }
        (network.propagators.toList.forM Propagator.runChecked >>= fun _ =>
          network.settleChecked cycles 2 0)
        (network.propagators.toList.forM Propagator.run >>= fun _ => network.settle 2 0) := by
      refine (agrees_forM (fun propagator inside state readable => ?_) started).bind
        fun _ middle ran middleReadable => ?_
      · obtain ⟨index, found⟩ := Table.mem_toList_iff.mp inside
        exact Propagator.agrees_runChecked (coherent.scope_lt found) readable
      · have steady := trend_potential.follows_forM (Propagator.follows_run trend_potential)
          network.propagators.toList { state with changes := state.changes.next }
        rw [after_of_ok ran] at steady
        have start : Narrowing.potential { state with changes := state.changes.next } =
            valuesLeft state.domains := rfl
        exact agrees_settleChecked coherent middleReadable (by omega)
    refine runs.congr ?_ ?_
    · rw [fixpointChecked, bind_of_ok reset, bind_of_ok read, firstEmpty]
    · simp only [fixpoint, firstEmpty, Bind.bind, EStateM.bind]
      cases network.propagators.toList.forM Propagator.run
        { state with changes := state.changes.next } <;> rfl

end Fixpoint

end Network

end ConstraintSearch
