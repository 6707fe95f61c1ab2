import ConstraintSearch.Network.Basic
import ConstraintSearch.Search.Potential

/-!
# Propagation to a fixpoint

The propagators run in cycles until a cycle changes nothing. A cycle runs the propagators of the
variables that changed in the one before it. The root runs every propagator first; a child starts
from the variable it was made by.
-/

namespace ConstraintSearch

open Narrow

namespace Network

/-- Runs one propagator of the network. -/
def runPropagator (network : Network) (index : Nat) : Narrow Unit :=
  match network.propagators.get? index with
  | none => pure ()
  | some propagator => propagator.run

/-- Runs the propagators of a variable that changed, unless it has fewer than the threshold. -/
def runAttached (network : Network) (threshold : Nat) (variableId : VariableId) : Narrow Unit :=
  let attached := network.attached.getD variableId []
  if attached.length < threshold then pure () else attached.forM network.runPropagator

variable {Along : Narrowing → Narrowing → Prop}

/-- A run of a propagator follows every trend. -/
theorem follows_runPropagator (trend : Trend Along) (network : Network) (index : Nat) :
    Follows (network.runPropagator index) Along := by
  rw [runPropagator]
  split
  · exact trend.follows_pure ()
  · exact Propagator.follows_run trend _

/-- So do the runs of those attached to a variable. -/
theorem follows_runAttached (trend : Trend Along) (network : Network) (threshold : Nat)
    (variableId : VariableId) : Follows (network.runAttached threshold variableId) Along := by
  simp only [runAttached]
  split
  · exact trend.follows_pure ()
  · exact trend.follows_forM (network.follows_runPropagator trend) _

end Network

/-- Starts a cycle: the changes noted so far are used up. -/
def Narrowing.startCycle (state : Narrowing) (cycle : Nat) : Narrowing :=
  { state with
    changes := state.changes.next
    journal := state.journal.note (.cycleStarted cycle state.changes.order.size) }

/-- A cycle that starts with changes uses up some potential. -/
theorem Narrowing.potential_startCycle_lt {state : Narrowing} (cycle : Nat)
    (changed : ¬ state.changes.order.isEmpty) :
    (state.startCycle cycle).potential < state.potential := by
  have : state.changes.order.size ≠ 0 := by simpa using changed
  simp only [startCycle, potential, Changes.size_order_next]
  omega

namespace Network

/-- Runs cycles until one changes nothing. In the first cycle of a child every propagator of a
changed variable has to run. In every later one, a variable with a single propagator was changed by
that propagator, which need not run again: the threshold is then 2. -/
def settle (network : Network) (threshold cycle : Nat) (state : Narrowing) :
    EStateM.Result VariableId Narrowing Unit :=
  if _quiet : state.changes.order.isEmpty then
    .ok () { state with changes := state.changes.next }
  else
    match ran : state.changes.order.toList.forM (network.runAttached threshold)
        (state.startCycle cycle) with
    | .ok _ after => network.settle 2 (cycle + 1) after
    | .error variableId after => .error variableId after
termination_by state.potential
decreasing_by
  have steady :=
    trend_potential.follows_forM (network.follows_runAttached trend_potential threshold)
    state.changes.order.toList (state.startCycle cycle)
  simp only [Narrow.after, ran] at steady
  exact Nat.lt_of_le_of_lt steady (Narrowing.potential_startCycle_lt cycle _quiet)

/-- The first variable without a value. -/
def firstEmpty? (domains : Table Domain) : Option VariableId :=
  domains.findKey? Domain.isEmpty

/-- Narrows the domains until no propagator changes them. The root, where no variable has changed,
fails at once if a variable has no value, and runs every propagator first. -/
def fixpoint (network : Network) (changed : Option VariableId) : Narrow Unit := fun state =>
  let state := { state with changes := state.changes.next }
  match changed with
  | some variableId =>
    network.settle 1 0 { state with changes := state.changes.record variableId }
  | none =>
    match firstEmpty? state.domains with
    | some variableId => .error variableId state
    | none =>
      match network.propagators.toList.forM Propagator.run state with
      | .ok _ after => network.settle 2 0 after
      | .error variableId after => .error variableId after

/-- One cycle of `settle`, without the reason why it ends. -/
theorem settle_eq (network : Network) (threshold cycle : Nat) (state : Narrowing) :
    network.settle threshold cycle state =
      if state.changes.order.isEmpty then
        .ok () { state with changes := state.changes.next }
      else
        match state.changes.order.toList.forM (network.runAttached threshold)
            (state.startCycle cycle) with
        | .ok _ after => network.settle 2 (cycle + 1) after
        | .error variableId after => .error variableId after := by
  rw [settle]
  split
  · rfl
  · split <;> rename_i ran <;> rw [ran]

/-- The cycles from a state on come to the result: there is none since nothing has changed, one is
followed by others, or one leaves a variable without a value. -/
inductive Cycles (network : Network) :
    (threshold cycle : Nat) → Narrowing → EStateM.Result VariableId Narrowing Unit → Prop
  | quiet {threshold cycle : Nat} {state : Narrowing}
    (unchanged : state.changes.order.isEmpty) :
    Cycles network threshold cycle state (.ok () { state with changes := state.changes.next })
  | again {threshold cycle : Nat} {state after : Narrowing}
    {result : EStateM.Result VariableId Narrowing Unit}
    (changed : ¬ state.changes.order.isEmpty)
    (ran : state.changes.order.toList.forM (network.runAttached threshold)
      (state.startCycle cycle) = .ok () after)
    (later : Cycles network 2 (cycle + 1) after result) :
    Cycles network threshold cycle state result
  | failed {threshold cycle : Nat} {state after : Narrowing} {variableId : VariableId}
    (changed : ¬ state.changes.order.isEmpty)
    (ran : state.changes.order.toList.forM (network.runAttached threshold)
      (state.startCycle cycle) = .error variableId after) :
    Cycles network threshold cycle state (.error variableId after)

/-- Every propagation goes through such cycles. -/
theorem cycles (network : Network) (threshold cycle : Nat) (state : Narrowing) :
    network.Cycles threshold cycle state (network.settle threshold cycle state) := by
  refine settle.induct_unfolding network network.Cycles ?quiet ?again ?failed threshold cycle state
  case quiet =>
    intro threshold cycle state unchanged
    exact .quiet unchanged
  case again =>
    intro threshold cycle state changed _ after ran later
    exact .again changed ran later
  case failed =>
    intro threshold cycle state changed variableId after ran
    exact .failed changed ran

/-- The cycles determine what the propagation comes to. -/
theorem Cycles.eq {network : Network} {threshold cycle : Nat} {state : Narrowing}
    {result : EStateM.Result VariableId Narrowing Unit}
    (cycles : network.Cycles threshold cycle state result) :
    network.settle threshold cycle state = result := by
  induction cycles with
  | quiet unchanged => rw [settle_eq, if_pos unchanged]
  | again changed ran later inductionHypothesis =>
    rw [settle_eq, if_neg changed, ran]
    exact inductionHypothesis
  | failed changed ran => rw [settle_eq, if_neg changed, ran]

/-- A trend that also holds when the noted changes are used up, whatever the journal tells of it,
and when a change is noted. -/
structure CycleTrend (Along : Narrowing → Narrowing → Prop) : Prop extends Trend Along where
  next : ∀ (state : Narrowing) (journal : Journal),
    Along state { state with changes := state.changes.next, journal }
  record : ∀ (state : Narrowing) (variableId : VariableId),
    Along state { state with changes := state.changes.record variableId }

namespace CycleTrend

variable {Along : Narrowing → Narrowing → Prop}

/-- Cycles follow every trend that their starts follow. -/
theorem follows_settle (trend : CycleTrend Along) (network : Network) (threshold cycle : Nat) :
    Follows (network.settle threshold cycle) Along := by
  intro state
  have cycleAlong : ∀ threshold cycle (state : Narrowing), Along state
      (Narrow.after (state.changes.order.toList.forM (network.runAttached threshold))
        (state.startCycle cycle)) :=
    fun threshold cycle state => trend.trans (trend.next state _)
      (trend.follows_forM (network.follows_runAttached trend.toTrend threshold) _
        (state.startCycle cycle))
  have cycles := network.cycles threshold cycle state
  simp only [Narrow.after]
  generalize network.settle threshold cycle state = result at cycles ⊢
  induction cycles with
  | @quiet threshold cycle state unchanged => exact trend.next state state.journal
  | @again threshold cycle state middle result changed ran later inductionHypothesis =>
    have along := cycleAlong threshold cycle state
    rw [after_of_ok ran] at along
    exact trend.trans along inductionHypothesis
  | @failed threshold cycle state final variableId changed ran =>
    have along := cycleAlong threshold cycle state
    rw [after_of_error ran] at along
    exact along

/-- Propagation follows every trend that the starts of its cycles follow. -/
theorem follows_fixpoint (trend : CycleTrend Along) (network : Network)
    (changed : Option VariableId) : Follows (network.fixpoint changed) Along := by
  intro state
  have renewed := trend.next state state.journal
  cases changed with
  | some variableId =>
    exact trend.trans (trend.trans renewed (trend.record _ variableId))
      (trend.follows_settle network 1 0 _)
  | none =>
    have along := trend.trans renewed
      (trend.follows_forM (Propagator.follows_run trend.toTrend) network.propagators.toList _)
    simp only [Narrow.after, fixpoint] at along ⊢
    cases firstEmpty? state.domains with
    | some variableId => exact renewed
    | none =>
      cases ran : network.propagators.toList.forM Propagator.run
          { state with changes := state.changes.next } with
      | ok _ middle =>
        rw [ran] at along
        exact trend.trans along (trend.follows_settle network 2 0 middle)
      | error variableId failed =>
        rw [ran] at along
        exact along

end CycleTrend

/-- Noted changes are no part of the domains. -/
theorem cycleTrend_of_onDomains {Along : Table Domain → Table Domain → Prop}
    (trend : Trend (OnDomains Along)) : CycleTrend (OnDomains Along) where
  toTrend := trend
  next state _ := trend.refl state
  record state _ := trend.refl state

/-- Propagation follows every trend of the domains. -/
theorem follows_fixpoint {Along : Table Domain → Table Domain → Prop}
    (trend : Trend (OnDomains Along)) (network : Network) (changed : Option VariableId) :
    Follows (network.fixpoint changed) (OnDomains Along) :=
  (cycleTrend_of_onDomains trend).follows_fixpoint network changed

end Network

end ConstraintSearch
