import ConstraintSearch.Proofs.Propagation.Narrows

/-!
# Rules

A rule restricts the domain of one variable to the values that the domains of other variables
support. Every propagator follows a few rules one after the other. What is said here of a list of
rules is then said of every propagator: when it leaves the domains as they are, what it does to them
otherwise, and which smaller domains it cannot touch.
-/

namespace ConstraintSearch

open Narrow

/-- A domain for every variable. -/
abbrev Family :=
  VariableId → Domain

/-- Every domain of the first family is a part of that of the second one. -/
def Within (inner outer : Family) : Prop :=
  ∀ variableId, inner variableId ⊆ outer variableId

theorem Within.refl (family : Family) : Within family family :=
  fun _ => Domain.Subset.refl _

theorem Within.trans {first second third : Family} (lower : Within first second)
    (upper : Within second third) : Within first third :=
  fun variableId => Domain.Subset.trans (lower variableId) (upper variableId)

/-- A restriction of one variable to the values that a family supports; none where it supports every
value. -/
structure Rule where
  target : VariableId
  support : Family → Option Domain

namespace Rule

/-- The family supports the value for the target. -/
def Admits (rule : Rule) (family : Family) (value : Int) : Prop :=
  ∀ supported, rule.support family = some supported → value ∈ supported

/-- The family supports every value that the target has in it. -/
def Keeps (rule : Rule) (family : Family) : Prop :=
  ∀ value ∈ family rule.target, rule.Admits family value

/-- The rule that supports the same values whatever the family. -/
def always (target : VariableId) (supported : Domain) : Rule where
  target
  support _ := some supported

/-- Restricts the target to the supported values. -/
def follow (rule : Rule) : Narrow Unit := fun state =>
  match rule.support state.domainOf with
  | none => .ok () state
  | some supported => restrict rule.target supported state

/-- What a rule does to the domains when it does not fail. -/
structure Followed (rule : Rule) (before after : Narrowing) : Prop where
  narrows : Narrows before after
  mem_target : ∀ value, value ∈ after.domainOf rule.target ↔
    value ∈ before.domainOf rule.target ∧ rule.Admits before.domainOf value
  elsewhere : ∀ other, other ≠ rule.target → after.domainOf other = before.domainOf other

variable {rule : Rule} {state : Narrowing}

/-- A rule fails when no value of the target is supported. -/
theorem follow_cases (nonempty : (state.domainOf rule.target).Nonempty) :
    ((∃ failed, rule.follow state = .error rule.target failed) ∧
        ∀ value ∈ state.domainOf rule.target, ¬ rule.Admits state.domainOf value) ∨
      ∃ after, rule.follow state = .ok () after ∧ rule.Followed state after := by
  simp only [follow, Admits]
  cases support : rule.support state.domainOf with
  | none =>
    refine .inr ⟨state, rfl, Narrows.refl state, fun value => ?_, fun _ _ => rfl⟩
    simp [Admits, support]
  | some supported =>
    have admits : ∀ {value}, rule.Admits state.domainOf value ↔ value ∈ supported := by
      simp [Admits, support]
    rcases restrict_cases supported nonempty
      with ⟨failed, unsupported⟩ | ⟨ran, subset⟩ | ⟨after, ran, narrows, target, elsewhere⟩
    · refine .inl ⟨failed, fun value member admitted => ?_⟩
      exact unsupported value member (admitted supported rfl)
    · refine .inr ⟨state, ran, Narrows.refl state, fun value => ?_, fun _ _ => rfl⟩
      rw [admits]
      exact (and_iff_left_of_imp (subset value)).symm
    · refine .inr ⟨after, ran, narrows, fun value => ?_, elsewhere⟩
      rw [target, Domain.mem_inter, admits]

/-- A rule changes nothing about domains that it keeps. -/
theorem follow_of_keeps (nonempty : (state.domainOf rule.target).Nonempty)
    (keeps : rule.Keeps state.domainOf) : rule.follow state = .ok () state := by
  rw [follow]
  split
  · rfl
  · rename_i supported support
    have same : state.domainOf rule.target ∩ supported = state.domainOf rule.target :=
      Domain.inter_eq_left_iff.mpr fun value member => keeps value member supported support
    simp only [restrict, same, Domain.isEmpty_eq_false_iff.mpr nonempty, Bool.false_eq_true,
      if_false, if_true]

/-- A rule that changes nothing keeps the domains. -/
theorem Followed.keeps {after : Narrowing} (followed : rule.Followed state after)
    (same : after.domainOf rule.target = state.domainOf rule.target) :
    rule.Keeps state.domainOf := by
  intro value member
  rw [← same] at member
  exact ((followed.mem_target value).mp member).2

/-! ### One rule after the other -/

/-- Follows the rules from the first one to the last one. -/
def followAll : List Rule → Narrow Unit
  | [] => pure ()
  | rule :: rest => do
    rule.follow
    followAll rest

/-- After a rule that succeeds, the others are followed. -/
theorem followAll_cons_of_ok {rest : List Rule} {after : Narrowing}
    (ran : rule.follow state = .ok () after) :
    followAll (rule :: rest) state = followAll rest after := by
  simp only [followAll, Bind.bind, EStateM.bind, ran]

/-- After one that fails, none of them is. -/
theorem followAll_cons_of_error {rest : List Rule} {failed : Narrowing} {variableId : VariableId}
    (ran : rule.follow state = .error variableId failed) :
    followAll (rule :: rest) state = .error variableId failed := by
  simp only [followAll, Bind.bind, EStateM.bind, ran]

/-- A list of one rule is that rule. -/
theorem followAll_singleton (rule : Rule) (state : Narrowing) :
    followAll [rule] state = rule.follow state := by
  cases ran : rule.follow state with
  | ok result after => exact followAll_cons_of_ok ran
  | error variableId failed => exact followAll_cons_of_error ran

/-- A rule that does not depend on the family is a restriction. -/
theorem followAll_always (target : VariableId) (supported : Domain) (state : Narrowing) :
    followAll [always target supported] state = restrict target supported state :=
  followAll_singleton _ _

/-- The first of some rules was followed before the others. -/
theorem exists_of_followAll_cons {rest : List Rule} {final : Narrowing}
    (ran : followAll (rule :: rest) state = .ok () final)
    (nonempty : (state.domainOf rule.target).Nonempty) :
    ∃ middle, rule.Followed state middle ∧ followAll rest middle = .ok () final := by
  rcases follow_cases nonempty with ⟨⟨failed, first⟩, _⟩ | ⟨middle, first, followed⟩
  · rw [followAll_cons_of_error first] at ran
    cases ran
  · rw [followAll_cons_of_ok first] at ran
    exact ⟨middle, followed, ran⟩

/-- After the rule its target has supported values only. -/
theorem subset_of_followAll_always {target : VariableId} {supported : Domain} {final : Narrowing}
    (ran : followAll [always target supported] state = .ok () final)
    (nonempty : (state.domainOf target).Nonempty) :
    final.domainOf target ⊆ supported := by
  obtain ⟨_, followed, ⟨rfl⟩⟩ := exists_of_followAll_cons ran nonempty
  intro value member
  exact ((followed.mem_target value).mp member).2 supported rfl

/-- Rules that succeed narrow domains, one after the other. -/
theorem narrows_of_followAll {rules : List Rule} {final : Narrowing}
    (ran : followAll rules state = .ok () final)
    (nonempty : ∀ rule ∈ rules, (state.domainOf rule.target).Nonempty) :
    Narrows state final := by
  induction rules generalizing state with
  | nil =>
    cases ran
    exact Narrows.refl _
  | cons first rest inductionHypothesis =>
    obtain ⟨middle, followed, restRan⟩ :=
      exists_of_followAll_cons ran (nonempty first List.mem_cons_self)
    refine followed.narrows.trans (inductionHypothesis restRan fun other inside => ?_)
    exact followed.narrows.nonempty (nonempty other (List.mem_cons_of_mem _ inside))

/-- Only the targets of the rules change. -/
theorem elsewhere_of_followAll {rules : List Rule} {final : Narrowing} {variableId : VariableId}
    (ran : followAll rules state = .ok () final)
    (nonempty : ∀ rule ∈ rules, (state.domainOf rule.target).Nonempty)
    (untargeted : ∀ rule ∈ rules, variableId ≠ rule.target) :
    final.domainOf variableId = state.domainOf variableId := by
  induction rules generalizing state with
  | nil =>
    cases ran
    rfl
  | cons first rest inductionHypothesis =>
    obtain ⟨middle, followed, restRan⟩ :=
      exists_of_followAll_cons ran (nonempty first List.mem_cons_self)
    have later := inductionHypothesis restRan
      (fun other inside => followed.narrows.nonempty
        (nonempty other (List.mem_cons_of_mem _ inside)))
      fun other inside => untargeted other (List.mem_cons_of_mem _ inside)
    exact later.trans (followed.elsewhere variableId (untargeted first List.mem_cons_self))

/-- Rules change nothing about domains that all of them keep. -/
theorem followAll_of_keeps {rules : List Rule}
    (nonempty : ∀ rule ∈ rules, (state.domainOf rule.target).Nonempty)
    (keeps : ∀ rule ∈ rules, rule.Keeps state.domainOf) : followAll rules state = .ok () state := by
  induction rules with
  | nil => rfl
  | cons first rest inductionHypothesis =>
    have ran := follow_of_keeps (nonempty first List.mem_cons_self) (keeps first List.mem_cons_self)
    rw [followAll_cons_of_ok ran]
    exact inductionHypothesis (fun rule inside => nonempty rule (List.mem_cons_of_mem _ inside))
      fun rule inside => keeps rule (List.mem_cons_of_mem _ inside)

/-- Rules that change nothing together keep the domains one by one. -/
theorem keeps_of_followAll {rules : List Rule} {final : Narrowing}
    (ran : followAll rules state = .ok () final)
    (nonempty : ∀ rule ∈ rules, (state.domainOf rule.target).Nonempty)
    (same : final.domainOf = state.domainOf) : ∀ rule ∈ rules, rule.Keeps state.domainOf := by
  induction rules generalizing state with
  | nil => simp
  | cons first rest inductionHypothesis =>
    obtain ⟨middle, followed, restRan⟩ :=
      exists_of_followAll_cons ran (nonempty first List.mem_cons_self)
    have restNonempty : ∀ rule ∈ rest, (middle.domainOf rule.target).Nonempty := fun rule inside =>
      followed.narrows.nonempty (nonempty rule (List.mem_cons_of_mem _ inside))
    have restNarrows := narrows_of_followAll restRan restNonempty
    have sameMiddle : middle.domainOf = state.domainOf := by
      funext variableId
      exact followed.narrows.eq_of_eq restNarrows (congrFun same variableId)
    have restKeeps := inductionHypothesis restRan restNonempty (same.trans sameMiddle.symm)
    rw [sameMiddle] at restKeeps
    intro rule inside
    rcases List.mem_cons.mp inside with rfl | inRest
    · exact followed.keeps (congrFun sameMiddle _)
    · exact restKeeps rule inRest

/-- Rules never touch a family within the domains whose values they admit whatever domains around
the family they see. -/
theorem followAll_shelters {rules : List Rule} {inner : Family}
    (nonempty : ∀ rule ∈ rules, (inner rule.target).Nonempty) (within : Within inner state.domainOf)
    (admits : ∀ rule ∈ rules, ∀ outer, Within inner outer → Within outer state.domainOf →
      ∀ value ∈ inner rule.target, rule.Admits outer value) :
    ∃ final, followAll rules state = .ok () final ∧ Within inner final.domainOf := by
  induction rules generalizing state with
  | nil => exact ⟨state, rfl, within⟩
  | cons first rest inductionHypothesis =>
    have firstNonempty := nonempty first List.mem_cons_self
    have firstAdmits := admits first List.mem_cons_self state.domainOf within (Within.refl _)
    rcases follow_cases (firstNonempty.of_subset (within first.target))
      with ⟨_, unsupported⟩ | ⟨middle, ran, followed⟩
    · obtain ⟨value, member⟩ := firstNonempty
      exact absurd (firstAdmits value member) (unsupported value (within _ value member))
    · have sheltered : Within inner middle.domainOf := by
        intro variableId value member
        by_cases isTarget : variableId = first.target
        · subst isTarget
          exact (followed.mem_target value).mpr ⟨within _ value member, firstAdmits value member⟩
        · rw [followed.elsewhere variableId isTarget]
          exact within variableId value member
      rw [followAll_cons_of_ok ran]
      apply inductionHypothesis (fun rule inside =>
        nonempty rule (List.mem_cons_of_mem _ inside)) sheltered
      intro rule inside outer innerWithin outerWithin
      exact admits rule (List.mem_cons_of_mem _ inside) outer innerWithin
        (outerWithin.trans followed.narrows.subset)

end Rule

end ConstraintSearch
