import ConstraintSearch.Proofs.Model.Recording

/-!
# Models stay intact

A model keeps variables, literals, constraints and strategies in tables of their own, with indexes
that lead from names, values and signatures to places in them. `Model.Intact` says how they fit
together; a network on top of the model shares the names and the places of its variables. Every
reachable model is intact, whichever of the requests for it were refused half-way.
-/

namespace ConstraintSearch

open Build

/-! ### What is intact -/

/-- The constraint has the form that its operator asks for, and is about the variables. -/
structure Constraint.FitsInto (constraint : Constraint) (vars : Variables) : Prop where
  accepts : constraint.operator.arity.accepts constraint.operands.length
  result_isSome : constraint.result.isSome = constraint.operator.producesValue
  scope_lt : ∀ variableId ∈ constraint.scope, variableId < vars.size
  truth : constraint.operator.isReified → ∀ result, constraint.result = some result →
    (vars.domainOf result).Nonempty ∧ vars.domainOf result ⊆ .range 0 1

/-- The network stands on the variables, and what it adds to them are inner results. -/
structure Network.StandsOn (network : Network) (vars : Variables) : Prop where
  declared_eq : network.declared = vars.size
  size_le : network.declared ≤ network.vars.size
  get?_eq : ∀ variableId < network.declared, network.vars.get? variableId = vars.get? variableId
  generated : ∀ variableId, network.declared ≤ variableId → variableId < network.vars.size →
    ∃ attempt, network.vars.get? variableId = some ⟨generatedName variableId attempt, .full, none⟩
  scope_lt : ∀ propagator ∈ network.propagators.toList, ∀ variableId ∈ propagator.scope,
    variableId < network.vars.size
  targeted_lt : ∀ variableId ∈ network.targeted, variableId < network.vars.size
  targeted_nodup : network.targeted.Nodup
  strategies_lt : ∀ variableId strategy, network.strategies.get? variableId = some (some strategy) →
    variableId < network.declared

namespace Model

/-- The tables of the model and its indexes fit together. -/
structure Intact (model : Model) : Prop where
  /-- Every place below the number of variables, and no other, has a variable with a name and a
  domain. -/
  lt_size_iff : ∀ variableId, variableId < model.allVariables.size ↔
    ∃ entry, model.allVariables.get? variableId = some entry
  find?_eq_some_iff : ∀ name variableId, model.find? name = some variableId ↔
    ∃ entry, model.allVariables.get? variableId = some entry ∧ entry.name = name
  name_inj : ∀ first second entry other, model.allVariables.get? first = some entry →
    model.allVariables.get? second = some other → entry.name = other.name → first = second
  constant : ∀ value variableId, model.constant? value = some variableId →
    variableId < model.vars.size ∧ ∀ other, other ∈ model.vars.domainOf variableId ↔ other = value
  signature_iff : ∀ operator operands index,
    model.constraints.keyOf? (signature operator operands) = some index ↔ ∃ constraint,
      model.constraints.get? index = some constraint ∧ constraint.operator = operator ∧
        constraint.operands = operands
  constraint : ∀ constraint ∈ model.constraints.toList, constraint.FitsInto model.vars
  strategy_lt : ∀ variableId entry, model.allVariables.get? variableId = some entry →
    entry.strategy.isSome → variableId < model.vars.size
  network : ∀ network, model.network = some network → network.StandsOn model.vars

/-! ### What requests keep -/

/-- What requests keep, besides soundness, so that the model is intact. -/
structure Orderly (model : Model) : Prop where
  names : model.vars.Distinct
  signatures : model.constraints.Distinct
  fixesLiterals : model.FixesLiterals
  truthful : model.Truthful

variable {model before after : Model}

/-- The empty model is orderly. -/
theorem orderly_empty : ({} : Model).Orderly where
  names := Directory.distinct_empty
  signatures := Directory.distinct_empty
  fixesLiterals := fixesLiterals_empty
  truthful := nofun

/-- A constraint is only added where there is none with its signature. -/
theorem distinct_assert (distinct : model.constraints.Distinct) (constraint : Constraint) :
    (model.assert constraint).constraints.Distinct := by
  rw [assert]
  split
  · rename_i new
    exact distinct.push (Directory.keyOf?_eq_none_of_find? (Option.isNone_iff_eq_none.mp new))
  · exact distinct

/-- Recording a constraint adds none with the operator and the operands of another one. -/
theorem distinct_record (distinct : model.constraints.Distinct) (constraint : Constraint) :
    (model.record constraint).constraints.Distinct := by
  rw [record]
  split
  · split
    · exact distinct_assert distinct _
    · exact distinct
  · exact distinct_assert distinct constraint

/-- A model stays orderly as long as its constraints stay. -/
theorem Orderly.of_keeps (orderly : before.Orderly) (keeps : before.Keeps after) :
    after.Orderly where
  names := keeps.distinct orderly.names
  signatures := keeps.constraints_eq ▸ orderly.signatures
  fixesLiterals := keeps.fixesLiterals orderly.fixesLiterals
  truthful := keeps.truthful orderly.truthful

/-- It stays so when a constraint is recorded. -/
theorem Orderly.of_records (orderly : before.Orderly) {declaration : Declaration}
    {constraint : Constraint} (records : before.Records after declaration constraint) :
    after.Orderly where
  names := records.distinct orderly.names
  signatures := records.constraints_eq ▸ distinct_record orderly.signatures constraint
  fixesLiterals := records.fixesLiterals orderly.fixesLiterals
  truthful := records.truthful orderly.truthful

end Model

/-- A request leaves the constraints as they were, or records one; when it is refused, it leaves
them as they were. -/
theorem Request.keeps_or_records (request : Request) {workspace : Workspace}
    (sound : workspace.model.Sound) : workspace.model.Keeps (request.after workspace).model ∨
      ∃ declaration constraint, workspace.model.Records (request.after workspace).model declaration
        constraint := by
  by_cases constrains : request.Constrains
  · obtain ⟨operator, operands, result, rfl⟩ := constrains
    -- Both ends of the call say the same, so that it does not matter below which of them was
    -- reached.
    have leads : Leads (addConstraint operator operands result) workspace.model
        (fun _ after => workspace.model.Keeps after ∨
          ∃ declaration constraint, workspace.model.Records after declaration constraint)
        (fun after => workspace.model.Keeps after ∨
          ∃ declaration constraint, workspace.model.Records after declaration constraint) :=
      (leads_addConstraint sound).imp (fun _ _ ⟨constraint, records, _⟩ =>
        .inr ⟨_, constraint, records⟩) fun _ => .inl
    exact leads.discard.along
  · exact .inl (keeps_after constrains sound)

/-- Every reachable model is orderly. -/
theorem Workspace.Reachable.orderly {workspace : Workspace} (reachable : workspace.Reachable) :
    workspace.model.Orderly := by
  induction reachable with
  | empty journal => exact Model.orderly_empty
  | request reachable request inductionHypothesis =>
    rcases request.keeps_or_records reachable.sound with keeps | ⟨declaration, constraint, records⟩
    · exact inductionHypothesis.of_keeps keeps
    · exact inductionHypothesis.of_records records

/-! ### From what is kept to intact models -/

/-- A well-formed constraint has as many operands as its operator takes. -/
theorem Constraint.WellFormed.accepts {constraint : Constraint}
    (wellFormed : constraint.WellFormed) :
    constraint.operator.arity.accepts constraint.operands.length := by
  cases wellFormed with
  | sum operands _ hasOperands | product operands _ hasOperands =>
    simpa [Operator.arity, Arity.accepts, Nat.one_le_iff_ne_zero] using hasOperands
  | distinct operands => exact decide_eq_true (Nat.zero_le operands.length)
  | compare | plus | minus | mul | div | reify => rfl

/-- A network that is built for a model stands on its variables. -/
theorem Network.BuiltFor.standsOn {network : Network} {model : Model}
    (built : network.BuiltFor model) : network.StandsOn model.vars where
  declared_eq := built.declared_eq
  size_le := built.declared_eq ▸ built.size_le
  get?_eq variableId early := built.get?_eq (built.declared_eq ▸ early)
  generated variableId late inside := built.generated (built.declared_eq ▸ late) inside
  scope_lt propagator inside variableId reads := by
    obtain ⟨index, found⟩ := Table.mem_toList_iff.mp inside
    exact built.coherent.scope_lt found variableId reads
  targeted_lt := built.targeted_lt
  targeted_nodup := built.targeted_nodup
  strategies_lt variableId strategy found := by
    rw [built.declared_eq, ← built.strategies_size]
    exact (network.strategies.get?_isSome_iff variableId).mp (Option.isSome_of_mem found)

namespace Model

variable {model : Model}

/-- Every constraint of a sound model fits into it. -/
theorem Sound.fitsInto (sound : model.Sound) (truthful : model.Truthful) {constraint : Constraint}
    (inside : constraint ∈ model.constraints.toList) : constraint.FitsInto model.vars where
  accepts := (sound.wellFormed constraint inside).accepts
  result_isSome := (sound.wellFormed constraint inside).producesValue_eq.symm
  scope_lt := sound.inside constraint inside
  truth reified result isResult := by
    have isTruth := Constraint.truthVariable?_eq_some_iff.mpr ⟨reified, isResult⟩
    exact ⟨truthful constraint inside result isTruth, sound.truth constraint inside result isTruth⟩

/-- Generated names do not collide with declared ones, as a network is built with names that are
new. -/
theorem Sound.distinct_allVariables (sound : model.Sound) (names : model.vars.Distinct) :
    model.allVariables.Distinct := by
  rw [allVariables]
  cases prepared : model.network with
  | none => exact names
  | some network => exact (sound.built network prepared).distinct names

/-- The variables of the network that have a strategy of their own are declared. -/
theorem Sound.strategy_lt (sound : model.Sound) {variableId : VariableId} {entry : Variable}
    (found : model.allVariables.get? variableId = some entry) (divided : entry.strategy.isSome) :
    variableId < model.vars.size := by
  rw [allVariables] at found
  cases prepared : model.network with
  | none =>
    rw [prepared] at found
    exact (model.vars.table.get?_isSome_iff variableId).mp (Option.isSome_of_mem found)
  | some network =>
    rw [prepared] at found
    by_contra late
    -- Then the lowering has added the variable, and has given it no strategy.
    have inside : variableId < network.vars.size :=
      (network.vars.table.get?_isSome_iff variableId).mp (Option.isSome_of_mem found)
    obtain ⟨attempt, isAdded⟩ :=
      (sound.built network prepared).generated (Nat.le_of_not_lt late) inside
    cases (show network.vars.get? variableId = some entry from found).symm.trans isAdded
    cases divided

/-- An orderly and sound model is intact. -/
theorem intact_of_orderly (orderly : model.Orderly) (sound : model.Sound) : model.Intact where
  lt_size_iff variableId := by
    rw [← Option.isSome_iff_exists]
    exact (model.allVariables.table.get?_isSome_iff variableId).symm
  find?_eq_some_iff name variableId :=
    (sound.distinct_allVariables orderly.names).keyOf?_eq_some_iff
  name_inj _ _ _ _ isFirst isSecond same :=
    sound.distinct_allVariables orderly.names isFirst isSecond same
  constant value variableId found := by
    obtain ⟨inside, member, only⟩ := orderly.fixesLiterals value variableId found
    refine ⟨inside, fun other => ⟨fun isMember =>
      (Domain.mem_value.mp (only other isMember)).1, ?_⟩⟩
    rintro rfl
    exact member
  signature_iff operator operands index := by
    rw [orderly.signatures.keyOf?_eq_some_iff]
    simp only [Constraint.signature, signature_eq_iff]
  constraint constraint inside := sound.fitsInto orderly.truthful inside
  strategy_lt _ _ := sound.strategy_lt
  network network prepared := (sound.built network prepared).standsOn

end Model

/-- Every reachable model is intact. -/
theorem Workspace.Reachable.intact {workspace : Workspace} (reachable : workspace.Reachable) :
    workspace.model.Intact :=
  Model.intact_of_orderly reachable.orderly reachable.sound

/-- A sum with an inner result, behind a comparison that was refused after the variable of its
literal had been added. -/
def Workspace.entangled : Workspace :=
  .ofRequests
    [.declareRange "A" 0 3, .declareRange "B" 0 3, .declareRange "C" 0 3,
      .declareConstraint (.compare .lt) [.literal 7, .named "D"] none,
      .declareConstraint .sum [.named "A", .named "B", .named "C"] (some (.literal 7)),
      .declareConstraint (.reify .lt) [.named "A", .named "B"] none,
      .divideVariableBy "A" .max,
      .prepare]

/-- The model has five variables, of which one stands for the literal, and the network one more. -/
theorem Workspace.intact_entangled :
    entangled.Reachable ∧ entangled.model.Intact ∧ entangled.model.vars.size = 5 ∧
      entangled.model.allVariables.size = 6 ∧ entangled.model.constant? 7 = some 3 :=
  ⟨reachable_ofRequests _, Reachable.intact (reachable_ofRequests _), by decide +kernel,
    by decide +kernel, by decide +kernel⟩

end ConstraintSearch
