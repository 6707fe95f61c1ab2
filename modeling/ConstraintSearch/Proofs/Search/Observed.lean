import ConstraintSearch.Proofs.Search.Lockstep
import ConstraintSearch.Proofs.Search.Termination
import ConstraintSearch.Search.Observers

/-!
# What observers do to a search

An observer that can always tell whether to stop does nothing to a search but end it early: up to
the first time that it asks for the end, the search goes on like one without an observer, and from
then on every request is refused. A transcript of all looks shows which spaces the observer is asked
about: each counted space once before its propagation, and once after it unless the search was
stopped before or the space was rejected.
-/

namespace ConstraintSearch

variable {σ : Type}

/-! ### Transcripts -/

/-- The look that a reply ends with; nothing is seen of a look to which there is no reply. -/
def Reply.sightings (propagated : Bool) (space : Space) : Reply → List Observer.Sighting
  | goOn => [{ propagated, space, stopped := false }]
  | stop => [{ propagated, space, stopped := true }]
  | fault _ => []

/-- Lets an observer decide and then writes down the look, behind all former ones. -/
def Observer.transcribed (observer : Observer σ) : Observer (σ × List Observer.Sighting) where
  before space state :=
    let (reply, next) := observer.before space state.1
    (reply, next, state.2 ++ reply.sightings false space)
  after space state :=
    let (reply, next) := observer.after space state.1
    (reply, next, state.2 ++ reply.sightings true space)

namespace Verdict

/-- Whether the space has lost all values of a variable. -/
def isRejected : Verdict → Bool
  | rejected => true
  | _ => false

/-- Whether all targeted variables are fixed. -/
def isSolution : Verdict → Bool
  | stable space => space.isSolved
  | _ => false

end Verdict

/-- What comes of the propagation of a space between the two looks at it. -/
inductive Visit
  /-- The observer stops the search before the propagation. -/
  | turnedAway (space : Space)
  /-- A variable has no value left. -/
  | rejected (space : Space)
  /-- The space is stable, and the observer may still stop the search. -/
  | settled (space final : Space) (stopped : Bool)

namespace Visit

/-- The looks at the space. -/
def sightings : Visit → List Observer.Sighting
  | turnedAway space => [{ propagated := false, space, stopped := true }]
  | rejected space => [{ propagated := false, space, stopped := false }]
  | settled space final stopped =>
    [{ propagated := false, space, stopped := false },
      { propagated := true, space := final, stopped }]

/-- What the engine makes of the visit. -/
def verdict : Visit → Verdict
  | turnedAway _ => .aborted
  | rejected _ => .rejected
  | settled _ _ true => .aborted
  | settled _ final false => .stable final

/-- Whether the observer stops the search. -/
def stops : Visit → Bool
  | turnedAway _ => true
  | rejected _ => false
  | settled _ _ stopped => stopped

/-- Whether the space has lost all values of a variable. -/
def isRejected (visit : Visit) : Bool :=
  visit.verdict.isRejected

/-- Whether the space is reported as a solution. -/
def isSolution (visit : Visit) : Bool :=
  visit.verdict.isSolution

/-- Propagation of the space from its domains comes to what the visit says. -/
def Occurs (network : Network) : Visit → Prop
  | turnedAway _ => True
  | rejected space => ∃ start variableId after, start.domains = space.domains ∧
    network.fixpoint space.changed start = .error variableId after
  | settled space final _ => ∃ start after, start.domains = space.domains ∧
    network.fixpoint space.changed start = .ok () after ∧
      final = { space with domains := after.domains }.updateUnsolved

/-- A visit whose verdict is to abort stops the search. -/
theorem stops_of_verdict {visit : Visit} (stopped : visit.verdict = .aborted) :
    visit.stops = true := by
  revert stopped
  cases visit with
  | turnedAway space => simp [stops]
  | rejected space => simp [verdict]
  | settled space final stopped => cases stopped <;> simp [verdict, stops]

/-- No other visit stops the search. -/
theorem stops_eq_false_of_verdict {visit : Visit} (goesOn : visit.verdict ≠ .aborted) :
    visit.stops = false := by
  revert goesOn
  cases visit with
  | turnedAway space => simp [verdict]
  | rejected space => simp [stops]
  | settled space final stopped => cases stopped <;> simp [verdict, stops]

/-- The search is stopped at one of the looks of the visit. -/
theorem stops_eq_any (visit : Visit) :
    visit.stops = visit.sightings.any Observer.Sighting.stopped := by
  cases visit <;> simp [stops, sightings]

end Visit

/-! ### Observers that can always tell -/

namespace Observer

/-- An observer given by what it answers can always tell. -/
theorem not_faults_stopping (before after : Space → σ → Bool × σ) :
    ¬ (stopping before after).Faults := by
  have told : ∀ (condition : Bool) fault, Reply.stopIf condition ≠ .fault fault := by
    intro condition fault
    cases condition <;> simp [Reply.stopIf]
  rintro ⟨space, state, fault, faulted | faulted⟩
  · exact told _ fault faulted
  · exact told _ fault faulted

/-- Writing a transcript takes no answer from the observer. -/
theorem not_faults_transcribed {observer : Observer σ} (sure : ¬ observer.Faults) :
    ¬ observer.transcribed.Faults := by
  rintro ⟨space, state, fault, faulted⟩
  exact sure ⟨space, state.1, fault, faulted⟩

/-- Writing a transcript changes nothing for the observer. -/
theorem echoes_transcribed (observer : Observer σ) :
    observer.transcribed.Echoes (fun state written => written.1 = state) (fun _ => True)
      observer where
  before space state other linked _ := by
    subst linked
    exact ⟨rfl, rfl⟩
  after space state other linked _ := by
    subst linked
    exact ⟨rfl, rfl⟩

/-- No observer at all is like one that lets the search go on. -/
theorem echoes_silent (observer : Observer σ) :
    silent.Echoes (fun _ _ => True) (· = .goOn) observer where
  before _ _ _ _ goesOn := ⟨goesOn.symm, trivial⟩
  after _ _ _ _ goesOn := ⟨goesOn.symm, trivial⟩

end Observer

/-! ### What the engine does to a space and to its counters -/

namespace Engine

variable {network : Network}

/-- Propagating a space counts nothing but runs of propagators. -/
theorem exists_statistics_propagate {engine final : Engine σ} {observer : Observer σ}
    {space : Space} {verdict : Verdict}
    (propagated : engine.propagate network observer space = (verdict, final)) :
    ∃ propagations, final.statistics = { engine.statistics with propagations } := by
  rw [propagate] at propagated
  split at propagated
  · rename_i middle observed
    obtain ⟨-, rfl⟩ := Prod.mk.inj observed
    obtain ⟨-, rfl⟩ := Prod.mk.inj propagated
    exact ⟨engine.statistics.propagations, rfl⟩
  · rename_i fault middle observed
    obtain ⟨-, rfl⟩ := Prod.mk.inj observed
    obtain ⟨-, rfl⟩ := Prod.mk.inj propagated
    exact ⟨engine.statistics.propagations, rfl⟩
  · rename_i middle observed
    obtain ⟨-, rfl⟩ := Prod.mk.inj observed
    split at propagated
    · rename_i variableId state failed
      obtain ⟨-, rfl⟩ := Prod.mk.inj propagated
      exact ⟨state.runs, rfl⟩
    · rename_i state succeeded
      dsimp only at propagated
      split at propagated
      all_goals
        rename_i observedAfter
        obtain ⟨-, rfl⟩ := Prod.mk.inj observedAfter
        obtain ⟨-, rfl⟩ := Prod.mk.inj propagated
        exact ⟨state.runs, rfl⟩

section Transcribed

variable {observer : Observer σ} {engine final : Engine (σ × List Observer.Sighting)}
  {space : Space} {reply : Reply}

/-- The look before the propagation is written behind all former ones. -/
theorem observed_of_observeBefore
    (observed : engine.observeBefore observer.transcribed space = (reply, final)) :
    final.observed.2 = engine.observed.2 ++ reply.sightings false space := by
  obtain ⟨rfl, rfl⟩ := Prod.mk.inj observed
  rfl

/-- So is the look after it. -/
theorem observed_of_observeAfter
    (observed : engine.observeAfter observer.transcribed space = (reply, final)) :
    final.observed.2 = engine.observed.2 ++ reply.sightings true space := by
  obtain ⟨rfl, rfl⟩ := Prod.mk.inj observed
  rfl

/-- A space that is propagated under a transcribing observer is looked at as a visit says. -/
theorem exists_visit {verdict : Verdict}
    (propagated : engine.propagate network observer.transcribed space = (verdict, final))
    (sure : ¬ observer.Faults) : ∃ visit : Visit, visit.verdict = verdict ∧ visit.Occurs network ∧
      final.observed.2 = engine.observed.2 ++ visit.sightings := by
  -- An observer that never fails is not the cause of a fault, so two of the six ways do not occur.
  have told : ∀ fault, verdict ≠ .faulted fault := by
    rintro fault rfl
    exact Observer.not_faults_transcribed sure (faults_of_faulted propagated)
  rw [propagate] at propagated
  split at propagated
  · rename_i middle observed
    obtain ⟨rfl, rfl⟩ := Prod.mk.inj propagated
    exact ⟨.turnedAway space, rfl, trivial, observed_of_observeBefore observed⟩
  · rename_i fault middle observed
    obtain ⟨rfl, -⟩ := Prod.mk.inj propagated
    exact absurd rfl (told fault)
  · rename_i middle observed
    have before := observed_of_observeBefore observed
    split at propagated
    · rename_i variableId state failed
      obtain ⟨rfl, rfl⟩ := Prod.mk.inj propagated
      exact ⟨.rejected space, rfl, ⟨_, variableId, state, rfl, failed⟩, before⟩
    · rename_i state succeeded
      dsimp only at propagated
      split at propagated
      · rename_i last observedAfter
        have after := observed_of_observeAfter observedAfter
        obtain ⟨rfl, rfl⟩ := Prod.mk.inj propagated
        refine ⟨.settled space _ true, rfl, ⟨_, state, rfl, succeeded, rfl⟩, after.trans ?_⟩
        rw [show (middle.resume state).observed = middle.observed from rfl, before,
          List.append_assoc]
        rfl
      · rename_i fault last observedAfter
        obtain ⟨rfl, -⟩ := Prod.mk.inj propagated
        exact absurd rfl (told fault)
      · rename_i last observedAfter
        have after := observed_of_observeAfter observedAfter
        obtain ⟨rfl, rfl⟩ := Prod.mk.inj propagated
        refine ⟨.settled space _ false, rfl, ⟨_, state, rfl, succeeded, rfl⟩, after.trans ?_⟩
        rw [show (middle.resume state).observed = middle.observed from rfl, before,
          List.append_assoc]
        rfl

end Transcribed

/-- The transcript is that of the visits, and each visit was counted. -/
structure Records (network : Network) (visits : List Visit)
    (engine : Engine (σ × List Observer.Sighting)) : Prop where
  sightings : engine.observed.2 = visits.flatMap Visit.sightings
  spaces : engine.statistics.spaces = visits.length
  rejected : engine.statistics.rejected = visits.countP Visit.isRejected
  solutions : engine.statistics.solutions = visits.countP Visit.isSolution
  occur : ∀ visit ∈ visits, visit.Occurs network

/-- Counting a space and propagating it adds one visit; whether the space is rejected or solved is
to be counted after that. -/
theorem Records.exists_visit {observer : Observer σ}
    {engine final : Engine (σ × List Observer.Sighting)} {space : Space} {visits : List Visit}
    {verdict : Verdict} (records : engine.Records network visits)
    (propagated : (engine.tally fun statistics =>
      { statistics with spaces := statistics.spaces + 1 }).propagate network observer.transcribed
        space = (verdict, final))
    (sure : ¬ observer.Faults) (other : Engine (σ × List Observer.Sighting))
    (observed : other.observed = final.observed)
    (spaces : other.statistics.spaces = final.statistics.spaces)
    (rejected : other.statistics.rejected = final.statistics.rejected + verdict.isRejected.toNat)
    (solutions : other.statistics.solutions = final.statistics.solutions +
      verdict.isSolution.toNat) :
    ∃ visit : Visit, visit.verdict = verdict ∧ other.Records network (visits ++ [visit]) := by
  obtain ⟨visit, rfl, occurs, written⟩ := Engine.exists_visit propagated sure
  obtain ⟨propagations, counted⟩ := exists_statistics_propagate propagated
  refine ⟨visit, rfl, ?_, ?_, ?_, ?_, ?_⟩
  · rw [observed, written, List.flatMap_append, List.flatMap_singleton, ← records.sightings]
    rfl
  · rw [spaces, counted, List.length_append, List.length_singleton, ← records.spaces]
    rfl
  · rw [rejected, counted, List.countP_append, List.countP_singleton, ← records.rejected]
    cases flag : visit.verdict.isRejected <;> simp [Visit.isRejected, flag, Engine.tally]
  · rw [solutions, counted, List.countP_append, List.countP_singleton, ← records.solutions]
    cases flag : visit.verdict.isSolution <;> simp [Visit.isSolution, flag, Engine.tally]
  · simpa [or_imp, forall_and] using ⟨records.occur, occurs⟩

end Engine

namespace Search

variable {γ : Type}

/-- The visits of a search up to now. Only the last one may stop the search, which is then at its
end. -/
structure Transcript (network : Network) (visits : List Visit)
    (search : Search γ (σ × List Observer.Sighting)) : Prop where
  records : search.engine.Records network visits
  stopped : search.phase = .aborted ↔ ∃ visit ∈ visits, visit.stops
  goesOn : ∀ visit ∈ visits.dropLast, visit.stops = false

variable {network : Network} {observer : Observer σ} {visits : List Visit}
  {search : Search γ (σ × List Observer.Sighting)}

/-- Visits that all let the search go on make a transcript of a search that has not been aborted. -/
theorem Transcript.of_goesOn (records : search.engine.Records network visits)
    (goesOn : ∀ visit ∈ visits, visit.stops = false) (unstopped : search.phase ≠ .aborted) :
    Transcript network visits search where
  records := records
  stopped := by
    refine iff_of_false unstopped ?_
    rintro ⟨visit, inside, stops⟩
    exact absurd stops (by simp [goesOn visit inside])
  goesOn visit inside := goesOn visit (List.dropLast_subset visits inside)

/-- A visit that stops the search ends the transcript of one that has been aborted. -/
theorem Transcript.of_stops {visit : Visit}
    (records : search.engine.Records network (visits ++ [visit]))
    (goesOn : ∀ visit ∈ visits, visit.stops = false) (stops : visit.stops)
    (stopped : search.phase = .aborted) : Transcript network (visits ++ [visit]) search where
  records := records
  stopped := iff_of_true stopped ⟨visit, by simp, stops⟩
  goesOn := by simpa using goesOn

/-- A further visit that does not abort lets the search go on as the earlier ones did. -/
theorem forall_stops_append {visit : Visit} (goesOn : ∀ visit ∈ visits, visit.stops = false)
    (verdict : visit.verdict ≠ .aborted) :
    ∀ other ∈ visits ++ [visit], other.stops = false := by
  have last := Visit.stops_eq_false_of_verdict verdict
  simpa [or_imp, forall_and] using ⟨goesOn, last⟩

variable [Generator γ]

/-- Exploring goes on with the visits, none of which has stopped the search yet. -/
theorem exists_transcript_explore (sure : ¬ observer.Faults) {stack : List Space} {generator : γ}
    {engine : Engine (σ × List Observer.Sighting)} (records : engine.Records network visits)
    (goesOn : ∀ visit ∈ visits, visit.stops = false) :
    ∃ visits, Transcript network visits
      (explore network observer.transcribed stack generator engine).2 := by
  have explored := explores network observer.transcribed stack generator engine
  generalize explore network observer.transcribed stack generator engine = result at explored ⊢
  induction explored generalizing visits with
  | finished =>
    exact ⟨visits, .of_goesOn
      ⟨records.sightings, records.spaces, records.rejected, records.solutions, records.occur⟩ goesOn
      (by simp)⟩
  | leave unselected later inductionHypothesis => exact inductionHypothesis records goesOn
  | giveUp selected undivided later inductionHypothesis => exact inductionHypothesis records goesOn
  | reject selected divided propagated later inductionHypothesis =>
    obtain ⟨visit, verdict, recordsAfter⟩ :=
      records.exists_visit propagated sure (Engine.countRejected _) rfl rfl rfl rfl
    exact inductionHypothesis recordsAfter (forall_stops_append goesOn (by simp [verdict]))
  | @abort top rest variableId part generator next engine final selected divided propagated =>
    obtain ⟨visit, verdict, recordsAfter⟩ :=
      records.exists_visit propagated sure final rfl rfl rfl rfl
    exact ⟨_, .of_stops recordsAfter goesOn (Visit.stops_of_verdict verdict) rfl⟩
  | fault selected divided propagated =>
    exact absurd (Engine.faults_of_faulted propagated) (Observer.not_faults_transcribed sure)
  | @solve top child rest variableId part generator next engine final selected divided propagated
      solved =>
    have isSolution : final.countSolution.statistics.solutions =
        final.statistics.solutions + (Verdict.stable child).isSolution.toNat := by
      rw [Verdict.isSolution, solved]
      rfl
    obtain ⟨visit, verdict, recordsAfter⟩ :=
      records.exists_visit propagated sure (final.countSolution.note _) rfl rfl rfl isSolution
    exact ⟨_, .of_goesOn recordsAfter (forall_stops_append goesOn (by simp [verdict])) (by simp)⟩
  | @descend top child rest variableId part generator next engine final result selected divided
      propagated unsolved later inductionHypothesis =>
    have isNoSolution : final.statistics.solutions =
        final.statistics.solutions + (Verdict.stable child).isSolution.toNat := by
      rw [Verdict.isSolution, unsolved]
      rfl
    obtain ⟨visit, verdict, recordsAfter⟩ := records.exists_visit propagated sure
      (final.tally fun statistics =>
        { statistics with peakDepth := max statistics.peakDepth child.depth })
      rfl rfl rfl isNoSolution
    exact inductionHypothesis recordsAfter (forall_stops_append goesOn (by simp [verdict]))

/-- The first request makes the visit of the root, and goes on from there. -/
theorem exists_transcript_start (sure : ¬ observer.Faults) {generator : γ}
    {engine : Engine (σ × List Observer.Sighting)} (records : engine.Records network visits)
    (goesOn : ∀ visit ∈ visits, visit.stops = false) :
    ∃ visits,
      Transcript network visits (start network observer.transcribed generator engine).2 := by
  have started := starts network observer.transcribed generator engine
  generalize start network observer.transcribed generator engine = result at started ⊢
  cases started with
  | @reject final propagated =>
    obtain ⟨visit, verdict, recordsAfter⟩ := records.exists_visit propagated sure
      (final.note .rootInconsistent).countRejected rfl rfl rfl rfl
    exact ⟨_, .of_goesOn recordsAfter (forall_stops_append goesOn (by simp [verdict])) (by simp)⟩
  | @abort final propagated =>
    obtain ⟨visit, verdict, recordsAfter⟩ :=
      records.exists_visit propagated sure final rfl rfl rfl rfl
    exact ⟨_, .of_stops recordsAfter goesOn (Visit.stops_of_verdict verdict) rfl⟩
  | fault propagated =>
    exact absurd (Engine.faults_of_faulted propagated) (Observer.not_faults_transcribed sure)
  | @solve root final propagated solved =>
    have isSolution : final.countSolution.statistics.solutions =
        final.statistics.solutions + (Verdict.stable root).isSolution.toNat := by
      rw [Verdict.isSolution, solved]
      rfl
    obtain ⟨visit, verdict, recordsAfter⟩ :=
      records.exists_visit propagated sure final.countSolution rfl rfl rfl isSolution
    exact ⟨_, .of_goesOn recordsAfter (forall_stops_append goesOn (by simp [verdict])) (by simp)⟩
  | @explore root final result propagated unsolved later =>
    have isNoSolution : final.statistics.solutions =
        final.statistics.solutions + (Verdict.stable root).isSolution.toNat := by
      rw [Verdict.isSolution, unsolved]
      rfl
    obtain ⟨visit, verdict, recordsAfter⟩ := records.exists_visit propagated sure
      (final.tally fun statistics => { statistics with peakDepth := 1 }) rfl rfl rfl isNoSolution
    obtain rfl := later.eq
    exact exists_transcript_explore sure recordsAfter
      (forall_stops_append goesOn (by simp [verdict]))

/-- A request adds the visits of its rounds to the transcript, unless the search is over. -/
theorem Transcript.exists_next (transcript : Transcript network visits search)
    (sure : ¬ observer.Faults) :
    ∃ visits, Transcript network visits (search.next network observer.transcribed).2 := by
  have goesOn : search.phase ≠ .aborted → ∀ visit ∈ visits, visit.stops = false := by
    intro unstopped visit inside
    refine Bool.eq_false_iff.mpr fun stops =>
      unstopped (transcript.stopped.mpr ⟨visit, inside, stops⟩)
  obtain ⟨stack, phase, generator, engine⟩ := search
  cases phase with
  | notStarted => exact exists_transcript_start sure transcript.records (goesOn (by simp))
  | exploring => exact exists_transcript_explore sure transcript.records (goesOn (by simp))
  | finished => exact ⟨visits, transcript⟩
  | aborted => exact ⟨visits, transcript⟩

omit [Generator γ] in
/-- Nothing has been visited initially. -/
theorem transcript_initial (network : Network) (generator : γ) (observed : σ) (journal : Journal) :
    Transcript network [] (Search.initial network generator (observed, []) journal) :=
  .of_goesOn ⟨rfl, rfl, rfl, rfl, by simp⟩ (by simp) (by simp [Search.initial])

/-- Any number of requests leaves a transcript, by induction on the requests. -/
theorem Transcript.exists_after (transcript : Transcript network visits search)
    (sure : ¬ observer.Faults) (requests : Nat) :
    ∃ visits, Transcript network visits (search.after network observer.transcribed requests) := by
  induction requests generalizing visits search with
  | zero => exact ⟨visits, transcript⟩
  | succ requests inductionHypothesis =>
    obtain ⟨_, next⟩ := transcript.exists_next sure
    exact inductionHypothesis next

/-! ### Runs with and without an observer -/

/-- The answers to a number of requests, made one after the other. -/
def outcomes (network : Network) (observer : Observer σ) :
    (requests : Nat) → Search γ σ → List Outcome
  | 0, _ => []
  | requests + 1, search =>
    (search.next network observer).1 :: outcomes network observer requests
      (search.next network observer).2

section Runs

variable {search : Search γ σ} {requests : Nat}

/-- An aborted search answers that it is aborted and does not change. -/
theorem next_of_aborted (observer : Observer σ) (stopped : search.phase = .aborted) :
    search.next network observer = (.aborted, search) := by
  rw [next, stopped]

/-- It goes on to answer so, however often it is asked. -/
theorem outcomes_of_aborted (stopped : search.phase = .aborted) :
    search.outcomes network observer requests = List.replicate requests .aborted := by
  induction requests with
  | zero => rfl
  | succ requests inductionHypothesis =>
    rw [outcomes, next_of_aborted observer stopped, inductionHypothesis, List.replicate_succ]

/-- It stays as it is. -/
theorem after_of_aborted (stopped : search.phase = .aborted) :
    search.after network observer requests = search := by
  induction requests with
  | zero => rfl
  | succ requests inductionHypothesis =>
    rw [after, next_of_aborted observer stopped, inductionHypothesis]

/-- The phase that an outcome leaves the search in; only an observer that cannot tell faults. -/
def Ends (observer : Observer σ) : Outcome × Search γ σ → Prop
  | (.solved _, later) => later.phase = .exploring
  | (.finished, later) => later.phase = .finished
  | (.aborted, later) => later.phase = .aborted
  | (.faulted _, later) => later.phase = .exploring ∧ observer.Faults

/-- Exploring leaves a search in the phase that its outcome tells. -/
theorem ends_explore (network : Network) (observer : Observer σ) (stack : List Space)
    (generator : γ) (engine : Engine σ) :
    Ends observer (explore network observer stack generator engine) := by
  obtain ⟨last, -, ending⟩ := exists_turns_ending network observer stack generator engine
  generalize explore network observer stack generator engine = result at ending
  cases ending with
  | finished => rfl
  | aborted branches propagated => rfl
  | faulted branches propagated => exact ⟨rfl, Engine.faults_of_faulted propagated⟩
  | solved branches propagated solved => rfl

/-- So does every request. -/
theorem ends_next (network : Network) (observer : Observer σ) (search : Search γ σ) :
    Ends observer (search.next network observer) := by
  obtain ⟨stack, phase, generator, engine⟩ := search
  cases phase with
  | finished => rfl
  | aborted => rfl
  | exploring => exact ends_explore network observer stack generator engine
  | notStarted =>
    have started := starts network observer generator engine
    change Ends observer (start network observer generator engine)
    generalize start network observer generator engine = result at started ⊢
    cases started with
    | reject propagated => rfl
    | abort propagated => rfl
    | fault propagated => exact ⟨rfl, Engine.faults_of_faulted propagated⟩
    | solve propagated solved => rfl
    | explore propagated unsolved later => exact later.eq ▸ ends_explore network observer _ _ _

/-- The answer is that there are no more solutions just when the search is finished afterwards. -/
theorem eq_finished_iff : (search.next network observer).1 = .finished ↔
    (search.next network observer).2.phase = .finished := by
  have ends := search.ends_next network observer
  revert ends
  obtain ⟨outcome, later⟩ := search.next network observer
  intro ends
  cases outcome with
  | solved space => simp [show later.phase = .exploring from ends]
  | finished => simp [show later.phase = .finished from ends]
  | aborted => simp [show later.phase = .aborted from ends]
  | faulted fault => simp [show later.phase = .exploring from ends.1]

/-- The observer lets the search go on to an answer, or it has been stopped. -/
theorem reply_or_aborted (network : Network) (sure : ¬ observer.Faults) (search : Search γ σ) :
    (search.next network observer).1.reply = .goOn ∨
      (search.next network observer).1 = .aborted ∧
        (search.next network observer).2.phase = .aborted := by
  have ends := search.ends_next network observer
  revert ends
  obtain ⟨outcome, later⟩ := search.next network observer
  intro ends
  cases outcome with
  | solved space => exact .inl rfl
  | finished => exact .inl rfl
  | aborted => exact .inr ⟨rfl, ends⟩
  | faulted fault => exact absurd ends.2 sure

variable {plain : Search γ Unit}

/-- The solutions up to where an observer stops the search are the first ones of the search without
it. -/
theorem Alike.solutions_prefix (alike : search.Alike (fun _ _ => True) plain)
    (sure : ¬ observer.Faults) :
    (search.outcomes network observer requests).filterMap Outcome.space? <+:
      (plain.outcomes network .silent requests).filterMap Outcome.space? := by
  induction requests generalizing search plain with
  | zero => exact List.prefix_rfl
  | succ requests inductionHypothesis =>
    rcases reply_or_aborted network sure search with goesOn | ⟨stopped, phase⟩
    · obtain ⟨same, alikeAfter⟩ := alike.next network observer.echoes_silent rfl goesOn
      have later := inductionHypothesis alikeAfter
      rw [outcomes, outcomes, same, List.filterMap_cons, List.filterMap_cons]
      cases (search.next network observer).1.space? with
      | none => exact later
      | some space => exact (List.prefix_cons_inj space).mpr later
    · have silent : List.filterMap Outcome.space?
          (search.outcomes network observer (requests + 1)) = [] := by
        rw [outcomes, stopped, outcomes_of_aborted phase, ← List.replicate_succ,
          List.filterMap_eq_nil_iff]
        intro outcome inside
        rw [List.eq_of_mem_replicate inside]
        rfl
      rw [silent]
      exact List.nil_prefix

/-- As long as the observer has not stopped it, a search cannot be told from one without an
observer. -/
theorem Alike.outcomes_eq (alike : search.Alike (fun _ _ => True) plain) (sure : ¬ observer.Faults)
    (unstopped : (search.after network observer requests).phase ≠ .aborted) :
    search.outcomes network observer requests = plain.outcomes network .silent requests ∧
      (search.after network observer requests).Alike (fun _ _ => True)
        (plain.after network .silent requests) := by
  induction requests generalizing search plain with
  | zero => exact ⟨rfl, alike⟩
  | succ requests inductionHypothesis =>
    rcases reply_or_aborted network sure search with goesOn | ⟨-, phase⟩
    · obtain ⟨same, alikeAfter⟩ := alike.next network observer.echoes_silent rfl goesOn
      obtain ⟨sameLater, alikeLater⟩ := inductionHypothesis alikeAfter unstopped
      exact ⟨by rw [outcomes, outcomes, same, sameLater], alikeLater⟩
    · rw [after, after_of_aborted phase] at unstopped
      exact absurd phase unstopped

/-- Writing a transcript changes nothing about the search. -/
theorem Alike.transcribed {written : Search γ (σ × List Observer.Sighting)}
    (alike : search.Alike (fun state written => written.1 = state) written) :
    (search.after network observer requests).Alike (fun state written => written.1 = state)
      (written.after network observer.transcribed requests) := by
  induction requests generalizing search written with
  | zero => exact alike
  | succ requests inductionHypothesis =>
    exact inductionHypothesis (alike.next network observer.echoes_transcribed trivial trivial).2

omit [Generator γ] in
/-- A look has stopped the search just when it is aborted. -/
theorem Transcript.exists_stopped_iff {search : Search γ (σ × List Observer.Sighting)}
    (transcript : Transcript network visits search) :
    (∃ sighting ∈ search.engine.observed.2, sighting.stopped) ↔ search.phase = .aborted := by
  rw [transcript.stopped, transcript.records.sightings]
  simp only [Visit.stops_eq_any, List.any_eq_true, List.mem_flatMap]
  constructor
  · rintro ⟨sighting, ⟨visit, inside, seen⟩, stopped⟩
    exact ⟨visit, inside, sighting, seen, stopped⟩
  · rintro ⟨visit, inside, sighting, seen, stopped⟩
    exact ⟨sighting, ⟨visit, inside, seen⟩, stopped⟩

end Runs

end Search

namespace Solver

variable {γ : Type} [Generator γ] {solver : Solver γ σ}

/-- The solver of an aborted search answers that it is aborted. -/
theorem next_of_aborted (stopped : solver.search.phase = .aborted) :
    solver.next = (.aborted, solver) := by
  rw [next, Search.next_of_aborted solver.observer stopped]

/-- It solves for no further solutions. -/
theorem solve_of_aborted (stopped : solver.search.phase = .aborted) (limit : Nat) :
    (solver.solve (limit + 1)).1 = .ok ⟨[], .aborted⟩ := by
  rw [solve_fst, collect, next_of_aborted stopped]
  rfl

/-- Its iterators are at their end from the start. -/
theorem take_of_aborted (stopped : solver.search.phase = .aborted) (limit : Nat) :
    (solver.take limit).1 = .ok [] := by
  cases limit with
  | zero => rfl
  | succ limit =>
    rw [take, collect, next_of_aborted stopped]
    rfl

end Solver

/-- **Observers.** Let an observer that can always tell whether to stop look at a search, and
another search go on without it from the same start. For any number of requests:
* The solutions that the observed search reports are the first ones of the other search.
* Writing down the looks of the observer changes nothing.
* If the observer has not asked for the end so far, both searches have answered alike and counted
  the same.
* The looks are those of one visit for each counted space: one look before its propagation, and one
  after it unless the search was stopped or the space rejected. No look follows one that stopped the
  search.
* Once the observer has asked for the end, the search does not change any more, and every request is
  answered by saying so. -/
theorem Search.stopping_only_shortens {γ : Type} [Generator γ] (network : Network)
    (before after : Space → σ → Bool × σ) (generator : γ) (observed : σ) (journal : Journal)
    (requests : Nat) : let observer := Observer.stopping before after
    let search := Search.initial network generator observed journal
    let plain := Search.initial network generator () journal
    let later := search.after network observer requests
    let written :=
      (Search.initial network generator (observed, []) journal).after network
        observer.transcribed requests
    let looks := written.engine.observed.2
    (search.outcomes network observer requests).filterMap Outcome.space? <+:
      (plain.outcomes network .silent requests).filterMap Outcome.space? ∧
    later.Alike (fun state written => written.1 = state) written ∧
    ((∀ look ∈ looks, look.stopped = false) →
      search.outcomes network observer requests = plain.outcomes network .silent requests ∧
        later.engine.statistics = (plain.after network .silent requests).engine.statistics) ∧
    (∃ visits, Search.Transcript network visits written) ∧
    ((∃ look ∈ looks, look.stopped) → ∀ more limit,
      later.outcomes network observer more = List.replicate more .aborted ∧
        later.after network observer more = later ∧ ∀ solver : Solver γ σ,
          solver.network = network → solver.observer = observer → solver.search = later →
            (solver.solve (limit + 1)).1 = .ok ⟨[], .aborted⟩ ∧
              (solver.take limit).1 = .ok []) := by
  intro observer search plain later written looks
  -- Three searches run in lockstep: the observed one, one without an observer, and one whose
  -- observer also writes down its looks.
  have sure : ¬ observer.Faults := Observer.not_faults_stopping before after
  have alike : search.Alike (fun _ _ => True) plain := ⟨rfl, rfl, rfl, rfl, rfl, trivial⟩
  have start : search.Alike (fun state (written : σ × List Observer.Sighting) => written.1 = state)
    (Search.initial network generator (observed, []) journal) := ⟨rfl, rfl, rfl, rfl, rfl, rfl⟩
  have alikeWritten : later.Alike (fun state written => written.1 = state) written :=
    start.transcribed
  obtain ⟨visits, transcript⟩ : ∃ visits, Search.Transcript network visits written :=
    (Search.transcript_initial network generator observed journal).exists_after sure requests
  refine ⟨alike.solutions_prefix sure, alikeWritten, fun goesOn => ?_, ⟨visits, transcript⟩,
    fun stopped more limit => ?_⟩
  · have unstopped : later.phase ≠ .aborted := by
      rw [← alikeWritten.phase, Ne, ← transcript.exists_stopped_iff]
      rintro ⟨look, inside, stopped⟩
      rw [goesOn look inside] at stopped
      cases stopped
    obtain ⟨same, alikeLater⟩ := alike.outcomes_eq sure unstopped
    exact ⟨same, alikeLater.engine.statistics.symm⟩
  · have phase : later.phase = .aborted :=
      alikeWritten.phase.symm.trans (transcript.exists_stopped_iff.mp stopped)
    refine ⟨Search.outcomes_of_aborted phase, Search.after_of_aborted phase, ?_⟩
    intro solver _ _ same
    have stoppedSolver : solver.search.phase = .aborted := same ▸ phase
    exact ⟨Solver.solve_of_aborted stoppedSolver limit, Solver.take_of_aborted stoppedSolver limit⟩

end ConstraintSearch
