import Slide.Library.Fallible
import Slide.Triggers.EpisodeRun

/-!
# Evaluations that come again

A run folds evaluations of increasing times.  Each of them leaves the record it led to as it is, and
every later one only moves the watermark away from it (`Replayed.step`), so at the end none of them does
anything any more, in whatever order and however often they come.

The catalog reads the record of an identity, asks `nextTriggerEpisode` and writes what has changed.
-/

namespace Slide.Triggers

open Metrics Transition List

/-! ## The catalog -/

/-- What the port of the catalog reads for an identity hash. -/
abbrev EpisodeStore := HashId → Option TriggerEpisodeRecord

def EpisodeStore.write (store : EpisodeStore) (record : TriggerEpisodeRecord) : EpisodeStore :=
  Function.update store record.identityHash (some record)

/-- `TriggerEpisodeCatalog.apply`: the record it returns, and the store after it. -/
def catalogApply (hashOf : HashInput → HashId) (identity : TriggerEpisodeIdentity)
    (store : EpisodeStore) (evaluation : TriggerEvaluationResult) :
    Except TriggerEpisodeErrorCode (Option TriggerEpisodeRecord × EpisodeStore) := do
  let previous := store (triggerEpisodeIdentityHash hashOf identity)
  match ← nextTriggerEpisode hashOf identity previous evaluation with
  | none => pure (none, store)
  | some record => pure (some record, if some record ≠ previous then store.write record else store)

section Replay

variable {hashOf : HashInput → HashId} {identity : TriggerEpisodeIdentity}
  {previous current next : Option TriggerEpisodeRecord} {evaluation earlier : TriggerEvaluationResult}
  {record : TriggerEpisodeRecord} {es : List TriggerEvaluationResult}
  {snapshot : TriggerResourceSnapshot} {key : RuleKey} {request : TriggerEvaluationRequest}
  {rule : TriggerRuleSnapshot} {now : Int} {carryProblem : Bool}

/-! ## What a definite verdict brings -/

/-- An outcome without a verdict, or one of the four definite ones. -/
def Decided (carryProblem : Bool) (outcome : Outcome) : Prop :=
  outcome.business = .unknown ∧ outcome.recovery = false ∨
    ∃ shared problem evidence, shared.recovery = false ∧
      outcome = conclude shared carryProblem problem evidence

theorem unresolved_decided {reason : TriggerEvaluationReason} :
    Decided carryProblem (unresolved reason carryProblem) :=
  .inl ⟨rfl, rfl⟩

theorem judge_decided {series : List (List TriggerSample)} :
    Decided carryProblem (judge rule now series carryProblem) := by
  unfold judge
  dsimp only
  split
  next => exact .inl ⟨rfl, rfl⟩
  next => exact .inr ⟨_, _, _, rfl, rfl⟩

theorem evaluateSamples_decided {samples : List TriggerSample} :
    Decided carryProblem (evaluateSamples rule now samples carryProblem) := by
  unfold evaluateSamples
  split_ifs
  all_goals first | exact unresolved_decided | exact judge_decided

theorem evaluateInput_decided {input : TriggerEvaluationInput} :
    Decided carryProblem (evaluateInput rule input carryProblem) := by
  unfold evaluateInput
  split
  next => split_ifs <;> exact .inl ⟨rfl, rfl⟩
  next =>
    split_ifs
    · exact .inl ⟨rfl, rfl⟩
    · exact unresolved_decided
    · exact evaluateSamples_decided

theorem evaluateRule_decided :
    Decided request.input.carryProblem (evaluateRule snapshot rule request) ∧
      (request.input.parsed = none → (evaluateRule snapshot rule request).business = .unknown) := by
  unfold evaluateRule
  split
  next => exact ⟨unresolved_decided, fun _ => rfl⟩
  next =>
    split
    next => exact ⟨unresolved_decided, fun _ => rfl⟩
    next input parsed => exact ⟨evaluateInput_decided, fun absent => by rw [parsed] at absent; cases absent⟩

theorem Decided.exclusive {outcome : Outcome} (decided : Decided carryProblem outcome)
    (problem : outcome.business = .problem) : outcome.recovery = false := by
  rcases decided with ⟨-, quiet⟩ | ⟨shared, _, _, quiet, rfl⟩
  · exact quiet
  · unfold conclude at problem ⊢
    split_ifs at problem ⊢ <;> exact quiet

theorem evaluate_problem
    (problem : (evaluateTriggerRule snapshot key request).business = .problem) :
    (evaluateTriggerRule snapshot key request).recovery = false ∧
      (evaluateTriggerRule snapshot key request).quality ≠ .unknown ∧
      (evaluateTriggerRule snapshot key request).evaluatedAt.instant.isSome := by
  have usable := evaluate_usable.1 problem
  cases found : snapshot.rule? key with
  | none =>
    rw [@evaluateTriggerRule_of_none snapshot key request found] at problem
    cases problem
  | some rule =>
    have outcome := @evaluateTriggerRule_of_rule snapshot key request rule found
    obtain ⟨decided, parsed⟩ := @evaluateRule_decided snapshot request rule
    rw [outcome] at problem usable ⊢
    refine ⟨decided.exclusive problem, usable, ?_⟩
    have at_ : (evaluateTriggerRule snapshot key request).evaluatedAt = request.input.evaluatedAt := by
      unfold evaluateTriggerRule
      rw [found]
    rw [at_]
    cases input : request.input.parsed with
    | none =>
      rw [parsed input] at problem
      cases problem
    | some input' =>
      rw [RawInput.evaluatedAt, request.input.now_parsed input' input]
      rfl

/-! ## One evaluation twice -/

/-- The record keeps to the identity it is folded for. -/
def Owned (hashOf : HashInput → HashId) (identity : TriggerEpisodeIdentity)
    (current : Option TriggerEpisodeRecord) : Prop :=
  ∀ record, current = some record → record.identityHash = triggerEpisodeIdentityHash hashOf identity

theorem Owned.eq (owned : Owned hashOf identity current) :
    ownedRecord hashOf identity current = current := by
  cases current with
  | none => rfl
  | some record => exact ownedRecord_of_hash (owned record rfl)

/-- One step of a fold over evaluations of any rule. -/
def ReplayStep (hashOf : HashInput → HashId) (identity : TriggerEpisodeIdentity)
    (current : Option TriggerEpisodeRecord) (evaluation : TriggerEvaluationResult)
    (next : Option TriggerEpisodeRecord) : Prop :=
  (∃ snapshot key request, evaluation = evaluateTriggerRule snapshot key request) ∧
    nextTriggerEpisode hashOf identity current evaluation = .ok next

theorem unknownIntervalsAfter_observe (evidence : TriggerEpisodeEvidence) :
    unknownIntervalsAfter (record.observe evidence) evidence = unknownIntervalsAfter record evidence := by
  unfold TriggerEpisodeRecord.observe unknownIntervalsAfter
  by_cases unknown : evidence.quality = .unknown
  · simp only [if_pos unknown]
    cases record.unknownOpenFrom <;> rfl
  · simp only [if_neg unknown]
    cases record.unknownOpenFrom with
    | none => rfl
    | some start => cases record.unknownSegments.getLast? <;> rfl

theorem observe_observe (evidence : TriggerEpisodeEvidence) :
    (record.observe evidence).observe evidence = record.observe evidence := by
  have same := @unknownIntervalsAfter_observe record evidence
  unfold TriggerEpisodeRecord.observe at same ⊢
  simp only [same]

theorem moved (owned : Owned hashOf identity current)
    (result : ∃ snapshot key request, evaluation = evaluateTriggerRule snapshot key request)
    (applied : next = applyEvaluation hashOf identity evaluation current) (moves : next ≠ current) :
    ∃ record, next = some record ∧ record.last.time = evaluation.evaluatedAt ∧
      record.identityHash = triggerEpisodeIdentityHash hashOf identity ∧
      applyEvaluation hashOf identity evaluation (some record) = some record := by
  have problem : evaluation.business = .problem →
      evaluation.recovery = false ∧ evaluation.quality ≠ .unknown := by
    obtain ⟨snapshot, key, request, rfl⟩ := result
    exact fun problem => ⟨(evaluate_problem problem).1, (evaluate_problem problem).2.1⟩
  have opening (occurrence : Nat) (found : evaluation.business = .problem) :
      applyEvaluation hashOf identity evaluation (some (openEpisode hashOf identity occurrence evaluation)) =
        some (openEpisode hashOf identity occurrence evaluation) := by
    obtain ⟨quiet, usable⟩ := problem found
    rw [applyEvaluation_open rfl, if_neg (by rw [quiet]; exact Bool.false_ne_true)]
    have known : evaluation.evidence.quality ≠ .unknown := usable
    simp only [TriggerEpisodeRecord.observe, unknownIntervalsAfter, if_neg known]
    rfl
  cases current with
  | none =>
    rw [applyEvaluation_none] at applied
    split at applied
    next found => exact ⟨_, applied, rfl, rfl, opening 0 found⟩
    next => exact absurd applied moves
  | some before =>
    have mine := owned before rfl
    cases state : before.state with
    | isOpen =>
      rw [applyEvaluation_open state] at applied
      split at applied
      next recovery =>
        refine ⟨_, applied, rfl, mine, ?_⟩
        rw [applyEvaluation_closed rfl, if_neg]
        intro found
        rw [(problem found).1] at recovery
        cases recovery
      next quiet =>
        refine ⟨_, applied, rfl, mine, ?_⟩
        have still : (before.observe evaluation.evidence).state = .isOpen := state
        rw [applyEvaluation_open still, if_neg quiet, observe_observe]
    | closed =>
      rw [applyEvaluation_closed state] at applied
      split at applied
      next found => exact ⟨_, applied, rfl, rfl, opening _ found⟩
      next => exact absurd applied moves

theorem moved_time (owned : Owned hashOf identity current)
    (step : ReplayStep hashOf identity current evaluation next) (moves : next ≠ current) :
    ∃ instant, evaluation.evaluatedAt.instant = some instant := by
  obtain ⟨⟨snapshot, key, request, rfl⟩, ok⟩ := step
  obtain ⟨-, kept | ⟨-, applied, onTime⟩⟩ := next_cases ok
  · exact absurd (kept.1.trans owned.eq) moves
  cases current with
  | none =>
    rw [owned.eq, applyEvaluation_none] at applied
    split at applied
    next problem => exact Option.isSome_iff_exists.mp (evaluate_problem problem).2.2
    next => exact absurd applied moves
  | some before =>
    obtain ⟨instant, -, at_, -⟩ := onTime before owned.eq
    exact ⟨instant, at_⟩

/-! ## Every applied evaluation -/

theorem next_stays {instant watermark : Int}
    (ok : nextTriggerEpisode hashOf identity previous evaluation = .ok next)
    (mine : record.identityHash = triggerEpisodeIdentityHash hashOf identity)
    (at_ : evaluation.evaluatedAt.instant = some instant)
    (last : record.last.time.instant = some watermark)
    (stays : instant < watermark ∨
      applyEvaluation hashOf identity evaluation (some record) = some record) :
    nextTriggerEpisode hashOf identity (some record) evaluation = .ok (some record) := by
  unfold nextTriggerEpisode at ok ⊢
  split at ok
  next => cases ok
  next wellFormed =>
    rw [if_neg wellFormed, ownedRecord_of_hash mine]
    dsimp only at ok ⊢
    split at ok
    next missing => rw [if_pos missing]
    next found =>
      rw [if_neg found]
      split at ok
      next => cases ok
      next named =>
        rw [if_neg named]
        simp only [instantOf, at_, last]
        change (if instant < watermark then Except.ok (some record)
          else Except.ok (applyEvaluation hashOf identity evaluation (some record))) = _
        rcases stays with late | same
        · exact if_pos late
        · rw [same]
          exact ite_self _

/-- The instants of two evaluations are known and in this order. -/
def Earlier (earlier later : TriggerEvaluationResult) : Prop :=
  ∃ first second, earlier.evaluatedAt.instant = some first ∧ later.evaluatedAt.instant = some second ∧
    first < second

/-- The record keeps to its identity, and no evaluation of the run changes it. -/
structure Replayed (hashOf : HashInput → HashId) (identity : TriggerEpisodeIdentity)
    (es : List TriggerEvaluationResult) (current : Option TriggerEpisodeRecord) : Prop where
  owned : Owned hashOf identity current
  fixed : ∀ e ∈ es, nextTriggerEpisode hashOf identity current e = .ok current

theorem Replayed.step (replayed : Replayed hashOf identity es current)
    (later : ∀ e ∈ es, Earlier e evaluation)
    (step : ReplayStep hashOf identity current evaluation next) :
    Replayed hashOf identity (es ++ [evaluation]) next := by
  have timed := moved_time replayed.owned step
  obtain ⟨result, ok⟩ := step
  by_cases same : next = current
  · subst same
    refine ⟨replayed.owned, fun e mem => ?_⟩
    rcases mem_append.mp mem with before | here
    · exact replayed.fixed e before
    · obtain rfl := mem_singleton.mp here
      exact ok
  obtain ⟨-, kept | ⟨-, applied, -⟩⟩ := next_cases ok
  · exact absurd (kept.1.trans replayed.owned.eq) same
  rw [replayed.owned.eq] at applied
  obtain ⟨record, rfl, time, mine, again⟩ := moved replayed.owned result applied same
  refine ⟨fun other stored => by cases stored; exact mine, fun e mem => ?_⟩
  rcases mem_append.mp mem with before | here
  · -- the watermark is now that of the new evaluation
    obtain ⟨first, second, at_, watermark, lt⟩ := later e before
    rw [← time] at watermark
    exact next_stays (replayed.fixed e before) mine at_ watermark (.inl lt)
  · obtain rfl := mem_singleton.mp here
    obtain ⟨instant, at_⟩ := timed same
    exact next_stays ok mine at_ (time ▸ at_) (.inr again)

theorem replayed_of_run (run : Run (ReplayStep hashOf identity) none es current)
    (increasing : es.Pairwise Earlier) : Replayed hashOf identity es current := by
  induction run with
  | nil => exact ⟨fun _ absent => (by cases absent), fun _ mem => absurd mem not_mem_nil⟩
  | snoc _ last ih =>
    rw [pairwise_append] at increasing
    apply (ih increasing.1).step _ last
    exact fun e mem => increasing.2.2 e mem _ (mem_singleton_self _)

theorem catalogApply_of_fixed {store : EpisodeStore}
    (fixed : nextTriggerEpisode hashOf identity
      (store (triggerEpisodeIdentityHash hashOf identity)) evaluation =
        .ok (store (triggerEpisodeIdentityHash hashOf identity))) :
    (catalogApply hashOf identity store evaluation).map Prod.snd = .ok store := by
  unfold catalogApply
  simp only [fixed]
  cases stored : store (triggerEpisodeIdentityHash hashOf identity) with
  | none => rfl
  | some record =>
    change Except.ok (if some record ≠ some record then store.write record else store) = _
    rw [if_neg (not_not.mpr rfl)]

end Replay

/-- **Replay changes nothing.**  Once evaluations of increasing times have been folded from nothing into a
record, any sequence of them folded into it again leaves that record, and leaves every store that has it
as it is. -/
theorem replay_is_noop (hashOf : HashInput → HashId) (identity : TriggerEpisodeIdentity)
    (es : List TriggerEvaluationResult) (current : Option TriggerEpisodeRecord)
    (run : Run (ReplayStep hashOf identity) none es current) (increasing : es.Pairwise Earlier)
    (replay : List TriggerEvaluationResult) (applied : ∀ e ∈ replay, e ∈ es) :
    replay.foldlM (nextTriggerEpisode hashOf identity) current = .ok current ∧
      ∀ store : EpisodeStore, store (triggerEpisodeIdentityHash hashOf identity) = current →
        replay.foldlM (fun store e => (catalogApply hashOf identity store e).map Prod.snd) store =
          .ok store := by
  have fixed := (replayed_of_run run increasing).fixed
  constructor
  · apply Except.foldlM_fixed
    exact fun e mem => fixed e (applied e mem)
  · intro store stored
    apply Except.foldlM_fixed
    intro e mem
    apply catalogApply_of_fixed
    rw [stored]
    exact fixed e (applied e mem)

private def replayedIdentity : TriggerEpisodeIdentity where
  resource := ⟨.databaseInstance, "7"⟩
  ruleId := "busy"
  version := 1
  bodyHash := "sha256:" ++ String.ofList (List.replicate 64 '0')
  scope := "item:sessions"
  contextHash := none

private def busyResult (sessions : Nat) (previous : Option TriggerBusinessState) (now : Timestamp) :
    TriggerEvaluationResult :=
  evaluateTriggerRule sessionsSnapshot ⟨"busy", "item:sessions"⟩
    { sessionsRequest sessions previous with
      input :=
        { now := some now.toDateText
          previousIsProblem := previous == some .problem
          parsed := (sessionsRequest sessions previous).input.parsed.map fun input =>
            { input with now, previous }
          now_parsed := fun _ same => some.inj same ▸ rfl
          previous_parsed := fun _ same => some.inj same ▸ rfl } }

private theorem busyResult_returned (sessions : Nat) (previous : Option TriggerBusinessState)
    (now : Timestamp) : ∃ snapshot key request,
      busyResult sessions previous now = evaluateTriggerRule snapshot key request :=
  ⟨_, _, _, rfl⟩

private def busyProblem : TriggerEvaluationResult :=
  busyResult 95 none ⟨"1970-01-01T00:01:00Z", 60000⟩

private def busyRecovery : TriggerEvaluationResult :=
  busyResult 50 (some .problem) ⟨"1970-01-01T00:01:10Z", 70000⟩

/-- A problem and its recovery come again, in the other order. -/
theorem replay_is_noop_recovered : ∃ record,
    Run (ReplayStep (fun _ => "sha256") replayedIdentity) none [busyProblem, busyRecovery] (some record) ∧
      record.state = .closed ∧
      [busyRecovery, busyProblem, busyRecovery].foldlM
        (nextTriggerEpisode (fun _ => "sha256") replayedIdentity) (some record) = .ok (some record) := by
  let opening := openEpisode (fun _ => "sha256") replayedIdentity 0 busyProblem
  have opens : nextTriggerEpisode (fun _ => "sha256") replayedIdentity none busyProblem =
      .ok (some opening) := by decide +kernel
  have closes : nextTriggerEpisode (fun _ => "sha256") replayedIdentity (some opening) busyRecovery =
      .ok (some (opening.close busyRecovery.evidence)) := by decide +kernel
  have run : Run (ReplayStep (fun _ => "sha256") replayedIdentity) none [busyProblem, busyRecovery]
      (some (opening.close busyRecovery.evidence)) :=
    .snoc (.single ⟨busyResult_returned .., opens⟩) ⟨busyResult_returned .., closes⟩
  have increasing : [busyProblem, busyRecovery].Pairwise Earlier :=
    pairwise_pair.mpr ⟨60000, 70000, rfl, rfl, by decide⟩
  refine ⟨_, run, rfl, (replay_is_noop _ _ _ _ run increasing _ ?_).1⟩
  simp only [mem_cons, not_mem_nil, or_false]
  exact fun e mem => mem.elim .inr (·.elim .inl .inr)

end Slide.Triggers
