import Slide.Library.Run
import Slide.Triggers.Episode

/-!
# Only definite recovery evidence closes a problem

`RecoveryEvidence` collects what a request has to bring for `recovery`; `evaluate_recovery_iff` says
that the evaluator reports a recovery for such requests and for no others, through every one of its
early exits.  `closes_only_on_recovery` carries this to the episodes folded over evaluations.
-/

namespace Slide.Triggers

open Metrics Transition List

/-! ## Outcomes -/

/-- What every outcome satisfies, given whether an open problem is carried. -/
structure Outcome.Sound (outcome : Outcome) (carryProblem : Bool) : Prop where
  problem : outcome.business = .problem → outcome.quality ≠ .unknown
  recovery : outcome.recovery = true → outcome.quality ≠ .unknown
  carried : carryProblem = true → outcome.problemOpen = !outcome.recovery

section Outcomes

variable {snapshot : TriggerResourceSnapshot} {key : RuleKey} {request : TriggerEvaluationRequest}
  {rule : TriggerRuleSnapshot} {now : Int} {series : List (List TriggerSample)}
  {samples : List TriggerSample} {input : TriggerEvaluationInput} {carryProblem : Bool}
  {reason : TriggerEvaluationReason} {verdicts : List Verdict}

theorem unresolved_sound : (unresolved reason carryProblem).Sound carryProblem where
  problem := nofun
  recovery := nofun
  carried := id

theorem report_usable (verdicts : List SeriesVerdict) :
    (report rule now verdicts).quality ≠ .unknown := by
  unfold report
  dsimp only
  split <;> nofun

theorem judge_sound : (judge rule now series carryProblem).Sound carryProblem := by
  unfold judge
  dsimp only
  split
  next => exact ⟨nofun, nofun, id⟩
  next =>
    have usable := @report_usable rule now (series.map (judgeSeries rule now))
    unfold conclude
    split
    next =>
      split
      next => exact ⟨nofun, fun _ => usable, fun _ => rfl⟩
      next => exact ⟨fun _ => usable, nofun, fun _ => rfl⟩
    next idle =>
      split
      next => exact ⟨fun _ => usable, nofun, fun carried => absurd carried idle⟩
      next => exact ⟨nofun, nofun, fun carried => absurd carried idle⟩

theorem evaluateSamples_sound :
    (evaluateSamples rule now samples carryProblem).Sound carryProblem := by
  unfold evaluateSamples
  split_ifs
  all_goals first | exact unresolved_sound | exact judge_sound

theorem evaluateInput_sound : (evaluateInput rule input carryProblem).Sound carryProblem := by
  unfold evaluateInput
  split
  next =>
    split
    next => exact ⟨nofun, nofun, id⟩
    next => exact unresolved_sound
  next =>
    split_ifs
    · exact ⟨nofun, nofun, id⟩
    · exact unresolved_sound
    · exact evaluateSamples_sound

theorem evaluateRule_sound :
    (evaluateRule snapshot rule request).Sound request.input.carryProblem := by
  unfold evaluateRule
  split
  next => exact unresolved_sound
  next =>
    split
    next => exact unresolved_sound
    next => exact evaluateInput_sound

theorem evaluateTriggerRule_of_rule (found : snapshot.rule? key = some rule) :
    (evaluateTriggerRule snapshot key request).toOutcome = evaluateRule snapshot rule request := by
  unfold evaluateTriggerRule
  rw [found]

theorem evaluateTriggerRule_of_none (absent : snapshot.rule? key = none) :
    (evaluateTriggerRule snapshot key request).toOutcome = unresolved .ruleNotFound false := by
  unfold evaluateTriggerRule
  rw [absent]

theorem evaluate_ids (found : snapshot.rule? key = some rule) :
    (evaluateTriggerRule snapshot key request).ruleId = key.ruleId ∧
      (evaluateTriggerRule snapshot key request).ruleVersion = rule.version ∧
      (evaluateTriggerRule snapshot key request).scope = key.scope := by
  have keyed := List.find?_some found
  rw [decide_eq_true_eq] at keyed
  unfold evaluateTriggerRule
  rw [found]
  exact ⟨keyed.1, rfl, keyed.2⟩

theorem evaluate_usable :
    ((evaluateTriggerRule snapshot key request).business = .problem →
      (evaluateTriggerRule snapshot key request).quality ≠ .unknown) ∧
    ((evaluateTriggerRule snapshot key request).recovery = true →
      (evaluateTriggerRule snapshot key request).quality ≠ .unknown) := by
  cases found : snapshot.rule? key with
  | none =>
    have outcome := @evaluateTriggerRule_of_none snapshot key request found
    rw [outcome]
    exact ⟨nofun, nofun⟩
  | some rule =>
    have outcome := @evaluateTriggerRule_of_rule snapshot key request rule found
    rw [outcome]
    exact ⟨evaluateRule_sound.problem, evaluateRule_sound.recovery⟩

/-! ## Recovery -/

theorem blockingReason_eq_none :
    blockingReason verdicts = none ↔ ∀ verdict ∈ verdicts, verdict.toOption ≠ none := by
  unfold blockingReason
  rw [List.findSome?_eq_none_iff]
  refine forall₂_congr fun verdict _ => ?_
  cases verdict <;> simp [Except.toOption]

theorem judgeSeries_truth :
    (judgeSeries rule now samples).problem.toOption =
        rule.problem.truth (rule.context now samples) ∧
      (judgeSeries rule now samples).recovery.toOption =
        rule.recovery.truth (rule.context now samples) := by
  have first := matchesExpression_truth rule.problem []
    (@cacheCoherent_nil (rule.context now samples))
  exact ⟨first.1, (matchesExpression_truth rule.recovery _ first.2).1⟩

/-- Both expressions of a series have a truth value, the recovery is true and the problem is not. -/
structure SeriesRecovers (rule : TriggerRuleSnapshot) (now : Int) (samples : List TriggerSample) :
    Prop where
  problemDefinite : rule.problem.truth (rule.context now samples) ≠ none
  recoveryDefinite : rule.recovery.truth (rule.context now samples) ≠ none
  recovered : rule.recovery.truth (rule.context now samples) = some true
  quiet : rule.problem.truth (rule.context now samples) ≠ some true

theorem blocking_eq_none : blocking (series.map (judgeSeries rule now)) = none ↔
    ∀ samples ∈ series, rule.problem.truth (rule.context now samples) ≠ none ∧
      rule.recovery.truth (rule.context now samples) ≠ none := by
  simp only [blocking, Option.or_eq_none_iff, blockingReason_eq_none, map_map,
    forall_mem_map, Function.comp_apply, judgeSeries_truth, forall_and]

theorem judge_recovery : (judge rule now series carryProblem).recovery = true ↔
    carryProblem = true ∧ ∀ samples ∈ series, SeriesRecovers rule now samples := by
  have fires : ∀ samples, (judgeSeries rule now samples).fires = true ↔
      rule.problem.truth (rule.context now samples) = some true := fun samples => by
    rw [SeriesVerdict.fires, judgeSeries_truth.1, beq_iff_eq]
  have recovers : ∀ samples, (judgeSeries rule now samples).recovers = true ↔
      rule.recovery.truth (rule.context now samples) = some true := fun samples => by
    rw [SeriesVerdict.recovers, judgeSeries_truth.2, beq_iff_eq]
  unfold judge
  dsimp only
  split
  next blocked =>
    refine ⟨nofun, fun ⟨_, evidence⟩ => ?_⟩
    have definite : blocking (series.map (judgeSeries rule now)) = none :=
      blocking_eq_none.mpr fun samples mem =>
        ⟨(evidence samples mem).problemDefinite, (evidence samples mem).recoveryDefinite⟩
    rw [definite] at blocked
    cases blocked
  next definite =>
    have definite := blocking_eq_none.mp definite
    have closes : (conclude (report rule now (series.map (judgeSeries rule now))) carryProblem
        ((series.map (judgeSeries rule now)).any (·.fires))
        ((series.map (judgeSeries rule now)).all (·.recovers) &&
          !(series.map (judgeSeries rule now)).any (·.fires))).recovery = true ↔
        carryProblem = true ∧ (series.map (judgeSeries rule now)).all (·.recovers) = true ∧
          (series.map (judgeSeries rule now)).any (·.fires) = false := by
      cases carryProblem <;> cases (series.map (judgeSeries rule now)).all (·.recovers) <;>
        cases (series.map (judgeSeries rule now)).any (·.fires) <;> simp [conclude, report]
    rw [closes]
    simp only [all_map, all_eq_true, Function.comp_apply, recovers, any_map,
      any_eq_false, fires]
    refine and_congr_right fun _ => ⟨fun ⟨recovered, quiet⟩ samples mem => ?_, fun evidence => ?_⟩
    · exact ⟨(definite samples mem).1, (definite samples mem).2, recovered samples mem,
        quiet samples mem⟩
    · exact ⟨fun samples mem => (evidence samples mem).recovered,
        fun samples mem => (evidence samples mem).quiet⟩

/-- The samples that share the dimensions of one of them. -/
def IsSeries (samples group : List TriggerSample) : Prop :=
  ∃ sample ∈ samples,
    group = samples.filter fun other => seriesKey other.dimensions = seriesKey sample.dimensions

def seriesCount (samples : List TriggerSample) : Nat :=
  (samples.map fun sample => seriesKey sample.dimensions).toFinset.card

theorem mem_seriesOf {group : List TriggerSample} :
    group ∈ seriesOf samples ↔ IsSeries samples group := by
  simp only [seriesOf, mem_map, mem_insertionSort, Prod.exists, exists_eq_right,
    GroupBy.mem_groupBy, IsSeries]
  constructor
  · intro ⟨key, filter, nonempty⟩
    obtain ⟨sample, mem⟩ := exists_mem_of_ne_nil _ nonempty
    rw [filter, mem_filter, decide_eq_true_eq] at mem
    exact ⟨sample, mem.1, by rw [filter, mem.2]⟩
  · intro ⟨sample, mem, filter⟩
    refine ⟨seriesKey sample.dimensions, filter, ?_⟩
    rw [filter]
    exact ne_nil_of_mem (mem_filter.mpr ⟨mem, decide_eq_true rfl⟩)

theorem length_seriesOf : (seriesOf samples).length = seriesCount samples := by
  simp only [seriesOf, length_map, length_insertionSort, GroupBy.length_groupBy,
    seriesCount]

/-- What a request must bring so that a rule reports a recovery. -/
structure RecoveryEvidence (snapshot : TriggerResourceSnapshot) (rule : TriggerRuleSnapshot)
    (request : TriggerEvaluationRequest) (input : TriggerEvaluationInput) (seen : Timestamp) :
    Prop where
  applied : checkTriggerSnapshotFence snapshot request.applied = .ok ()
  parsed : request.input.parsed = some input
  previous : input.previous = some .problem
  data : nodataClock rule.clock input.now.ms input.lastSeenAt = false
  arrival : input.lastSeenAt = some seen
  fresh : input.now.ms - seen.ms < rule.clock.staleAfterMs
  past : ∀ sample ∈ input.samples, sample.observedAt.ms ≤ input.now.ms
  metric : ∀ sample ∈ input.samples, sample.metric = rule.metric
  unit : ∀ sample ∈ input.samples, sample.unit = rule.unit
  nonempty : 1 ≤ seriesCount input.samples
  budget : seriesCount input.samples ≤ maxSeries
  series : ∀ group, IsSeries input.samples group → SeriesRecovers rule input.now.ms group

theorem evaluateSamples_recovery :
    (evaluateSamples rule now samples carryProblem).recovery = true ↔
      (∀ sample ∈ samples, sample.observedAt.ms ≤ now) ∧
      (∀ sample ∈ samples, sample.metric = rule.metric) ∧
      (∀ sample ∈ samples, sample.unit = rule.unit) ∧
      1 ≤ seriesCount samples ∧ seriesCount samples ≤ maxSeries ∧
      carryProblem = true ∧ ∀ group, IsSeries samples group → SeriesRecovers rule now group := by
  rw [← length_seriesOf]
  unfold evaluateSamples
  split_ifs with future metric version unit none crowded
  · obtain ⟨sample, mem, later⟩ := future
    exact ⟨nofun, fun evidence => absurd (evidence.1 sample mem) (by omega)⟩
  · obtain ⟨sample, mem, other⟩ := metric
    exact ⟨nofun, fun evidence => absurd (congrArg MetricRef.id (evidence.2.1 sample mem)) other⟩
  · obtain ⟨sample, mem, other⟩ := version
    refine ⟨nofun, fun evidence => absurd ?_ other⟩
    exact congrArg MetricRef.semanticVersion (evidence.2.1 sample mem)
  · obtain ⟨sample, mem, other⟩ := unit
    exact ⟨nofun, fun evidence => absurd (evidence.2.2.1 sample mem) other⟩
  · exact ⟨nofun, fun evidence => by omega⟩
  · exact ⟨nofun, fun evidence => by omega⟩
  · push Not at future metric version unit
    rw [judge_recovery]
    simp only [mem_seriesOf]
    have sameMetric : ∀ sample ∈ samples, sample.metric = rule.metric := fun sample mem => by
      cases left : sample.metric with
      | mk id semanticVersion =>
        have sameId := metric sample mem
        have sameVersion := version sample mem
        rw [left] at sameId sameVersion
        cases right : rule.metric with
        | mk id' semanticVersion' =>
          rw [right] at sameId sameVersion
          exact congrArg₂ MetricRef.mk sameId sameVersion
    exact ⟨fun verdict => ⟨future, sameMetric, unit, by omega, by omega, verdict⟩,
      fun evidence => evidence.2.2.2.2.2⟩

theorem carryProblem_of_parsed (parsed : request.input.parsed = some input) :
    request.input.carryProblem = (input.previous == some .problem) := by
  rw [RawInput.carryProblem, parsed]

theorem evaluateRule_recovery : (evaluateRule snapshot rule request).recovery = true ↔
    ∃ input seen, RecoveryEvidence snapshot rule request input seen := by
  constructor
  · intro recovery
    unfold evaluateRule at recovery
    split at recovery
    next => cases recovery
    next applied =>
      split at recovery
      next => cases recovery
      next input parsed =>
        unfold evaluateInput at recovery
        split at recovery
        next =>
          split at recovery <;> cases recovery
        next seen arrival =>
          split_ifs at recovery with nodata stale
          · cases recovery
          · cases recovery
          · obtain ⟨past, metric, unit, nonempty, budget, carried, series⟩ :=
              evaluateSamples_recovery.mp recovery
            rw [carryProblem_of_parsed parsed, beq_iff_eq] at carried
            refine ⟨input, seen, applied, parsed, carried, ?_, arrival, by omega, past, metric, unit,
              nonempty, budget, series⟩
            rw [arrival]
            exact Bool.eq_false_iff.mpr nodata
  · intro ⟨input, seen, evidence⟩
    have live := evidence.data
    have fresh := evidence.fresh
    unfold evaluateRule evaluateInput
    simp only [evidence.applied, evidence.parsed, evidence.arrival] at live ⊢
    rw [if_neg (Bool.eq_false_iff.mp live), if_neg (by omega), evaluateSamples_recovery,
      carryProblem_of_parsed evidence.parsed, evidence.previous]
    exact ⟨evidence.past, evidence.metric, evidence.unit, evidence.nonempty, evidence.budget, rfl,
      evidence.series⟩

theorem evaluate_recovery : (evaluateTriggerRule snapshot key request).recovery = true ↔
    ∃ rule input seen, snapshot.rule? key = some rule ∧
      RecoveryEvidence snapshot rule request input seen := by
  cases found : snapshot.rule? key with
  | none =>
    have outcome := @evaluateTriggerRule_of_none snapshot key request found
    rw [outcome]
    exact ⟨nofun, fun ⟨_, _, _, absent, _⟩ => nomatch absent⟩
  | some rule =>
    have outcome := @evaluateTriggerRule_of_rule snapshot key request rule found
    rw [outcome, evaluateRule_recovery]
    constructor
    · exact fun ⟨input, seen, evidence⟩ => ⟨rule, input, seen, rfl, evidence⟩
    · intro ⟨other, input, seen, same, evidence⟩
      obtain rfl := some.inj same
      exact ⟨input, seen, evidence⟩

theorem evaluate_carried (found : snapshot.rule? key = some rule)
    (stated : request.input.previousIsProblem = true) :
    (evaluateTriggerRule snapshot key request).problemOpen =
      !(evaluateTriggerRule snapshot key request).recovery := by
  have outcome := @evaluateTriggerRule_of_rule snapshot key request rule found
  rw [outcome]
  refine evaluateRule_sound.carried ?_
  unfold RawInput.carryProblem
  split
  next input parsed => rw [← request.input.previous_parsed input parsed, stated]
  next => exact stated

end Outcomes

/-! ## Closing an episode -/

section Closing

variable {hashOf : HashInput → HashId} {identity : TriggerEpisodeIdentity}
  {evaluation : TriggerEvaluationResult} {record record' : TriggerEpisodeRecord}

theorem recovery_of_closed (wasOpen : record.state = .isOpen) (isClosed : record'.state = .closed)
    (next : nextTriggerEpisode hashOf identity (some record) evaluation = .ok (some record')) :
    evaluation.recovery = true := by
  obtain ⟨-, kept | ⟨-, applied, -⟩⟩ := next_cases next
  · have same := some.inj (ownedRecord_some kept.1.symm)
    rw [same, isClosed] at wasOpen
    cases wasOpen
  · cases owned : ownedRecord hashOf identity (some record) with
    | none =>
      rw [owned, applyEvaluation_none] at applied
      split at applied
      next =>
        obtain rfl := some.inj applied
        cases isClosed
      next => cases applied
    | some mine =>
      obtain rfl := some.inj (ownedRecord_some owned)
      rw [owned, applyEvaluation_open wasOpen] at applied
      split at applied
      next recovery => exact recovery
      next =>
        obtain rfl := some.inj applied
        rw [show (record.observe evaluation.evidence).state = record.state from rfl, wasOpen]
          at isClosed
        cases isClosed

/-- One evaluation request of a run. -/
structure Judgement where
  snapshot : TriggerResourceSnapshot
  key : RuleKey
  request : TriggerEvaluationRequest

def Judgement.evaluate (j : Judgement) : TriggerEvaluationResult :=
  evaluateTriggerRule j.snapshot j.key j.request

/-- A step of a run that states the open problem to the evaluator exactly while it is open. -/
def JudgedStep (hashOf : HashInput → HashId) (identity : TriggerEpisodeIdentity)
    (current : Option TriggerEpisodeRecord) (j : Judgement) (next : Option TriggerEpisodeRecord) :
    Prop :=
  (j.request.input.previousIsProblem = true ↔ ∃ record, current = some record ∧
    record.state = .isOpen) ∧
  nextTriggerEpisode hashOf identity current j.evaluate = .ok next

end Closing

/-- **Only definite recovery evidence closes a problem.**  The evaluator reports a recovery exactly
on complete evidence; where the request states an open problem for an existing rule, the problem is
either carried or recovered; and a folded episode closes only on complete evidence. -/
theorem only_recovery_closes :
    (∀ snapshot key request, (evaluateTriggerRule snapshot key request).recovery = true ↔
      ∃ rule input seen, snapshot.rule? key = some rule ∧
        RecoveryEvidence snapshot rule request input seen) ∧
    (∀ snapshot key request, (∃ rule, snapshot.rule? key = some rule) →
      request.input.previousIsProblem = true →
      ((evaluateTriggerRule snapshot key request).problemOpen =
        !(evaluateTriggerRule snapshot key request).recovery)) ∧
    (∀ hashOf identity es current, Run (JudgedStep hashOf identity) none es current →
      ∀ j next, JudgedStep hashOf identity current j next →
      ∀ record record', current = some record → record.state = .isOpen →
        next = some record' → record'.state = .closed →
        ∃ rule input seen, j.snapshot.rule? j.key = some rule ∧
          RecoveryEvidence j.snapshot rule j.request input seen) := by
  refine ⟨fun snapshot key request => evaluate_recovery, ?_, ?_⟩
  · intro snapshot key request ⟨rule, found⟩ stated
    exact evaluate_carried found stated
  · intro hashOf identity es current _ j next step record record' before wasOpen after isClosed
    subst before after
    exact evaluate_recovery.mp (recovery_of_closed wasOpen isClosed step.2)

/-! ## A rule on one gauge -/

private def integer (n : Int) (finite : (Binary64.ofInt n).isFinite = true) : FiniteNumber :=
  ⟨Binary64.ofInt n, finite⟩

private def full : UnitFraction := ⟨Binary64.ofInt 1, one_inside⟩

/-- Above 90 is a problem, below 80 a recovery. -/
def sessionsRule : TriggerRuleSnapshot where
  ruleId := "busy"
  version := 1
  bodyHash := "sha256:0"
  scope := "item:sessions"
  item := ⟨"mysql", "sessions", 1⟩
  metric := ⟨"db.sessions", ⟨1, 0, 0⟩⟩
  unit := .count
  dimensions := ⟨[], nodup_nil⟩
  decision := .collect
  parameters := []
  problem := .compare .last .gt (integer 90 (by decide))
  recovery := .compare .last .lt (integer 80 (by decide))
  quality := ⟨[.good], full, false⟩
  clock := ⟨60000, none⟩
  snapshotHash := "sha256:1"

def sessionsSnapshot : TriggerResourceSnapshot :=
  ⟨⟨.databaseInstance, "7"⟩, 3, "sha256:2", [], [sessionsRule], "sha256:3"⟩

/-- One fresh sample, evaluated half a minute after it was observed. -/
def sessionsRequest (sessions : Nat) (previous : Option TriggerBusinessState) :
    TriggerEvaluationRequest :=
  let observedAt : Timestamp := ⟨"1970-01-01T00:00:30Z", 30000⟩
  let now : Timestamp := ⟨"1970-01-01T00:01:00Z", 60000⟩
  let sample : TriggerSample :=
    { metric := sessionsRule.metric, unit := .count, value := .uint64 sessions, observedAt
      dimensions := ⟨[], nodup_nil⟩, quality := ⟨.good, .none⟩, accuracy := .exact, coverage := full
      window := none }
  { input :=
      { now := some now.toDateText
        previousIsProblem := previous == some .problem
        parsed := some ⟨now, some observedAt, previous, [sample]⟩
        now_parsed := fun _ same => some.inj same ▸ rfl
        previous_parsed := fun _ same => some.inj same ▸ rfl }
    applied := some ⟨.databaseInstance, 7, 3, "sha256:2", .applied⟩ }

example : (evaluateTriggerRule sessionsSnapshot ⟨"busy", "item:sessions"⟩
    (sessionsRequest 50 (some .problem))).recovery = true := by decide +kernel

example : (evaluateTriggerRule sessionsSnapshot ⟨"busy", "item:sessions"⟩
    (sessionsRequest 85 (some .problem))).reason = .problemRetained := by decide +kernel

end Slide.Triggers
