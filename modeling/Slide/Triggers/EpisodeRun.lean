import Slide.Triggers.Recovery

/-!
# The history of one identity

A run folds `nextTriggerEpisode` over evaluations of one identity, in any order of their times.
`EpisodeInv` is what holds of every record on the way; `Progress` is what one step may change.

The unknown segments are read as instants (`Within`): they lie in order between the opening and the
watermark, each ends before the next starts, and only the last may still be open.
-/

namespace Slide.Triggers

open Metrics Transition

/-- The segments follow each other from `low` to `high`; an unfinished one is the last. -/
def Within (low high : Int) : List TriggerEpisodeUnknownSegment → Prop
  | [] => low ≤ high
  | segment :: rest =>
    ∃ start, segment.start.instant = some start ∧ low ≤ start ∧ start ≤ high ∧
      match segment.stop with
      | none => rest = []
      | some date => ∃ stop, date.instant = some stop ∧ start ≤ stop ∧ Within stop high rest

/-- The open marker and the last segment agree: it is unfinished exactly while the marker is set,
and then starts where the marker says. -/
def MarkerAgrees (segments : List TriggerEpisodeUnknownSegment) (openFrom : Option DateText) :
    Prop :=
  (openFrom.isSome ↔ ∃ segment, segments.getLast? = some segment ∧ segment.stop = none) ∧
    ∀ segment, segments.getLast? = some segment → segment.stop = none →
      openFrom = some segment.start

/-- What holds of every record of a run. -/
structure EpisodeInv (record : TriggerEpisodeRecord) : Prop where
  closedAt : record.state = .closed ↔ record.closedAt.isSome
  recoveryCount : record.state = .closed ↔ record.recoveryCount = 1
  opened : record.opened.time = record.openedAt
  unknown : record.unknownOpenFrom.isSome ↔ record.last.quality = .unknown
  marker : MarkerAgrees record.unknownSegments record.unknownOpenFrom
  times : ∃ opening last, record.openedAt.instant = some opening ∧
    record.last.time.instant = some last ∧ opening ≤ last ∧
    Within opening last record.unknownSegments

/-- What one step does to the record before it. -/
structure Progress (record next : TriggerEpisodeRecord) : Prop where
  watermark : ∃ earlier later, record.last.time.instant = some earlier ∧
    next.last.time.instant = some later ∧ earlier ≤ later
  occurrence : next.occurrence =
    record.occurrence + if record.state = .closed ∧ next.state = .isOpen then 1 else 0
  opened : ¬ (record.state = .closed ∧ next.state = .isOpen) →
    next.opened = record.opened ∧ next.openedAt = record.openedAt ∧
      next.episodeId = record.episodeId

section Segments

variable {low high high' : Int} {segments : List TriggerEpisodeUnknownSegment}
  {segment : TriggerEpisodeUnknownSegment} {openFrom : Option DateText} {date : DateText}
  {reason : TriggerEvaluationReason}

theorem Within.mono (later : high ≤ high') (within : Within low high segments) :
    Within low high' segments := by
  induction segments generalizing low with
  | nil => exact within.trans later
  | cons segment rest ih =>
    obtain ⟨start, at_, after, before, tail⟩ := within
    refine ⟨start, at_, after, before.trans later, ?_⟩
    cases stop : segment.stop with
    | none =>
      rw [stop] at tail
      exact tail
    | some date =>
      rw [stop] at tail
      obtain ⟨instant, ends, ordered, rest⟩ := tail
      exact ⟨instant, ends, ordered, ih rest⟩

theorem Within.append_open (within : Within low high segments) (later : high ≤ high')
    (finished : ∀ segment, segments.getLast? = some segment → segment.stop ≠ none)
    (at_ : date.instant = some high') :
    Within low high' (segments ++ [⟨date, none, reason⟩]) := by
  induction segments generalizing low with
  | nil => exact ⟨high', at_, le_trans within later, le_rfl, rfl⟩
  | cons segment rest ih =>
    obtain ⟨start, starts, after, before, tail⟩ := within
    refine ⟨start, starts, after, before.trans later, ?_⟩
    cases stop : segment.stop with
    | none =>
      rw [stop] at tail
      subst tail
      exact absurd stop (finished segment rfl)
    | some date' =>
      rw [stop] at tail
      obtain ⟨instant, ends, ordered, rest'⟩ := tail
      refine ⟨instant, ends, ordered, ih rest' fun last isLast => finished last ?_⟩
      cases rest with
      | nil => cases isLast
      | cons other rest => exact isLast

theorem Within.close_last (within : Within low high segments) (later : high ≤ high')
    (isLast : segments.getLast? = some segment) (isOpen : segment.stop = none)
    (at_ : date.instant = some high') :
    Within low high' (segments.dropLast ++ [{ segment with stop := some date }]) := by
  induction segments generalizing low with
  | nil => cases isLast
  | cons first rest ih =>
    obtain ⟨start, starts, after, before, tail⟩ := within
    cases rest with
    | nil =>
      obtain rfl := Option.some.inj isLast
      exact ⟨start, starts, after, before.trans later, high', at_, before.trans later, le_rfl⟩
    | cons other rest =>
      cases stop : first.stop with
      | none =>
        rw [stop] at tail
        cases tail
      | some date' =>
        rw [stop] at tail
        obtain ⟨instant, ends, ordered, rest'⟩ := tail
        refine ⟨start, starts, after, before.trans later, ?_⟩
        simp only [stop]
        exact ⟨instant, ends, ordered, ih rest' isLast⟩

end Segments

section Step

variable {record : TriggerEpisodeRecord} {evidence : TriggerEpisodeEvidence} {opening last now : Int}

theorem unknownIntervalsAfter_inv (inv : EpisodeInv record)
    (opens : record.openedAt.instant = some opening)
    (watermark : record.last.time.instant = some last)
    (at_ : evidence.time.instant = some now) (later : last ≤ now) :
    let after := unknownIntervalsAfter record evidence
    (after.2.isSome ↔ evidence.quality = .unknown) ∧ MarkerAgrees after.1 after.2 ∧
      Within opening now after.1 := by
  obtain ⟨opening', last', opens', watermark', -, within⟩ := inv.times
  obtain rfl := Option.some.inj (opens.symm.trans opens')
  obtain rfl := Option.some.inj (watermark.symm.trans watermark')
  obtain ⟨marked, start⟩ := inv.marker
  unfold unknownIntervalsAfter
  split
  next unknown =>
    split
    next since isOpen =>
      refine ⟨⟨fun _ => unknown, fun _ => rfl⟩, ?_, within.mono later⟩
      rw [← isOpen]
      exact inv.marker
    next notOpen =>
      have finished : ∀ segment, record.unknownSegments.getLast? = some segment →
          segment.stop ≠ none := by
        intro segment isLast unfinished
        have some := marked.mpr ⟨segment, isLast, unfinished⟩
        rw [notOpen] at some
        cases some
      refine ⟨⟨fun _ => unknown, fun _ => rfl⟩, ⟨⟨fun _ => ⟨_, List.getLast?_concat .., rfl⟩,
        fun _ => rfl⟩, fun segment isLast _ => ?_⟩, within.append_open later finished at_⟩
      rw [List.getLast?_concat] at isLast
      rw [← Option.some.inj isLast]
  next known =>
    split
    next notOpen =>
      refine ⟨⟨nofun, fun unknown => absurd unknown known⟩, ?_, within.mono later⟩
      rw [← notOpen]
      exact inv.marker
    next since isOpen noSegment =>
      have some : record.unknownOpenFrom.isSome := by rw [isOpen]; rfl
      obtain ⟨segment, isLast, -⟩ := marked.mp some
      rw [noSegment] at isLast
      cases isLast
    next since segment isOpen isLast =>
      have some : record.unknownOpenFrom.isSome := by rw [isOpen]; rfl
      obtain ⟨segment', isLast', unfinished⟩ := marked.mp some
      obtain rfl := Option.some.inj (isLast.symm.trans isLast')
      refine ⟨⟨nofun, fun unknown => absurd unknown known⟩, ⟨⟨nofun, ?_⟩, ?_⟩,
        within.close_last later isLast unfinished at_⟩
      · intro ⟨segment', isLast', unfinished'⟩
        rw [List.getLast?_concat] at isLast'
        rw [← Option.some.inj isLast'] at unfinished'
        cases unfinished'
      · intro segment' isLast' unfinished'
        rw [List.getLast?_concat] at isLast'
        rw [← Option.some.inj isLast'] at unfinished'
        cases unfinished'

theorem observe_inv (inv : EpisodeInv record) (at_ : evidence.time.instant = some now)
    (watermark : record.last.time.instant = some last) (later : last ≤ now) :
    EpisodeInv (record.observe evidence) := by
  obtain ⟨opening, last', opens, watermark', ordered, -⟩ := inv.times
  obtain rfl := Option.some.inj (watermark.symm.trans watermark')
  obtain ⟨unknown, marker, within⟩ := unknownIntervalsAfter_inv inv opens watermark at_ later
  exact ⟨inv.closedAt, inv.recoveryCount, inv.opened, unknown, marker,
    ⟨opening, now, opens, at_, ordered.trans later, within⟩⟩

theorem close_inv (inv : EpisodeInv record) (at_ : evidence.time.instant = some now)
    (watermark : record.last.time.instant = some last) (later : last ≤ now) :
    EpisodeInv (record.close evidence) := by
  have observed := observe_inv inv at_ watermark later
  exact ⟨⟨fun _ => rfl, fun _ => rfl⟩, ⟨fun _ => rfl, fun _ => rfl⟩, observed.opened,
    observed.unknown, observed.marker, observed.times⟩

theorem openEpisode_inv {hashOf : HashInput → HashId} {identity : TriggerEpisodeIdentity}
    {occurrence : Nat} {evaluation : TriggerEvaluationResult}
    (usable : evaluation.quality ≠ .unknown)
    (at_ : evaluation.evaluatedAt.instant = some now) :
    EpisodeInv (openEpisode hashOf identity occurrence evaluation) where
  closedAt := ⟨nofun, nofun⟩
  recoveryCount := ⟨nofun, nofun⟩
  opened := rfl
  unknown := ⟨nofun, fun unknown => absurd unknown usable⟩
  marker := ⟨⟨nofun, fun ⟨_, absent, _⟩ => nomatch absent⟩, fun _ absent => nomatch absent⟩
  times := ⟨now, now, at_, at_, le_rfl, le_rfl⟩

end Step

/-! ## Runs -/

section Runs

variable {hashOf : HashInput → HashId} {identity : TriggerEpisodeIdentity}
  {current next : Option TriggerEpisodeRecord} {evaluation : TriggerEvaluationResult}
  {record : TriggerEpisodeRecord} {es : List TriggerEvaluationResult}

/-- What the evaluator can return for the rule, version and scope of an identity, at a time that
parses. -/
structure Returned (identity : TriggerEpisodeIdentity) (evaluation : TriggerEvaluationResult) :
    Prop where
  value : ∃ snapshot request,
    evaluation = evaluateTriggerRule snapshot ⟨identity.ruleId, identity.scope⟩ request ∧
      ∀ rule, snapshot.rule? ⟨identity.ruleId, identity.scope⟩ = some rule →
        rule.version = identity.version
  parsable : evaluation.evaluatedAt.instant.isSome

/-- One step of the fold. -/
def FoldStep (hashOf : HashInput → HashId) (identity : TriggerEpisodeIdentity)
    (current : Option TriggerEpisodeRecord) (evaluation : TriggerEvaluationResult)
    (next : Option TriggerEpisodeRecord) : Prop :=
  Returned identity evaluation ∧ nextTriggerEpisode hashOf identity current evaluation = .ok next

/-- Every record of a run belongs to its identity and keeps the invariant. -/
def FoldInv (hashOf : HashInput → HashId) (identity : TriggerEpisodeIdentity)
    (current : Option TriggerEpisodeRecord) : Prop :=
  ∀ record, current = some record →
    EpisodeInv record ∧ record.identityHash = triggerEpisodeIdentityHash hashOf identity

theorem Returned.usable (returned : Returned identity evaluation) :
    (evaluation.business = .problem → evaluation.quality ≠ .unknown) ∧
      (evaluation.recovery = true → evaluation.quality ≠ .unknown) := by
  obtain ⟨snapshot, request, rfl, -⟩ := returned.value
  exact evaluate_usable

theorem FoldInv.owned (inv : FoldInv hashOf identity current) :
    ownedRecord hashOf identity current = current := by
  cases current with
  | none => rfl
  | some record => exact ownedRecord_of_hash (inv record rfl).2

theorem applyEvaluation_step (inv : FoldInv hashOf identity (some record))
    (returned : Returned identity evaluation) {instant watermark : Int}
    (at_ : evaluation.evaluatedAt.instant = some instant)
    (last : record.last.time.instant = some watermark) (later : watermark ≤ instant) :
    ∃ record', applyEvaluation hashOf identity evaluation (some record) = some record' ∧
      EpisodeInv record' ∧ record'.identityHash = triggerEpisodeIdentityHash hashOf identity ∧
      Progress record record' := by
  obtain ⟨inv, mine⟩ := inv record rfl
  cases state : record.state with
  | isOpen =>
    have opened : ¬ (record.state = .closed ∧ record.state = .isOpen) := by
      rw [state]
      exact nofun
    rw [applyEvaluation_open state]
    split
    next =>
      refine ⟨_, rfl, close_inv inv at_ last later, mine, ⟨watermark, instant, last, at_, later⟩,
        ?_, fun _ => ⟨rfl, rfl, rfl⟩⟩
      rw [if_neg (fun step => by cases step.2)]
      rfl
    next =>
      refine ⟨_, rfl, observe_inv inv at_ last later, mine, ⟨watermark, instant, last, at_, later⟩,
        ?_, fun _ => ⟨rfl, rfl, rfl⟩⟩
      exact (if_neg opened ▸ rfl : record.occurrence = record.occurrence +
        if record.state = .closed ∧ record.state = .isOpen then 1 else 0)
  | closed =>
    rw [applyEvaluation_closed state]
    split
    next problem =>
      refine ⟨_, rfl, openEpisode_inv (returned.usable.1 problem) at_, rfl,
        ⟨watermark, instant, last, at_, later⟩, ?_, fun quiet => absurd ⟨state, rfl⟩ quiet⟩
      rw [if_pos ⟨state, rfl⟩]
      rfl
    next =>
      refine ⟨record, rfl, inv, mine, ⟨watermark, watermark, last, last, le_rfl⟩, ?_,
        fun _ => ⟨rfl, rfl, rfl⟩⟩
      rw [if_neg (fun step => by rw [state] at step; cases step.2)]
      rfl

theorem FoldStep.of_some (step : FoldStep hashOf identity (some record) evaluation next)
    (inv : FoldInv hashOf identity (some record)) :
    ∃ record', next = some record' ∧ EpisodeInv record' ∧
      record'.identityHash = triggerEpisodeIdentityHash hashOf identity ∧
      Progress record record' := by
  obtain ⟨returned, ok⟩ := step
  obtain ⟨-, kept | ⟨-, applied, onTime⟩⟩ := next_cases ok
  · obtain ⟨opening, last, -, watermark, -, -⟩ := (inv record rfl).1.times
    have idle : ¬ (record.state = .closed ∧ record.state = .isOpen) := by
      intro step
      rw [step.1] at step
      cases step.2
    refine ⟨record, kept.1.trans inv.owned, (inv record rfl).1, (inv record rfl).2,
      ⟨last, last, watermark, watermark, le_rfl⟩, ?_, fun _ => ⟨rfl, rfl, rfl⟩⟩
    rw [if_neg idle]
    rfl
  · obtain ⟨instant, watermark, at_, last, later⟩ := onTime record inv.owned
    rw [inv.owned] at applied
    obtain ⟨record', result, facts⟩ := applyEvaluation_step inv returned at_ last later
    exact ⟨record', applied.trans result, facts⟩

theorem FoldStep.of_none (step : FoldStep hashOf identity none evaluation next) :
    next = none ∨ next = some (openEpisode hashOf identity 0 evaluation) ∧
      evaluation.business = .problem := by
  obtain ⟨-, kept | ⟨-, applied, -⟩⟩ := next_cases step.2
  · exact .inl kept.1
  · rw [show ownedRecord hashOf identity none = none from rfl, applyEvaluation_none] at applied
    split at applied
    next problem => exact .inr ⟨applied, problem⟩
    next => exact .inl applied

theorem foldInv_none : FoldInv hashOf identity none := by
  intro record absent
  cases absent

theorem FoldInv.step (inv : FoldInv hashOf identity current)
    (step : FoldStep hashOf identity current evaluation next) : FoldInv hashOf identity next := by
  cases current with
  | some record =>
    obtain ⟨record', after, facts, mine, -⟩ := step.of_some inv
    intro other same
    obtain rfl := Option.some.inj (after.symm.trans same)
    exact ⟨facts, mine⟩
  | none =>
    rcases step.of_none with absent | ⟨opened, problem⟩
    · intro other same
      rw [absent] at same
      cases same
    · obtain ⟨instant, at_⟩ := Option.isSome_iff_exists.mp step.1.parsable
      intro other same
      obtain rfl := Option.some.inj (opened.symm.trans same)
      exact ⟨openEpisode_inv (step.1.usable.1 problem) at_, rfl⟩

theorem foldInv_of_run (run : Run (FoldStep hashOf identity) none es current) :
    FoldInv hashOf identity current :=
  run.invariant foldInv_none fun _ _ _ inv step => inv.step step

theorem exists_next (wellFormed : identity.wellFormed = true)
    (inv : FoldInv hashOf identity current) (returned : Returned identity evaluation) :
    ∃ next, FoldStep hashOf identity current evaluation next := by
  obtain ⟨snapshot, request, value, version⟩ := returned.value
  obtain ⟨instant, at_⟩ := Option.isSome_iff_exists.mp returned.parsable
  have result : ∃ next, nextTriggerEpisode hashOf identity current evaluation = .ok next := by
    unfold nextTriggerEpisode
    rw [if_neg (not_not.mpr wellFormed)]
    dsimp only
    split
    next => exact ⟨_, rfl⟩
    next found =>
      have ids : ¬ (evaluation.ruleId ≠ identity.ruleId ∨
          evaluation.ruleVersion ≠ identity.version ∨ evaluation.scope ≠ identity.scope) := by
        subst value
        cases rule : snapshot.rule? ⟨identity.ruleId, identity.scope⟩ with
        | none => exact absurd (congrArg Outcome.reason (evaluateTriggerRule_of_none rule)) found
        | some rule' =>
          obtain ⟨sameId, sameVersion, sameScope⟩ := evaluate_ids rule
          rw [sameId, sameVersion, sameScope, version rule' rule]
          exact fun differ => differ.elim (· rfl) fun differ => differ.elim (· rfl) (· rfl)
      rw [if_neg ids, inv.owned]
      cases current with
      | none => exact ⟨_, rfl⟩
      | some record =>
        obtain ⟨-, last, -, watermark, -⟩ := (inv record rfl).1.times
        simp only [instantOf, at_, watermark]
        change ∃ next, (if instant < last then Except.ok (some record)
          else Except.ok (applyEvaluation hashOf identity evaluation (some record))) =
            Except.ok next
        split <;> exact ⟨_, rfl⟩
  obtain ⟨next, ok⟩ := result
  exact ⟨next, returned, ok⟩

end Runs

/-- **The history of an episode.**  Folding evaluations of one identity from nothing, in whatever
order their times come, never fails, keeps `EpisodeInv` on every record, and changes a record only
as `Progress` allows; a first record opens with occurrence zero. -/
theorem episode_history (hashOf : HashInput → HashId) (identity : TriggerEpisodeIdentity)
    (es : List TriggerEvaluationResult) (current : Option TriggerEpisodeRecord)
    (run : Run (FoldStep hashOf identity) none es current) :
    (∀ record, current = some record → EpisodeInv record) ∧
    (∀ evaluation, identity.wellFormed = true → Returned identity evaluation →
      ∃ next, nextTriggerEpisode hashOf identity current evaluation = .ok next) ∧
    ∀ evaluation next, FoldStep hashOf identity current evaluation next →
      (∀ record, current = some record → ∃ record', next = some record' ∧ Progress record record') ∧
      (current = none → ∀ record', next = some record' →
        record'.state = .isOpen ∧ record'.occurrence = 0) := by
  have inv := foldInv_of_run run
  refine ⟨fun record some => (inv record some).1, fun evaluation wellFormed returned => ?_,
    fun evaluation next step => ⟨?_, ?_⟩⟩
  · obtain ⟨next, -, ok⟩ := exists_next wellFormed inv returned
    exact ⟨next, ok⟩
  · intro record before
    subst before
    obtain ⟨record', after, -, -, progress⟩ := step.of_some inv
    exact ⟨record', after, progress⟩
  · intro before record' after
    subst before
    rcases step.of_none with absent | ⟨opened, -⟩
    · rw [absent] at after
      cases after
    · obtain rfl := Option.some.inj (opened.symm.trans after)
      exact ⟨rfl, rfl⟩

private def sessionsIdentity : TriggerEpisodeIdentity where
  resource := ⟨.databaseInstance, "7"⟩
  ruleId := "busy"
  version := 1
  bodyHash := "sha256:" ++ String.ofList (List.replicate 64 '0')
  scope := "item:sessions"
  contextHash := none

private def sessionsProblem : TriggerEvaluationResult :=
  evaluateTriggerRule sessionsSnapshot ⟨"busy", "item:sessions"⟩ (sessionsRequest 95 none)

/-- The first problem of an identity opens a record with the invariant. -/
theorem episode_history_opened : ∃ record,
    Run (FoldStep (fun _ => "sha256") sessionsIdentity) none [sessionsProblem] (some record) ∧
      record.state = .isOpen ∧ EpisodeInv record := by
  have business : sessionsProblem.business = .problem := by decide +kernel
  have reason : sessionsProblem.reason ≠ .ruleNotFound := by decide +kernel
  have wellFormed : sessionsIdentity.wellFormed = true := by rfl
  have returned : Returned sessionsIdentity sessionsProblem := by
    refine ⟨⟨_, _, rfl, fun rule found => ?_⟩, rfl⟩
    obtain rfl := Option.some.inj ((by rfl :
      sessionsSnapshot.rule? ⟨"busy", "item:sessions"⟩ = some sessionsRule).symm.trans found)
    rfl
  have ok : nextTriggerEpisode (fun _ => "sha256") sessionsIdentity none sessionsProblem =
      .ok (some (openEpisode (fun _ => "sha256") sessionsIdentity 0 sessionsProblem)) := by
    have ids : ¬ (sessionsProblem.ruleId ≠ sessionsIdentity.ruleId ∨
        sessionsProblem.ruleVersion ≠ sessionsIdentity.version ∨
        sessionsProblem.scope ≠ sessionsIdentity.scope) := by decide
    rw [nextTriggerEpisode, if_neg (not_not.mpr wellFormed)]
    dsimp only
    rw [if_neg reason, if_neg ids]
    exact congrArg Except.ok (if_pos business)
  have run : Run (FoldStep (fun _ => "sha256") sessionsIdentity) none [sessionsProblem] _ :=
    .single ⟨returned, ok⟩
  exact ⟨_, run, rfl, (episode_history _ _ _ _ run).1 _ rfl⟩

end Slide.Triggers
