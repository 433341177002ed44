import Slide.Triggers.Evaluate

/-!
# Trigger episodes

`metrics/triggers/episode.ts`: what one evaluation does to the last stored episode of one identity.
`hashOf` is SHA-256 over the canonical JSON of its preimage; it stays a parameter, with one
constructor of `HashInput` for each kind of preimage.
-/

namespace Slide.Triggers

open Metrics

/-- `TriggerEpisodeIdentitySchema`, before its checks. -/
structure TriggerEpisodeIdentity where
  resource : TriggerResource
  ruleId : String
  version : Nat
  bodyHash : HashId
  scope : String
  contextHash : Option HashId

/-- What a series of the runtime is isolated by: a discovered instance, or its dimensions. -/
inductive SeriesContext
  | instanceId (id : String)
  | dimensions (entries : List (String × String))

/-- What is hashed: snapshots and their rules without their own hash, episode identities, episodes,
and the contexts the runtime isolates series by. -/
inductive HashInput
  | rule (body : TriggerRuleSnapshot)
  | snapshot (body : TriggerResourceSnapshot)
  | episodeIdentity (identity : TriggerEpisodeIdentity)
  | episode (identityHash : HashId) (occurrence : Nat)
  | context (snapshotHash : HashId) (item : TriggerItemIdentity) (series : SeriesContext)

/-! ## The identity schema -/

/-- `^[A-Za-z0-9][A-Za-z0-9_-]{0,63}$`. -/
def isName (text : String) : Bool :=
  match text.toList with
  | [] => false
  | first :: rest =>
    first.isAlphanum && decide (rest.length ≤ 63) &&
      rest.all fun c => c.isAlphanum || c == '_' || c == '-'

/-- `^sha256:[a-f0-9]{64}$`. -/
def isHashId (text : String) : Bool :=
  let digits := text.toList.drop 7
  text.toList.take 7 == "sha256:".toList && digits.length == 64 &&
    digits.all fun c => c.isDigit || decide ('a' ≤ c ∧ c ≤ 'f')

/-- `^[1-9]\d{0,15}$`. -/
def isResourceId (text : String) : Bool :=
  match text.toList with
  | [] => false
  | first :: rest =>
    first.isDigit && first != '0' && decide (rest.length ≤ 15) && rest.all Char.isDigit

/-- `^item:` and a name. -/
def isTriggerScope (text : String) : Bool :=
  text.toList.take 5 == "item:".toList && isName (String.ofList (text.toList.drop 5))

/-- `TriggerEpisodeIdentitySchema.safeParse(identity).success`. -/
def TriggerEpisodeIdentity.wellFormed (identity : TriggerEpisodeIdentity) : Bool :=
  isResourceId identity.resource.id && isName identity.ruleId &&
    decide (1 ≤ identity.version ∧ identity.version ≤ 2147483647) && isHashId identity.bodyHash &&
    isTriggerScope identity.scope && identity.contextHash.all isHashId

/-! ## Records -/

inductive EpisodeState
  | isOpen | closed
deriving DecidableEq

/-- The verdict a transition observed last. -/
structure TriggerEpisodeEvidence where
  business : TriggerBusinessState
  quality : TriggerEvidenceQuality
  reason : TriggerEvaluationReason
  nodata : Bool
  value : Option FiniteNumber
  dimensions : Option Dimensions
  time : DateText
deriving DecidableEq

/-- An interval in which the episode was open and the evidence could not be judged. -/
structure TriggerEpisodeUnknownSegment where
  start : DateText
  stop : Option DateText
  reason : TriggerEvaluationReason
deriving DecidableEq

structure TriggerEpisodeOpening where
  item : TriggerItemIdentity
  metric : MetricRef
  value : Option FiniteNumber
  reason : TriggerEvaluationReason
  time : DateText
deriving DecidableEq

structure TriggerEpisodeRecord where
  (episodeId identityHash : HashId)
  resource : TriggerResource
  ruleId : String
  version : Nat
  bodyHash : HashId
  scope : String
  state : EpisodeState
  occurrence : Nat
  openedAt : DateText
  closedAt : Option DateText
  recoveryCount : Nat
  last : TriggerEpisodeEvidence
  opened : TriggerEpisodeOpening
  unknownSegments : List TriggerEpisodeUnknownSegment
  unknownOpenFrom : Option DateText
deriving DecidableEq

inductive TriggerEpisodeErrorCode
  | identity | time
deriving DecidableEq

/-- `evidenceOf`. -/
def TriggerEvaluationResult.evidence (evaluation : TriggerEvaluationResult) :
    TriggerEpisodeEvidence where
  business := evaluation.business
  quality := evaluation.quality
  reason := evaluation.reason
  nodata := evaluation.nodata
  value := evaluation.value
  dimensions := evaluation.dimensions
  time := evaluation.evaluatedAt

/-- `openingOf`. -/
def TriggerEvaluationResult.opening (evaluation : TriggerEvaluationResult) :
    TriggerEpisodeOpening where
  item := evaluation.item
  metric := evaluation.metric
  value := evaluation.value
  reason := evaluation.reason
  time := evaluation.evaluatedAt

def instantOf (date : DateText) : Except TriggerEpisodeErrorCode Int :=
  match date.instant with
  | some instant => .ok instant
  | none => .error .time

/-- `unknownIntervalsAfter`: the segments and the open marker after one piece of evidence. -/
def unknownIntervalsAfter (record : TriggerEpisodeRecord) (evidence : TriggerEpisodeEvidence) :
    List TriggerEpisodeUnknownSegment × Option DateText :=
  if evidence.quality = .unknown then
    match record.unknownOpenFrom with
    | some start => (record.unknownSegments, some start)
    | none =>
      (record.unknownSegments ++ [⟨evidence.time, none, evidence.reason⟩], some evidence.time)
  else
    match record.unknownOpenFrom, record.unknownSegments.getLast? with
    | none, _ => (record.unknownSegments, none)
    -- an open marker without an interval behind it fabricates none
    | some _, none => (record.unknownSegments, none)
    | some _, some segment =>
      (record.unknownSegments.dropLast ++ [{ segment with stop := some evidence.time }], none)

/-- An open record after evidence that does not close it. -/
def TriggerEpisodeRecord.observe (record : TriggerEpisodeRecord)
    (evidence : TriggerEpisodeEvidence) : TriggerEpisodeRecord :=
  { record with
    unknownSegments := (unknownIntervalsAfter record evidence).1
    unknownOpenFrom := (unknownIntervalsAfter record evidence).2
    last := evidence }

/-- An open record after its recovery. -/
def TriggerEpisodeRecord.close (record : TriggerEpisodeRecord)
    (evidence : TriggerEpisodeEvidence) : TriggerEpisodeRecord :=
  { record.observe evidence with
    state := .closed, closedAt := some evidence.time, recoveryCount := 1 }

section Transition

variable (hashOf : HashInput → HashId)

def triggerEpisodeIdentityHash (identity : TriggerEpisodeIdentity) : HashId :=
  hashOf (.episodeIdentity identity)

/-- The record a definite problem opens. -/
def openEpisode (identity : TriggerEpisodeIdentity) (occurrence : Nat)
    (evaluation : TriggerEvaluationResult) : TriggerEpisodeRecord where
  episodeId := hashOf (.episode (triggerEpisodeIdentityHash hashOf identity) occurrence)
  identityHash := triggerEpisodeIdentityHash hashOf identity
  resource := identity.resource
  ruleId := identity.ruleId
  version := identity.version
  bodyHash := identity.bodyHash
  scope := identity.scope
  state := .isOpen
  occurrence
  openedAt := evaluation.evaluatedAt
  closedAt := none
  recoveryCount := 0
  last := evaluation.evidence
  opened := evaluation.opening
  unknownSegments := []
  unknownOpenFrom := none

/-- The previous record, when it belongs to this identity. -/
def ownedRecord (identity : TriggerEpisodeIdentity) (previous : Option TriggerEpisodeRecord) :
    Option TriggerEpisodeRecord :=
  previous.filter fun record => record.identityHash == triggerEpisodeIdentityHash hashOf identity

/-- Where the watermark has let an evaluation through. -/
def applyEvaluation (identity : TriggerEpisodeIdentity) (evaluation : TriggerEvaluationResult) :
    Option TriggerEpisodeRecord → Option TriggerEpisodeRecord
  | none =>
    if evaluation.business = .problem then some (openEpisode hashOf identity 0 evaluation) else none
  | some owned =>
    match owned.state with
    | .isOpen =>
      if evaluation.recovery then some (owned.close evaluation.evidence)
      else some (owned.observe evaluation.evidence)
    | .closed =>
      if evaluation.business = .problem then
        some (openEpisode hashOf identity (owned.occurrence + 1) evaluation)
      else some owned

def nextTriggerEpisode (identity : TriggerEpisodeIdentity)
    (previous : Option TriggerEpisodeRecord) (evaluation : TriggerEvaluationResult) :
    Except TriggerEpisodeErrorCode (Option TriggerEpisodeRecord) :=
  if ¬ identity.wellFormed then .error .identity
  else
    let owned := ownedRecord hashOf identity previous
    if evaluation.reason = .ruleNotFound then .ok owned
    else if evaluation.ruleId ≠ identity.ruleId ∨ evaluation.ruleVersion ≠ identity.version ∨
        evaluation.scope ≠ identity.scope then .error .identity
    else match owned with
      | none => .ok (applyEvaluation hashOf identity evaluation none)
      | some record => do
        let instant ← instantOf evaluation.evaluatedAt
        let watermark ← instantOf record.last.time
        if instant < watermark then pure (some record)
        else pure (applyEvaluation hashOf identity evaluation (some record))

end Transition

/-! ## What a transition does -/

variable {hashOf : HashInput → HashId} {identity : TriggerEpisodeIdentity}
  {previous next : Option TriggerEpisodeRecord} {evaluation : TriggerEvaluationResult}
  {record : TriggerEpisodeRecord}

theorem ownedRecord_some (owned : ownedRecord hashOf identity previous = some record) :
    previous = some record := (Option.filter_eq_some_iff.mp owned).1

theorem ownedRecord_of_hash
    (mine : record.identityHash = triggerEpisodeIdentityHash hashOf identity) :
    ownedRecord hashOf identity (some record) = some record :=
  Option.filter_eq_some_iff.mpr ⟨rfl, beq_iff_eq.mpr mine⟩

theorem applyEvaluation_none : applyEvaluation hashOf identity evaluation none =
    if evaluation.business = .problem then some (openEpisode hashOf identity 0 evaluation)
    else none := rfl

theorem applyEvaluation_open (isOpen : record.state = .isOpen) :
    applyEvaluation hashOf identity evaluation (some record) =
      if evaluation.recovery then some (record.close evaluation.evidence)
      else some (record.observe evaluation.evidence) := by
  simp only [applyEvaluation, isOpen]

theorem applyEvaluation_closed (closed : record.state = .closed) :
    applyEvaluation hashOf identity evaluation (some record) =
      if evaluation.business = .problem then
        some (openEpisode hashOf identity (record.occurrence + 1) evaluation)
      else some record := by
  simp only [applyEvaluation, closed]

theorem next_cases (ok : nextTriggerEpisode hashOf identity previous evaluation = .ok next) :
    identity.wellFormed = true ∧
      (next = ownedRecord hashOf identity previous ∧
          (evaluation.reason = .ruleNotFound ∨ ∃ record instant watermark,
            ownedRecord hashOf identity previous = some record ∧
            evaluation.evaluatedAt.instant = some instant ∧
            record.last.time.instant = some watermark ∧ instant < watermark) ∨
        evaluation.reason ≠ .ruleNotFound ∧
          next = applyEvaluation hashOf identity evaluation (ownedRecord hashOf identity previous) ∧
          ∀ record, ownedRecord hashOf identity previous = some record →
            ∃ instant watermark, evaluation.evaluatedAt.instant = some instant ∧
              record.last.time.instant = some watermark ∧ watermark ≤ instant) := by
  unfold nextTriggerEpisode at ok
  split at ok
  next => cases ok
  next wellFormed =>
    refine ⟨not_not.mp wellFormed, ?_⟩
    dsimp only at ok
    split at ok
    next missing => exact .inl ⟨(Except.ok.inj ok).symm, .inl missing⟩
    next found =>
      split at ok
      next => cases ok
      next =>
        split at ok
        next none =>
          refine .inr ⟨found, ?_, ?_⟩
          · rw [none]
            exact (Except.ok.inj ok).symm
          · intro record some
            rw [none] at some
            cases some
        next record owned =>
          rw [owned]
          cases later : evaluation.evaluatedAt.instant with
          | none =>
            simp only [instantOf, later] at ok
            cases ok
          | some instant =>
            cases earlier : record.last.time.instant with
            | none =>
              simp only [instantOf, later, earlier] at ok
              cases ok
            | some watermark =>
              simp only [instantOf, later, earlier] at ok
              change (if instant < watermark then Except.ok (some record)
                else Except.ok (applyEvaluation hashOf identity evaluation (some record))) =
                  Except.ok next at ok
              split at ok
              next late =>
                exact .inl ⟨(Except.ok.inj ok).symm,
                  .inr ⟨record, instant, watermark, rfl, rfl, earlier, late⟩⟩
              next onTime =>
                refine .inr ⟨found, (Except.ok.inj ok).symm, fun other same => ?_⟩
                obtain rfl := some.inj same
                exact ⟨instant, watermark, rfl, earlier, by omega⟩

end Slide.Triggers
