import Slide.Library.Table
import Slide.Triggers.Episode

/-!
# The trigger runtime

`evaluateTemplateSamples` of `metrics/triggers/runtime.ts`, over the tables it reads and writes.  A
call names a resource, the revision its binding applies and the observations of a formal write, or
none for a tick of the clock; it runs in a transaction, so a call that throws changes nothing.

A series is one rule on one set of dimensions.  Each gets a head, stored under the hash of its
identity; `evaluateSeries` is the body of the loop over the series and answers with the hash of the
head it locked.  Two answers come from code outside this module and are part of a call: the
discovered members of a rule and whether an upstream dependency blocks a new problem.
-/

namespace Slide.Triggers

open Metrics

/-- `stable(dimensions)`, as the sorted entries it prints. -/
abbrev SeriesDimensions := List (String × String)

/-- A row of `metric_trigger_heads`, under its `identity_hash`. -/
structure TriggerHead where
  resourceKey : String
  configRevision : Nat
  ruleId : String
  dimensions : SeriesDimensions
  payload : Option TriggerEpisodeRecord
  sampleWatermark : Option Timestamp

/-- A row of `metric_trigger_inputs`. -/
structure TriggerInputRow where
  identityHash : HashId
  sampleId : String
  observedAt : Timestamp
  sample : Option TriggerSample

/-- A row of `metric_trigger_episodes`, under its `episode_id`; `configuration` is the snapshot
the episode opened under. -/
structure TriggerEpisodeRow where
  identityHash : HashId
  resourceKey : String
  configRevision : Nat
  payload : TriggerEpisodeRecord
  configuration : TriggerResourceSnapshot

structure TriggerDb where
  snapshots : Table (String × Nat) TriggerResourceSnapshot
  heads : Table HashId TriggerHead
  inputs : List TriggerInputRow
  episodes : Table HashId TriggerEpisodeRow

inductive MemberState
  | active | waiting | other
deriving DecidableEq

/-- A member a discovery rule found. -/
structure DiscoveryMember where
  id : String
  dimensions : SeriesDimensions
  state : MemberState

/-- One call of `evaluateTemplateSamples`. -/
structure TriggerCall where
  /-- `type:id` of the bound resource. -/
  resourceKey : String
  revision : Nat
  applied : TriggerAppliedEvidence
  /-- Whether some trigger of the plan references a rule. -/
  hasTriggers : Bool
  intervalMs : Nat
  observations : List Observation
  now : Int
  clockOnly : Bool
  /-- The members of the discovery rows that carry a rule; `none` without such a row. -/
  discovered : TriggerRuleSnapshot → Option (List DiscoveryMember)
  /-- Whether `blockingDependencies` names a blocker for a rule. -/
  blocked : String → Bool

/-- What the host supplies: SHA-256 over canonical JSON, and the collation behind
`localeCompare`. -/
structure Platform where
  hashOf : HashInput → HashId
  localeLe : String → String → Bool

section Runtime

variable (env : Platform)

/-! ## Snapshots -/

/-- `verifyTriggerSnapshot` on a stored snapshot: every declared hash recomputes. -/
def verifyTriggerSnapshot (snapshot : TriggerResourceSnapshot) :
    Except String TriggerResourceSnapshot :=
  if ∃ rule ∈ snapshot.rules,
      rule.snapshotHash ≠ env.hashOf (.rule { rule with snapshotHash := "" }) then
    .error "TRIGGER_SNAPSHOT_HASH_MISMATCH"
  else if snapshot.snapshotHash ≠ env.hashOf (.snapshot { snapshot with snapshotHash := "" }) then
    .error "TRIGGER_SNAPSHOT_HASH_MISMATCH"
  else .ok snapshot

variable (db : TriggerDb)

/-- The snapshot of the revision before `revision`, verified when there is one. -/
def priorSnapshot (resourceKey : String) (revision : Nat) :
    Except String (Option TriggerResourceSnapshot) :=
  match revision with
  | 0 => .ok none
  | before + 1 =>
    match db.snapshots.get (resourceKey, before) with
    | none => .ok none
    | some stored => (verifyTriggerSnapshot env stored).map some

/-- `stable(old) === stable(rule)`: the order of the dimension entries does not show. -/
def sameRule (old rule : TriggerRuleSnapshot) : Bool :=
  decide ({ old with dimensions := rule.dimensions } = rule) &&
    decide (old.dimensions.sorted = rule.dimensions.sorted)

/-- `continuesAfterPinRemoval` of `provider-state.ts`. -/
def continuesAfterPinRemoval (previous : Option TriggerResourceSnapshot)
    (current : TriggerResourceSnapshot) (rule : TriggerRuleSnapshot) : Bool :=
  match previous with
  | none => false
  | some previous =>
    decide (previous.configRevision + 1 = current.configRevision) &&
      decide (current.templates.length < previous.templates.length) &&
      current.templates.all (previous.templates.contains ·) &&
      previous.rules.any (sameRule · rule)

/-! ## Heads -/

variable (call : TriggerCall) (current : TriggerResourceSnapshot) (rule : TriggerRuleSnapshot)

/-- The identity of a series under a snapshot. -/
def seriesIdentity (series : SeriesContext) : TriggerEpisodeIdentity where
  resource := current.resource
  ruleId := rule.ruleId
  version := rule.version
  bodyHash := rule.bodyHash
  scope := rule.scope
  contextHash := some (env.hashOf (.context current.snapshotHash rule.item series))

def seriesHash (series : SeriesContext) : HashId :=
  triggerEpisodeIdentityHash env.hashOf (seriesIdentity env current rule series)

/-- A discovered member isolates a series by its instance, other series by their dimensions. -/
def seriesContext (discovered : Option (List DiscoveryMember)) (dimensions : SeriesDimensions) :
    SeriesContext :=
  match (discovered.getD []).find? (·.dimensions = dimensions) with
  | some member => .instanceId member.id
  | none => .dimensions dimensions

/-- The heads of a series at a revision that carry a record of a stored episode, with the record and
the snapshot that episode opened under. -/
def priorHeads (resourceKey : String) (revision : Nat) (ruleId : String)
    (dimensions : SeriesDimensions) :
    List (HashId × TriggerEpisodeRecord × TriggerResourceSnapshot) :=
  db.heads.entries.filterMap fun (hash, head) => do
    guard (head.resourceKey = resourceKey ∧ head.configRevision = revision ∧
      head.ruleId = ruleId ∧ head.dimensions = dimensions)
    let record ← head.payload
    let episode ← db.episodes.get record.episodeId
    pure (hash, record, episode.configuration)

/-- The identity a continued head keeps. -/
def continuedIdentity (dimensions : SeriesDimensions)
    (record : TriggerEpisodeRecord) (origin : TriggerResourceSnapshot) :
    TriggerEpisodeIdentity where
  resource := record.resource
  ruleId := record.ruleId
  version := record.version
  bodyHash := record.bodyHash
  scope := record.scope
  contextHash := some (env.hashOf (.context origin.snapshotHash rule.item (.dimensions dimensions)))

/-- The head of a series: the one the revision before left, moved to this revision, or the one under
the series' own identity, inserted when it is missing. -/
def claimHead (previous : Option TriggerResourceSnapshot) (rule : TriggerRuleSnapshot)
    (dimensions : SeriesDimensions) :
    Except String (TriggerDb × TriggerEpisodeIdentity × HashId) :=
  let discovered := call.discovered rule
  let series := seriesContext discovered dimensions
  let hash := seriesHash env current rule series
  let own : TriggerDb × TriggerEpisodeIdentity × HashId :=
    ({ db with
        heads := (db.heads.insertNew hash ⟨call.resourceKey, current.configRevision, rule.ruleId,
          dimensions, none, none⟩).updateWhere hash (fun _ => true)
            (fun head => { head with dimensions }) |>.1 },
      seriesIdentity env current rule series, hash)
  if discovered = none ∧ continuesAfterPinRemoval previous current rule then
    match priorHeads db call.resourceKey (current.configRevision - 1) rule.ruleId dimensions with
    | [(hash, record, origin)] => do
      let origin ← verifyTriggerSnapshot env origin
      let identity := continuedIdentity env rule dimensions record origin
      if triggerEpisodeIdentityHash env.hashOf identity ≠ hash then .error "TRIGGER_HEAD_IDENTITY"
      else
        let moved := db.heads.updateWhere hash (fun _ => true)
          fun head => { head with configRevision := current.configRevision }
        pure ({ db with heads := moved.1 }, identity, hash)
    | _ => .ok own
  else .ok own

/-! ## Inputs -/

/-- The evaluator input of an observation; null and non-scalar values have none. -/
def sampleOf (o : Observation) : Option TriggerSample :=
  match o.value with
  | some (.scalar value) =>
    some { metric := o.metric, unit := o.unit, value, observedAt := o.observedAt
           dimensions := o.dimensions, quality := o.quality, accuracy := o.accuracy
           coverage := ⟨Binary64.ofInt 1, one_inside⟩, window := none }
  | _ => none

/-- The loop over the observations of a series: those after the watermark are recorded, in order,
and move it. -/
def acceptObservations (hash : HashId) (watermark : Option Timestamp) :
    List Observation → List TriggerInputRow → Except String (List TriggerInputRow × Option Timestamp × Nat)
  | [], inputs => .ok (inputs, watermark, 0)
  | o :: rest, inputs =>
    if watermark.any fun seen => decide (o.observedAt.ms ≤ seen.ms) then
      acceptObservations hash watermark rest inputs
    else if inputs.any fun row => row.identityHash == hash && row.sampleId == o.id then
      .error "ER_DUP_ENTRY"
    else do
      let (inputs, watermark, accepted) ← acceptObservations hash (some o.observedAt) rest
        (inputs ++ [⟨hash, o.id, o.observedAt, sampleOf o⟩])
      pure (inputs, watermark, accepted + 1)

/-- The recorded inputs of a head in the last day, oldest first. -/
def windowInputs (inputs : List TriggerInputRow) (hash : HashId) (now : Int) :
    List TriggerInputRow :=
  (inputs.filter fun row => row.identityHash = hash ∧ now - maxWindowMs ≤ row.observedAt.ms ∧
    row.observedAt.ms ≤ now).insertionSort fun left right =>
      left.observedAt.ms < right.observedAt.ms ∨
        left.observedAt.ms = right.observedAt.ms ∧ left.sampleId ≤ right.sampleId

mutual

/-- The longest window an expression selects. -/
def windowMs : ResolvedTriggerExpression → Nat
  | .compare .last _ _ => 0
  | .compare (.windowed _ window) _ _ => window
  | .group _ children => windowMsOfAll children

def windowMsOfAll : List ResolvedTriggerExpression → Nat
  | [] => 0
  | child :: rest => max (windowMs child) (windowMsOfAll rest)

end

/-- The window of a sample: from the input before it, when that lies within 1.25 intervals. -/
def sampleWindow (inputs : List TriggerInputRow) (intervalMs : Nat) (sample : TriggerSample) :
    Option SampleWindow := do
  let index := inputs.findIdx fun row =>
    row.sample.any (·.observedAt.text = sample.observedAt.text)
  let prior ← if index = 0 then none else (inputs[index - 1]?).bind TriggerInputRow.sample
  let gap := sample.observedAt.ms - prior.observedAt.ms
  if 0 < gap ∧ 4 * gap ≤ 5 * intervalMs then some ⟨prior.observedAt, sample.observedAt⟩ else none

/-- The samples a rule is evaluated on. -/
def selectedSamples (inputs : List TriggerInputRow) (rule : TriggerRuleSnapshot)
    (dimensions : SeriesDimensions) (intervalMs : Nat) (now : Int) : List TriggerSample :=
  let samples := (inputs.filterMap TriggerInputRow.sample).filter fun sample =>
    sample.dimensions.sorted = dimensions
  let window := max (windowMs rule.problem) (windowMs rule.recovery)
  if window = 0 then samples.getLast?.toList
  else (samples.map fun sample =>
    { sample with window := sampleWindow inputs intervalMs sample }).filter fun sample =>
      now - window ≤ sample.observedAt.ms

/-! ## Transitions -/

/-- The request the runtime builds; its input is well formed by construction. -/
def requestOf (previous : Option TriggerEpisodeRecord)
    (watermark : Option Timestamp) (samples : List TriggerSample) : TriggerEvaluationRequest :=
  let previous : Option TriggerBusinessState :=
    if previous.any (·.state = .isOpen) then some .problem else none
  { input :=
      { now := some (Timestamp.ofMs call.now).toDateText
        previousIsProblem := previous == some .problem
        parsed := some ⟨Timestamp.ofMs call.now, watermark, previous, samples⟩
        now_parsed := fun _ same => some.inj same ▸ rfl
        previous_parsed := fun _ same => some.inj same ▸ rfl }
    applied := some call.applied }

/-- `verdict`: a fired nodata clock counts as a problem. -/
def nodataVerdict (evaluation : TriggerEvaluationResult) : TriggerEvaluationResult :=
  if evaluation.nodata then { evaluation with business := .problem, problemOpen := true }
  else evaluation

def episodeError : TriggerEpisodeErrorCode → String
  | .identity => "TRIGGER_EPISODE_IDENTITY"
  | .time => "TRIGGER_EPISODE_TIME"

/-- The record after a verdict; a blocked rule opens no new problem. -/
def nextRecord (ruleId : String) (identity : TriggerEpisodeIdentity)
    (previous : Option TriggerEpisodeRecord) (verdict : TriggerEvaluationResult) :
    Except String (Option TriggerEpisodeRecord) :=
  match nextTriggerEpisode env.hashOf identity previous verdict with
  | .error code => .error (episodeError code)
  | .ok next =>
    if next.any (·.state = .isOpen) ∧ ¬ previous.any (·.state = .isOpen) ∧ call.blocked ruleId then
      .ok previous
    else .ok next

/-- `persistTemplateTransition` of `alert-event-service.ts`, on the episodes. -/
def persistTemplateTransition (previous : Option TriggerEpisodeRecord)
    (next : TriggerEpisodeRecord) (current : TriggerResourceSnapshot) (resourceKey : String) :
    Except String TriggerDb :=
  if previous.any (·.episodeId = next.episodeId) then
    let updated := db.episodes.updateWhere next.episodeId (fun _ => true)
      fun row => { row with payload := next }
    if previous.any (·.state = .isOpen) ∧ next.state = .closed ∧ updated.2 ≠ 1 then
      .error "TRIGGER_EPISODE_MISSING"
    else .ok { db with episodes := updated.1 }
  else if (db.episodes.get next.episodeId).isSome then .error "ER_DUP_ENTRY"
  else
    .ok { db with
      episodes := db.episodes.put next.episodeId
        ⟨next.identityHash, resourceKey, current.configRevision, next, current⟩ }

/-- The update of a head and the removal of its outdated inputs. -/
def TriggerDb.settle (hash : HashId) (next : Option TriggerEpisodeRecord)
    (watermark : Option Timestamp) (now : Int) : TriggerDb :=
  { db with
    heads := (db.heads.updateWhere hash (fun _ => true)
      fun head => { head with payload := next, sampleWatermark := watermark }).1
    inputs := db.inputs.filter fun row =>
      ¬ (row.identityHash = hash ∧ row.observedAt.ms < now - maxWindowMs) }

/-- The observations of a call that belong to a rule. -/
def matchingObservations : List Observation :=
  call.observations.filter fun o => o.metric = rule.metric

/-- The evaluation of a locked head. -/
def evaluateHead (dimensions : SeriesDimensions)
    (identity : TriggerEpisodeIdentity) (hash : HashId) (head : TriggerHead) :
    Except String TriggerDb := do
  let matching := matchingObservations call rule
  let ordered := (matching.filter (·.dimensions.sorted = dimensions)).insertionSort
    fun left right =>
      ¬ env.localeLe right.observedAt.text left.observedAt.text ∨
        env.localeLe left.observedAt.text right.observedAt.text ∧ env.localeLe left.id right.id
  let (inputs, watermark, accepted) ←
    acceptObservations hash head.sampleWatermark ordered db.inputs
  if ¬ call.clockOnly ∧ matching ≠ [] ∧ accepted = 0 then pure db
  else
    let recent := windowInputs inputs hash call.now
    if 4096 < recent.length then throw "TRIGGER_INPUT_BUDGET"
    let newestUsable := (recent.getLast?.bind TriggerInputRow.sample).isSome
    let selected := selectedSamples recent rule dimensions call.intervalMs call.now
    let evaluation := evaluateTriggerRule current ⟨rule.ruleId, rule.scope⟩
      (requestOf call head.payload watermark (if newestUsable then selected else []))
    let next ← nextRecord env call rule.ruleId identity head.payload (nodataVerdict evaluation)
    let persisted ← match next with
      | none => pure { db with inputs }
      | some record =>
        persistTemplateTransition { db with inputs } head.payload record current call.resourceKey
    pure (persisted.settle hash next watermark call.now)

/-- One series of a call; the result names the head it read and updated. -/
def evaluateSeries (previous : Option TriggerResourceSnapshot) (rule : TriggerRuleSnapshot)
    (dimensions : SeriesDimensions) : Except String (TriggerDb × HashId) := do
  let (claimed, identity, hash) ← claimHead env db call current previous rule dimensions
  match claimed.heads.get hash with
  | none => throw "TRIGGER_HEAD_MISSING"
  | some head =>
    let settled ← evaluateHead env claimed call current rule dimensions identity hash head
    pure (settled, hash)

/-! ## Calls -/

/-- The dimensions a call evaluates a rule on: those observed, those of the heads of this revision,
and none at all when there are no others; a discovered rule only keeps its admitted members. -/
def seriesDimensions : List SeriesDimensions :=
  let observed := (matchingObservations call rule).map (·.dimensions.sorted)
  let stored := db.heads.entries.filterMap fun (_, head) =>
    if head.resourceKey = call.resourceKey ∧ head.configRevision = current.configRevision ∧
      head.ruleId = rule.ruleId then some head.dimensions else none
  let dimensions := (observed ++ stored).dedup
  let dimensions := if dimensions = [] then [[]] else dimensions
  match call.discovered rule with
  | none => dimensions
  | some members =>
    let admitted := (members.filter (·.state ≠ .other)).map DiscoveryMember.dimensions
    dimensions.filter admitted.contains

/-- The head a call read and updated for a series. -/
structure SeriesEvent where
  call : TriggerCall
  rule : TriggerRuleSnapshot
  dimensions : SeriesDimensions
  hash : HashId

/-- The loop over the series of a rule. -/
def evaluateAllSeries (call : TriggerCall) (current : TriggerResourceSnapshot)
    (previous : Option TriggerResourceSnapshot) (rule : TriggerRuleSnapshot) :
    List SeriesDimensions → TriggerDb → Except String (TriggerDb × List SeriesEvent)
  | [], db => .ok (db, [])
  | dimensions :: rest, db => do
    let (db, hash) ← evaluateSeries env db call current previous rule dimensions
    let (db, events) ← evaluateAllSeries call current previous rule rest db
    pure (db, ⟨call, rule, dimensions, hash⟩ :: events)

/-- The loop over the rules of a snapshot. -/
def evaluateRules (call : TriggerCall) (current : TriggerResourceSnapshot)
    (previous : Option TriggerResourceSnapshot) :
    List TriggerRuleSnapshot → TriggerDb → Except String (TriggerDb × List SeriesEvent)
  | [], db => .ok (db, [])
  | rule :: rest, db => do
    if rule.decision ≠ .collect ∧ rule.decision ≠ .derive then
      evaluateRules call current previous rest db
    else
      let dimensions := seriesDimensions db call current rule
      if maxSeries < dimensions.length then throw "TRIGGER_SERIES_BUDGET"
      let (db, first) ← evaluateAllSeries env call current previous rule dimensions db
      let (db, others) ← evaluateRules call current previous rest db
      pure (db, first ++ others)

/-- `evaluateTemplateSamples`: the database after the call, and the heads it read and updated. -/
def evaluateTemplateSamples :
    Except String (TriggerDb × List SeriesEvent) := do
  if ¬ call.hasTriggers then pure (db, [])
  else match db.snapshots.get (call.resourceKey, call.revision) with
    | none => throw "TRIGGER_SNAPSHOT_MISSING"
    | some stored =>
      let current ← verifyTriggerSnapshot env stored
      let previous ← priorSnapshot env db call.resourceKey current.configRevision
      match checkTriggerSnapshotFence current (some call.applied) with
      | .error _ => throw "TRIGGER_NOT_APPLIED"
      | .ok () => evaluateRules env call current previous current.rules db

end Runtime

end Slide.Triggers
