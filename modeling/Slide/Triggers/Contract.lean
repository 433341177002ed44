import Slide.Metrics.Observations

/-!
# Trigger rules and samples

The values of `contracts/metrics/triggers.ts` that evaluation reads: resolved expressions, rule and
resource snapshots, applied evidence and samples.
-/

namespace Slide.Triggers

open Metrics

/-- `sha256:…`. -/
abbrev HashId := String

/-- `TRIGGER_LIMITS.max_series`. -/
def maxSeries : Nat := 32

/-- `TRIGGER_LIMITS.max_window_ms`. -/
def maxWindowMs : Nat := 86400000

inductive TriggerOperator
  | gt | ge | lt | le | eq | ne
deriving DecidableEq

inductive WindowAggregation
  | avg | min | max
deriving DecidableEq

/-- `TriggerSelectorSchema`: the newest sample, or an aggregation over a window. -/
inductive TriggerSelector
  | last
  | windowed (aggregation : WindowAggregation) (windowMs : Nat)
deriving DecidableEq

inductive GroupNode
  | all | any
deriving DecidableEq

/-- `ResolvedTriggerExpression`; every threshold is a constant. -/
inductive ResolvedTriggerExpression
  | compare (select : TriggerSelector) (operator : TriggerOperator) (threshold : FiniteNumber)
  | group (node : GroupNode) (children : List ResolvedTriggerExpression)

mutual

def ResolvedTriggerExpression.decEq : (a b : ResolvedTriggerExpression) → Decidable (a = b)
  | .compare s o t, .compare s' o' t' =>
    decidable_of_iff (s = s' ∧ o = o' ∧ t = t') (by rw [ResolvedTriggerExpression.compare.injEq])
  | .compare .., .group .. => isFalse nofun
  | .group .., .compare .. => isFalse nofun
  | .group n cs, .group n' cs' =>
    match instDecidableEqGroupNode n n', ResolvedTriggerExpression.decEqList cs cs' with
    | isTrue node, isTrue children => isTrue (by rw [node, children])
    | isFalse node, _ => isFalse fun same => node (ResolvedTriggerExpression.group.inj same).1
    | _, isFalse children =>
      isFalse fun same => children (ResolvedTriggerExpression.group.inj same).2

def ResolvedTriggerExpression.decEqList :
    (as bs : List ResolvedTriggerExpression) → Decidable (as = bs)
  | [], [] => isTrue rfl
  | [], _ :: _ => isFalse nofun
  | _ :: _, [] => isFalse nofun
  | a :: as, b :: bs =>
    match ResolvedTriggerExpression.decEq a b, ResolvedTriggerExpression.decEqList as bs with
    | isTrue head, isTrue tail => isTrue (by rw [head, tail])
    | isFalse head, _ => isFalse fun same => head (List.cons.inj same).1
    | _, isFalse tail => isFalse fun same => tail (List.cons.inj same).2

end

instance : DecidableEq ResolvedTriggerExpression := ResolvedTriggerExpression.decEq

structure TriggerQualityPolicy where
  acceptedQuality : List QualityStatus
  minCoverage : UnitFraction
  allowEstimated : Bool
deriving DecidableEq

structure TriggerClockPolicy where
  staleAfterMs : Nat
  /-- `after_ms` of an enabled nodata block. -/
  nodata : Option Nat
deriving DecidableEq

inductive TriggerDecision
  | collect | derive | disabled | unsupported | capabilityUnknown
deriving DecidableEq

inductive ParameterType
  | number | integer | boolean | string
deriving DecidableEq

inductive ParameterValue
  | number (value : FiniteNumber)
  | string (value : String)
  | boolean (value : Bool)
deriving DecidableEq

inductive ParameterSource
  | default | override
deriving DecidableEq

structure ResolvedTriggerParameter where
  name : String
  type : ParameterType
  value : ParameterValue
  source : ParameterSource
deriving DecidableEq

structure TriggerItemIdentity where
  (templateId itemId : String)
  itemVersion : Nat
deriving DecidableEq

/-- `TriggerRuleSnapshotSchema`. -/
structure TriggerRuleSnapshot where
  ruleId : String
  version : Nat
  bodyHash : HashId
  scope : String
  item : TriggerItemIdentity
  metric : MetricRef
  unit : MetricUnit
  dimensions : Dimensions
  decision : TriggerDecision
  parameters : List ResolvedTriggerParameter
  (problem recovery : ResolvedTriggerExpression)
  quality : TriggerQualityPolicy
  clock : TriggerClockPolicy
  snapshotHash : HashId
deriving DecidableEq

structure TriggerTemplatePin where
  templateId : String
  version : Nat
  contentHash : HashId
deriving DecidableEq

/-- A resource as the snapshots name it, with a decimal id. -/
structure TriggerResource where
  type : ResourceType
  id : String
deriving DecidableEq

/-- `TriggerResourceSnapshotSchema`, without its literal members. -/
structure TriggerResourceSnapshot where
  resource : TriggerResource
  configRevision : Nat
  planIdentity : HashId
  templates : List TriggerTemplatePin
  rules : List TriggerRuleSnapshot
  snapshotHash : HashId

inductive ApplicationStatus
  | pending | applied | failed
deriving DecidableEq

/-- `TriggerAppliedEvidenceSchema`; here the resource id is a number. -/
structure TriggerAppliedEvidence where
  resourceType : ResourceType
  (resourceId appliedRevision : Nat)
  planIdentity : HashId
  applicationStatus : ApplicationStatus

structure SampleWindow where
  (start stop : Timestamp)

/-- `TriggerSampleSchema`. -/
structure TriggerSample where
  metric : MetricRef
  unit : MetricUnit
  value : ScalarValue
  observedAt : Timestamp
  dimensions : Dimensions
  quality : Quality
  accuracy : Accuracy
  coverage : UnitFraction
  window : Option SampleWindow

/-! ## The applied-evidence fence -/

inductive TriggerFenceCode
  | evidenceInvalid | notApplied | resourceMismatch | revisionMismatch | planMismatch

/-- `checkTriggerSnapshotFence`; the evidence is what its schema makes of the untrusted input. -/
def checkTriggerSnapshotFence (snapshot : TriggerResourceSnapshot)
    (evidence : Option TriggerAppliedEvidence) : Except TriggerFenceCode Unit :=
  match evidence with
  | none => .error .evidenceInvalid
  | some trusted =>
    if trusted.applicationStatus ≠ .applied then .error .notApplied
    else if trusted.resourceType ≠ snapshot.resource.type ∨
        toString trusted.resourceId ≠ snapshot.resource.id then .error .resourceMismatch
    else if trusted.appliedRevision ≠ snapshot.configRevision then .error .revisionMismatch
    else if trusted.planIdentity ≠ snapshot.planIdentity then .error .planMismatch
    else .ok ()

end Slide.Triggers
