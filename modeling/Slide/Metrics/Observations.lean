import Slide.Metrics.Definitions

/-!
# Observations

The wire values of `contracts/metrics/observations.ts`.  The regular expressions of the integer
schemas admit exactly the canonical decimal texts, so an integer field is kept as its number.
-/

namespace Slide.Metrics

/-- `ScalarValueSchema`. -/
inductive ScalarValue
  | float64 (value : FiniteNumber)
  | int64 (value : Int)
  | uint64 (value : Nat)
deriving DecidableEq

/-- The upper bound of a histogram bucket: a number or `'+Inf'`. -/
inductive UpperBound
  | number (value : FiniteNumber)
  | infinity
deriving DecidableEq

structure HistogramBucket where
  upperBound : UpperBound
  count : Nat
deriving DecidableEq

structure HistogramValue where
  count : Nat
  sum : FiniteNumber
  buckets : List HistogramBucket
deriving DecidableEq

structure SummaryQuantile where
  quantile : UnitFraction
  value : FiniteNumber
deriving DecidableEq

structure SummaryValue where
  count : Nat
  sum : FiniteNumber
  quantiles : List SummaryQuantile
deriving DecidableEq

/-- `MetricValueSchema`; the source tells a scalar apart by its member `value`. -/
inductive MetricValue
  | scalar (value : ScalarValue)
  | histogram (value : HistogramValue)
  | summary (value : SummaryValue)
deriving DecidableEq

/-- `encoding` of a value. -/
def MetricValue.encoding : MetricValue → ValueType
  | .scalar (.float64 _) => .float64
  | .scalar (.int64 _) => .int64
  | .scalar (.uint64 _) => .uint64
  | .histogram _ => .histogram
  | .summary _ => .summary

inductive QualityStatus
  | good | partly | unknown | invalid
deriving DecidableEq

inductive QualityReason
  | none | partialInput | legacyUnknown | counterBaseline | counterReset | counterWrap | gap
  | missingInput | invalidDenominator | precisionLoss | sourceError | clockSkew
  | cardinalityExceeded | notApplicable
deriving DecidableEq

structure Quality where
  status : QualityStatus
  reason : QualityReason
deriving DecidableEq

inductive Accuracy
  | exact | estimated | unknown
deriving DecidableEq

inductive Production
  | measured | derived
deriving DecidableEq

inductive Freshness
  | fresh | stale | unknown
deriving DecidableEq

inductive DiscontinuityReason
  | boot | reset | wrap | sourceChange | initial
deriving DecidableEq

structure Discontinuity where
  epoch : String
  observedAt : Timestamp
  reason : DiscontinuityReason
deriving DecidableEq

inductive CounterBits
  | bits32 | bits64
deriving DecidableEq

/-- `CounterEvidenceSchema`. -/
structure CounterEvidence where
  startAt : Option Timestamp
  discontinuity : Option Discontinuity
  bits : CounterBits
deriving DecidableEq

inductive Stage
  | raw | normalized
deriving DecidableEq

structure ObservationRef where
  id : String
  stage : Stage
deriving DecidableEq

structure ObservationSource where
  (bindingId metricBindingId collectorId attemptId : String)
deriving DecidableEq

structure ObservationVersions where
  contract : Version
  packageId : String
  (packageVersion transformVersion : Version)
  configRevision : Nat
deriving DecidableEq

/-- What a raw and a normalized observation do not share. -/
inductive Origin
  | raw (rawField : String)
  | normalized (lineage : List ObservationRef)
deriving DecidableEq

/-- `RawObservationSchema` and `NormalizedObservationSchema`. -/
structure Observation where
  id : String
  resourceType : ResourceType
  resourceId : String
  metric : MetricRef
  dimensions : Dimensions
  (observedAt collectedAt : Timestamp)
  storedAt : Option Timestamp
  quality : Quality
  accuracy : Accuracy
  production : Production
  source : ObservationSource
  versions : ObservationVersions
  counter : Option CounterEvidence
  unit : MetricUnit
  value : Option MetricValue
  origin : Origin
deriving DecidableEq

def Observation.stage (o : Observation) : Stage :=
  match o.origin with
  | .raw _ => .raw
  | .normalized _ => .normalized

def Observation.ref (o : Observation) : ObservationRef := ⟨o.id, o.stage⟩

end Slide.Metrics
