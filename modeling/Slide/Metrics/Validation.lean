import Slide.Library.Fallible
import Slide.Metrics.Arithmetic

/-!
# Validity of definitions and observations

The checks of `contracts/metrics/validation.ts`.  A value has the shape its schema asks for by its
type here; what remains are the rules, in the order of the source, each with its code.

`digest` is SHA-256 over the canonical JSON of a preimage; a series identity, which the source
compares only, stays a structured key.
-/

namespace Slide.Metrics

/-- `CONTRACT_VERSION`. -/
def contractVersion : Version := ⟨1, 0, 0⟩

def requireRule (condition : Prop) [Decidable condition] (code : String) : Except String PUnit :=
  if condition then .ok () else .error code

@[simp] theorem requireRule_bind {β : Type} {condition : Prop} [Decidable condition] {code : String}
    {rest : PUnit → Except String β} {b : β} :
    (requireRule condition code >>= rest) = .ok b ↔ condition ∧ rest () = .ok b := by
  unfold requireRule
  split
  next holds => exact ⟨fun ok => ⟨holds, ok⟩, And.right⟩
  next fails => exact ⟨nofun, fun passed => absurd passed.1 fails⟩

@[simp] theorem requireRule_ok {condition : Prop} [Decidable condition] {code : String}
    {u : PUnit} : requireRule condition code = .ok u ↔ condition := by
  unfold requireRule
  split
  next holds => exact ⟨fun _ => holds, fun _ => rfl⟩
  next fails => exact ⟨nofun, fun holds => absurd holds fails⟩

/-- `acceptsVersion`: the same major version, and no later minor or patch. -/
def acceptsVersion (reader writer : Version) : Prop :=
  reader.major = writer.major ∧
    (writer.minor < reader.minor ∨ writer.minor = reader.minor ∧ writer.patch ≤ reader.patch)

instance : DecidableRel acceptsVersion := fun _ _ => inferInstanceAs (Decidable (_ ∧ (_ ∨ _ ∧ _)))

/-! ## Definitions -/

def startsWith (text start : String) : Prop := start.toList <+: text.toList

instance : DecidableRel startsWith := fun text start =>
  inferInstanceAs (Decidable (start.toList <+: text.toList))

/-- The rule of each category on the id. -/
def MetricCategory.admits (category : MetricCategory) (id : String) : Except String PUnit :=
  match category with
  | .extension space =>
    requireRule (startsWith id (space ++ ".") ∧ space ∉ ["db", "host", "network"])
      "EXTENSION_NAMESPACE"
  | .canonical =>
    requireRule (startsWith id "db." ∨ startsWith id "host." ∨ startsWith id "network.")
      "CANONICAL_NAMESPACE"

def MetricKind.isScalar : MetricKind → Bool
  | .gauge | .counter => true
  | .histogram | .summary => false

def ValueType.isScalar : ValueType → Bool
  | .float64 | .int64 | .uint64 => true
  | .histogram | .summary => false

/-- The value types of a kind. -/
def MetricKind.stores : MetricKind → ValueType → Bool
  | .histogram, type => type = .histogram
  | .summary, type => type = .summary
  | .gauge, type | .counter, type => type.isScalar

def validateDefinition (d : MetricDefinition) : Except String PUnit := do
  let names := d.dimensions.keys.map DimensionKey.name
  requireRule names.Nodup "DUPLICATE_DIMENSION"
  requireRule (∀ name ∈ names, name ∉ ["version", "model", "db_version", "firmware"])
    "ATTRIBUTE_NOT_DIMENSION"
  requireRule (d.id ∉ ["db.version", "db.engine", "device.model"]) "ATTRIBUTE_NOT_METRIC"
  d.category.admits d.id
  requireRule (d.lifecycle ≠ .active ∨ d.replacementId = none) "ACTIVE_REPLACEMENT"
  requireRule (d.replacementId ≠ some d.id) "SELF_REPLACEMENT"
  requireRule (d.kind = .counter ∨ ¬ d.monotonic) "MONOTONIC_KIND"
  requireRule (d.kind ≠ .gauge ∨ d.temporality = .instant) "GAUGE_TEMPORALITY"
  requireRule (d.kind = .gauge ∨ d.temporality ≠ .instant) "ACCUMULATION_TEMPORALITY"
  requireRule (d.kind.stores d.valueType) "KIND_VALUE_TYPE"
  if d.kind = .counter then
    requireRule (d.valueType ∈ [.int64, .uint64]) "COUNTER_INTEGER_ENCODING"
    requireRule (∀ op ∈ d.aggregation.time, op ∉ [.mean, .quantile, .merge]) "COUNTER_AGGREGATION"
    requireRule (d.temporality ≠ .cumulative ∨ .sum ∉ d.aggregation.time) "SUM_CUMULATIVE_COUNTER"
  requireRule (d.kind = .counter ∨ .rate ∉ d.aggregation.time) "RATE_KIND"
  if d.kind = .summary then
    requireRule (d.aggregation.quantiles = .nonMergeable ∧ (∀ op ∈ d.aggregation.time, op = .last) ∧
      ∀ op ∈ d.aggregation.space, op = .none) "SUMMARY_NON_MERGEABLE"
  if d.kind = .histogram then
    requireRule (d.aggregation.quantiles = .fromMergedHistogram ∧
      (∀ op ∈ d.aggregation.time, op ∈ [.last, .merge, .quantile]) ∧
      ∀ op ∈ d.aggregation.space, op ∈ [.none, .merge]) "HISTOGRAM_AGGREGATION"
  if d.kind.isScalar then
    requireRule (d.aggregation.quantiles = .notApplicable ∧
      (∀ op ∈ d.aggregation.time, op ∉ [.merge, .quantile]) ∧ .merge ∉ d.aggregation.space)
      "SCALAR_AGGREGATION"

/-! ## Series and identities -/

/-- `dimensions[name]`. -/
def Dimensions.get (d : Dimensions) (name : String) : Option String := d.entries.lookup name

/-- The length of a JavaScript string. -/
def jsLength (text : String) : Nat := (JsString.utf16 text).length

def validateDimensions (dimensions : Dimensions) (d : MetricDefinition) : Except String PUnit := do
  requireRule (∀ entry ∈ dimensions.entries, entry.1 ∈ d.dimensions.keys.map DimensionKey.name)
    "UNKNOWN_DIMENSION"
  d.dimensions.keys.forM fun key => do
    let value := dimensions.get key.name
    requireRule (key.required → value ≠ none) "MISSING_DIMENSION"
    requireRule (∀ text ∈ value, 0 < jsLength text ∧ jsLength text ≤ d.dimensions.maxValueLength ∧
      ∀ allowed ∈ key.allowedValues, text ∈ allowed) "DIMENSION_VALUE"

/-- What `seriesIdentity` prints. -/
structure SeriesKey where
  resourceType : ResourceType
  resourceId : String
  metric : MetricRef
  dimensions : List (String × String)
deriving DecidableEq

/-- `seriesIdentity`. -/
def Observation.series (o : Observation) : SeriesKey :=
  ⟨o.resourceType, o.resourceId, o.metric, o.dimensions.sorted⟩

/-- What distinguishes the content of a raw and of a normalized observation. -/
inductive IdentityContent
  | rawField (name : String)
  | lineage (refs : List ObservationRef)

/-- The preimage of an observation id; the instant stands for its ISO text. -/
structure IdentityPreimage where
  series : SeriesKey
  observedAt : Int
  source : ObservationSource
  versions : ObservationVersions
  content : IdentityContent

/-- `stable` of a reference. -/
def ObservationRef.json (ref : ObservationRef) : String :=
  "\x7b\"id\":" ++ JsString.quote ref.id ++ ",\"stage\":" ++
    (match ref.stage with | .raw => "\"raw\"" | .normalized => "\"normalized\"") ++ "\x7d"

/-- The preimage `observationIdentity` hashes. -/
def Observation.preimage (o : Observation) : IdentityPreimage where
  series := o.series
  observedAt := o.observedAt.ms
  source := o.source
  versions := o.versions
  content :=
    match o.origin with
    | .raw field => .rawField field
    | .normalized lineage =>
      .lineage (lineage.insertionSort fun left right => JsString.le left.json right.json)

section Identified

variable (digest : IdentityPreimage → String)

def observationIdentity (o : Observation) : String := digest o.preimage

/-! ## Observations -/

/-- `next > bound`, from minus infinity on. -/
def UpperBound.exceeds (next : UpperBound) : (bound : Option UpperBound) → Bool
  | none => true
  | some (.number last) =>
    match next with
    | .number next => last.val < next.val
    | .infinity => true
  | some .infinity => false

/-- The loop over the buckets of a histogram; `bound` is the last upper bound, if any. -/
def validateBuckets (total : Nat) : List HistogramBucket → (bound : Option UpperBound) →
    (count : Nat) → Except String PUnit
  | [], bound, count =>
    requireRule (bound = some .infinity ∧ count = total) "HISTOGRAM_TOTAL"
  | bucket :: rest, bound, count => do
    requireRule (bucket.upperBound.exceeds bound ∧ count ≤ bucket.count ∧ bucket.count ≤ total)
      "HISTOGRAM_BUCKET"
    validateBuckets total rest (some bucket.upperBound) bucket.count

def validateValue : MetricValue → Except String PUnit
  | .scalar (.float64 _) => .ok ()
  | .scalar (.int64 value) => requireRule (-2 ^ 63 ≤ value ∧ value < 2 ^ 63) "INT64_RANGE"
  | .scalar (.uint64 value) => requireRule (value < 2 ^ 64) "UINT64_RANGE"
  | .histogram value => do
    requireRule (value.count < 2 ^ 64) "COUNT_RANGE"
    validateBuckets value.count value.buckets none 0
  | .summary value => do
    requireRule (value.count < 2 ^ 64) "COUNT_RANGE"
    requireRule (value.quantiles.map SummaryQuantile.quantile).Nodup "DUPLICATE_QUANTILE"

/-- Whether a value is negative, as the monotonic rule reads it. -/
def ScalarValue.nonnegative : ScalarValue → Prop
  | .float64 value => Binary64.ofInt 0 ≤ value.val
  | .int64 value => 0 ≤ value
  | .uint64 _ => True

instance : DecidablePred ScalarValue.nonnegative
  | .float64 _ => inferInstanceAs (Decidable (_ ≤ _))
  | .int64 value => inferInstanceAs (Decidable (0 ≤ value))
  | .uint64 _ => .isTrue trivial

/-- Whether a definition asks for counter evidence. -/
def MetricDefinition.accumulates (d : MetricDefinition) : Prop :=
  d.kind = .counter ∨ (d.kind = .histogram ∨ d.kind = .summary) ∧ d.temporality = .cumulative

instance (d : MetricDefinition) : Decidable d.accumulates :=
  inferInstanceAs (Decidable (_ ∨ (_ ∨ _) ∧ _))

/-- The rules on the evidence of an accumulating metric. -/
def validateCounter (o : Observation) : Except String PUnit := do
  let startAt := o.counter.bind CounterEvidence.startAt
  let discontinuity := o.counter.bind CounterEvidence.discontinuity
  requireRule (startAt.isSome ∨ discontinuity.isSome) "COUNTER_EVIDENCE"
  requireRule (∀ start ∈ startAt, start.ms ≤ o.observedAt.ms) "COUNTER_TIME"
  requireRule (∀ change ∈ discontinuity, change.observedAt.ms ≤ o.observedAt.ms) "COUNTER_TIME"
  match o.counter.map CounterEvidence.bits, o.value with
  | some .bits32, some (.scalar (.float64 value)) =>
    -- `BigInt` of a number that is not an integer throws by itself
    requireRule ((numberValue value).den = 1 ∧ numberValue value < 2 ^ 32) "COUNTER_WIDTH"
  | some .bits32, some (.scalar (.int64 value)) => requireRule (value < 2 ^ 32) "COUNTER_WIDTH"
  | some .bits32, some (.scalar (.uint64 value)) => requireRule (value < 2 ^ 32) "COUNTER_WIDTH"
  | _, _ => .ok ()

/-- The rules on a present value. -/
def validatePresent (o : Observation) (d : MetricDefinition) (value : MetricValue) :
    Except String PUnit := do
  validateValue value
  requireRule (o.stage = .normalized → value.encoding = d.valueType) "VALUE_ENCODING"
  match value with
  | .scalar scalar => requireRule (d.monotonic → scalar.nonnegative) "NEGATIVE_MONOTONIC"
  | .histogram _ | .summary _ => .ok ()

/-- Whether a quality forbids a value. -/
def QualityStatus.withholds : QualityStatus → Prop
  | .good | .partly => False
  | .unknown | .invalid => True

instance : DecidablePred QualityStatus.withholds
  | .good | .partly => .isFalse id
  | .unknown | .invalid => .isTrue trivial

def Observation.lineage (o : Observation) : List ObservationRef :=
  match o.origin with
  | .raw _ => []
  | .normalized refs => refs

def validateObservation (o : Observation) (d : MetricDefinition) : Except String PUnit := do
  validateDefinition d
  requireRule (o.metric = d.ref ∧ o.resourceType = d.resourceType) "OBSERVATION_IDENTITY"
  requireRule (acceptsVersion contractVersion o.versions.contract) "CONTRACT_VERSION"
  validateDimensions o.dimensions d
  requireRule (o.observedAt.ms ≤ o.collectedAt.ms ∧
    ∀ stored ∈ o.storedAt, o.collectedAt.ms ≤ stored.ms) "OBSERVATION_TIME"
  requireRule (o.quality.status = .good ↔ o.quality.reason = .none) "QUALITY_REASON"
  requireRule (o.quality.status.withholds ↔ o.value = none) "QUALITY_VALUE"
  requireRule (o.quality.reason = .legacyUnknown →
    o.quality.status = .unknown ∧ o.accuracy = .unknown) "LEGACY_QUALITY"
  requireRule (o.quality.reason = .precisionLoss → o.accuracy ≠ .exact) "PRECISION_ACCURACY"
  requireRule (o.stage = .normalized → o.unit = d.unit) "UNIT_CONFLICT"
  match o.value with
  | some value => validatePresent o d value
  | none => pure ()
  if d.accumulates then validateCounter o
  requireRule (o.id ∉ o.lineage.map ObservationRef.id ∧ o.lineage.Nodup) "LINEAGE_IDENTITY"
  requireRule (o.id = observationIdentity digest o) "IDEMPOTENCY_ID"

variable {digest} {o : Observation} {d : MetricDefinition}

theorem metric_of_valid (valid : validateObservation digest o d = .ok ()) : o.metric = d.ref := by
  unfold validateObservation at valid
  obtain ⟨_, -, valid⟩ := bind_eq_ok.mp valid
  rw [requireRule_bind] at valid
  exact valid.1.1

theorem withholds_iff_of_valid (valid : validateObservation digest o d = .ok ()) :
    o.quality.status.withholds ↔ o.value = none := by
  unfold validateObservation at valid
  obtain ⟨_, -, valid⟩ := bind_eq_ok.mp valid
  simp only [requireRule_bind] at valid
  obtain ⟨-, -, valid⟩ := valid
  obtain ⟨_, -, valid⟩ := bind_eq_ok.mp valid
  simp only [requireRule_bind] at valid
  exact valid.2.2.1

end Identified

end Slide.Metrics
