import Slide.Metrics.Reduce

/-!
# `aggregate`

The pure reducer of `metrics/query.ts` over all buckets of a window.  Each bucket is reduced for each
series, put together over space and told as a `SemanticBucket`: with its value encoded for the mode,
withheld below the least coverage, and its quality and freshness.
-/

namespace Slide.Metrics

/-- `MAX_BUCKETS`. -/
def maxBuckets : Int := 10080

/-- Where a value of a bucket comes from. -/
structure RowSource where
  id : String
  source : ObservationSource
  versions : ObservationVersions

/-- `SemanticBucket`, without the constant `contract_version`. -/
structure SemanticBucket where
  metric : MetricRef
  unit : MetricUnit
  dimensions : Option Dimensions
  window : Int × Int
  value : Option MetricValue
  evidence : Evidence
  coverage : Float
  freshness : Freshness
  observedAt : Option Int
  sampleCount : Nat
  stats : Option BucketStats
  sources : List RowSource

/-! ## One bucket over space -/

/-- The rows of a metric among the points of groups. -/
def rowsOf (metric : Option MetricDefinition) (groups : List Group) : List Point :=
  groups.flatMap fun g => g.points.filter fun p => metric.map MetricDefinition.id = some p.val.metric.id

/-- The ratios of all series as one. -/
def combineRatios (q : SemanticQuery) (groups : List Group) : Except String Group :=
  match groups.filter fun g => g.value.isSome with
  | [] => .ok ((groups.find? fun g => g.evidence.quality.reason = .invalidDenominator).getD .empty)
  | first :: rest => do
    let counted := first :: rest
    let above ← (rowsOf q.numerator counted).mapM Point.scalar
    let below ← (rowsOf q.denominator counted).mapM Point.scalar
    let points := counted.flatMap Group.points
    pure
      { value := some (above.foldl (· + ·) 0 / below.foldl (· + ·) 0), histogram := none, summary := none
        coverage := meanCoverage groups
        points, samples := [], evidence := qualityOf points }

section Bucket

variable (collate : String → String → Prop) [DecidableRel collate] (digest : IdentityPreimage → String)

/-- A series as `aggregate` prepares it; the denominators are those of a ratio, the intervals those
of a rate. -/
structure PreparedSeries where
  (rows denominators : List Point)
  intervals : List RateInterval

/-- The slice of a bucket, with the times it is looked up by. -/
def sliceOf (points : List Point) (window : Int × Int) : List Point :=
  bucketSlice points (points.map Point.time) window.1 window.2

variable (q : SemanticQuery)

/-- The group of one series for one bucket. -/
def seriesGroup (window : Int × Int) (series : PreparedSeries) : Except String Group :=
  match q.mode with
  | .ratio => ratioSeries collate q (sliceOf series.rows window) (sliceOf series.denominators window)
      window.1 window.2
  | .rate => .ok (reduceRate series.intervals (series.intervals.map RateInterval.stop) window.1 window.2)
  | _ => reduceSeries q (sliceOf series.rows window) window.1 window.2

/-- The group of all series for one bucket. -/
def bucketGroup (prepared : List PreparedSeries) (window : Int × Int) :
    Except String Group := do
  let groups ← prepared.mapM (seriesGroup collate q window)
  if q.mode = .ratio then combineRatios q groups else spatial q groups

/-! ## What a bucket tells -/

/-- The value type of an encoded value. -/
def SemanticQuery.targetType : ValueType :=
  match q.mode with
  | .rate | .ratio | .mean | .duration => .float64
  | _ => q.definition.valueType

/-- The upper bound of the first bucket that holds the quantile. -/
def quantileBound (h : HistogramValue) (fraction : Rational) : Option UpperBound :=
  let target := (h.count * fraction.num + fraction.den - 1).tdiv fraction.den
  (h.buckets.find? fun b => (if 0 < target then target else 1) ≤ b.count).map HistogramBucket.upperBound

/-- A value of a bucket before coverage is looked at, and whether it was rounded. -/
structure BucketValue where
  value : Option MetricValue
  evidence : Evidence
  precisionLoss : Bool

/-- The value of a group under a mode. -/
def Group.valueOf (g : Group) : Except String BucketValue :=
  match g.summary, g.histogram, g.value with
  | some summary, _, _ => .ok ⟨some (.summary summary), g.evidence, false⟩
  | none, some h, value =>
    if q.mode = .merge then .ok ⟨some (.histogram h), g.evidence, false⟩
    else if q.mode = .quantile then
      match q.quantile with
      | some fraction =>
        if finite : fraction.isFinite = true then
          match quantileBound h (numberValue ⟨fraction, finite⟩) with
          | some (.number upper) =>
            .ok ⟨some (.scalar (.float64 upper)), { g.evidence with accuracy := .estimated }, false⟩
          | _ => .ok ⟨none, { g.evidence with quality := ⟨.unknown, .partialInput⟩ }, false⟩
        else .error "NONFINITE_VALUE"
      | none => .error "TypeError"
    else scaled value
  | none, none, value => scaled value
where
  scaled (value : Option Rational) : Except String BucketValue :=
    match value with
    | none => .ok ⟨none, g.evidence, false⟩
    | some value => do
      let scale := if q.mode = .ratio ∧ q.definition.unit = .percent then 100 else 1
      let encoded ← encode (value * scale) q.targetType
      let accuracy := if encoded.exact then g.evidence.accuracy else .estimated
      pure ⟨encoded.value.map .scalar, { g.evidence with accuracy }, ¬ encoded.exact⟩

/-- Whether a coverage is not zero. -/
def covers (coverage : Float) : Bool := ! coverage.isNaN && coverage != Binary64.ofInt 0

/-- The evidence of a bucket without a value. -/
def withheldEvidence (v : BucketValue) (g : Group) (coverage : Float) : Evidence :=
  let reason : QualityReason :=
    -- the source has set `value` to null before it reads it here
    if covers coverage ∧ v.evidence.quality.reason = .partialInput then .partialInput
    else if covers coverage then .gap
    else if g.evidence.quality.reason = .invalidDenominator then .invalidDenominator
    else .missingInput
  ⟨⟨.unknown, reason⟩, .unknown⟩

/-- The evidence of a bucket with a value. -/
def presentEvidence (v : BucketValue) (coverage : Float) : Evidence :=
  let short := coverage < Binary64.ofInt 1
  if (v.precisionLoss ∨ short ∨ v.evidence.accuracy ≠ .exact ∨ v.evidence.quality.status = .partly) ∧
      v.evidence.quality.status ≠ .partly then
    { v.evidence with
      quality := ⟨.partly, if v.precisionLoss then .precisionLoss else if short then .gap
        else .partialInput⟩ }
  else v.evidence

/-- `[...new Map(...).values()]`: each id where it came first, as it came last. -/
def sourcesOf (points : List Point) : List RowSource :=
  (points.map fun p => p.val.id).eraseDups.filterMap fun id =>
    (points.findRev? fun p => p.val.id = id).map fun p => ⟨id, p.val.source, p.val.versions⟩

/-- The unit of a result. -/
def SemanticQuery.resultUnit : MetricUnit :=
  match q.mode with
  | .rate => if q.definition.unit = .bytes then .bytesPerSecond else .countPerSecond
  | .duration => .milliseconds
  | _ => q.definition.unit

/-- The envelope of a bucket: none of samples its value does not stand for. -/
def bucketStats (g : Group) (value : Option MetricValue) :
    Except String (Option BucketStats) :=
  if value = none ∨ q.mode = .ratio then .ok none else statsOf g.samples q.targetType

/-- One bucket of the result. -/
def tell (window : Int × Int) (g : Group) : Except String SemanticBucket := do
  let coverage := atMostOne g.coverage
  let v ← g.valueOf q
  let withheld := coverage < q.definition.aggregation.minCoverage.val ∨ v.value = none
  let value := if withheld then none else v.value
  let evidence := if withheld then withheldEvidence v g coverage else presentEvidence v coverage
  let latest := ((g.points.filter fun p => p.isValid ∧ p.time < window.2).map Point.time).max?
  let stats ← bucketStats q g value
  pure
    { metric := q.definition.ref
      unit := q.resultUnit
      dimensions := if q.space = .none then q.series.head?.map Series.dimensions else none
      window, value, evidence, coverage
      freshness := match latest with
        | some ms => freshness (some ⟨isoText ms, some ms⟩) q.now q.staleAfterMs
        | none => .unknown
      observedAt := latest
      sampleCount := ((g.points.filter fun p =>
        window.1 ≤ p.time ∧ p.time < window.2).map fun p => p.val.id).eraseDups.length
      stats, sources := sourcesOf g.points }

/-! ## All buckets -/

/-- The buckets of a window: the last one ends with it. -/
def windows (start stop step : Int) : List (Int × Int) :=
  (List.range (slotCount (stop - start) step).toNat).map fun (k : Nat) =>
    (start + k * step, min stop (start + k * step + step))

/-- The buckets of a query. -/
def SemanticQuery.buckets : List (Int × Int) :=
  match q.window with
  | some (start, stop) => windows start stop (q.bucketMs.getD (stop - start))
  | none => []

/-- The checks on the rows of one series under a definition. -/
def checkRows (series : Series) (definition : MetricDefinition) (rows : List Point) :
    Except String PUnit :=
  rows.forM fun p => do
    validateObservation digest p.val definition
    requireRule (p.val.resourceId = series.resourceId ∧ p.val.resourceType = series.resourceType ∧
      p.val.dimensions.sorted = series.dimensions.sorted) "QUERY_IDENTITY"

/-- The checks on all rows: those of a ratio are of its two metrics. -/
def checkData (data denominators : List (List Point)) : Except String PUnit :=
  (q.series.zip (data.zip (denominators ++ List.replicate data.length []))).forM
    fun (series, rows, below) =>
      if q.mode = .ratio then do
        checkRows digest series (q.numerator.getD q.definition) rows
        checkRows digest series (q.denominator.getD q.definition) below
      else checkRows digest series q.definition rows

/-- The intervals a rate is reduced from. -/
def rateIntervals (rows : List Point) : Except String (List RateInterval) :=
  if q.mode = .rate then counterIntervals digest q rows else .ok []

/-- The series of a query, deduplicated. -/
def prepare (data denominators : List (List Point)) :
    Except String (List PreparedSeries) :=
  (data.zip (denominators ++ List.replicate data.length [])).mapM fun (rows, below) => do
    let rows := unique collate rows
    let intervals ← rateIntervals digest q rows
    pure ⟨rows, unique collate below, intervals⟩

/-- `aggregate`; without denominators there are none. -/
def aggregate (data denominators : List (List Point)) :
    Except String (List SemanticBucket) := do
  validateQuery q
  requireRule (data.length = q.series.length ∧
    (q.mode = .ratio → denominators.length = data.length)) "QUERY_SERIES_COUNT"
  checkData digest q data denominators
  requireRule (q.buckets.length ≤ maxBuckets) "QUERY_LIMIT_EXCEEDED"
  let prepared ← prepare collate digest q data denominators
  q.buckets.mapM fun window => do
    let group ← bucketGroup collate q prepared window
    tell q window group

end Bucket

end Slide.Metrics
