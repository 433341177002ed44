import Slide.Metrics.Counter

/-!
# Semantic queries

The vocabulary of `metrics/query.ts`: queries, the rows they read and the groups that samples are
reduced to, with `validateQuery`.  A number of a query that is no integer is refused like one that
is not positive, so these numbers are integers here.
-/

namespace Slide.Metrics

/-- `Point`: a normalized observation. -/
abbrev Point := { o : Observation // o.stage = .normalized }

structure Series where
  resourceType : ResourceType
  resourceId : String
  metric : MetricRef
  dimensions : Dimensions

/-- `seriesIdentity` of a series. -/
def Series.key (s : Series) : SeriesKey :=
  ⟨s.resourceType, s.resourceId, s.metric, s.dimensions.sorted⟩

inductive QueryMode
  | last | min | max | mean | rate | ratio | duration | merge | quantile
deriving DecidableEq

inductive Weighting
  | samples | time
deriving DecidableEq

structure SemanticQuery where
  definition : MetricDefinition
  series : List Series
  (start stop now : DateText)
  (intervalMs maxGapMs staleAfterMs : Int)
  bucketMs : Option Int
  mode : QueryMode
  space : SpaceAggregation
  weighting : Option Weighting
  weights : Option (List Int)
  (numerator denominator : Option MetricDefinition)
  stateValue : Option Int
  quantile : Option Float

/-! ## `validateQuery` -/

/-- The time aggregation a mode asks for; ratios and durations ask for none. -/
def QueryMode.aggregation : QueryMode → Option TimeAggregation
  | .last => some .last
  | .min => some .min
  | .max => some .max
  | .mean => some .mean
  | .rate => some .rate
  | .merge => some .merge
  | .quantile => some .quantile
  | .ratio | .duration => none

/-- The kinds a mode reads. -/
def QueryMode.reads (mode : QueryMode) (d : MetricDefinition) : Prop :=
  match mode with
  | .rate => d.kind = .counter ∧ d.temporality = .cumulative
  | .merge | .quantile => d.kind = .histogram
  | _ => d.kind = .gauge ∨ d.kind = .summary

instance (mode : QueryMode) (d : MetricDefinition) : Decidable (mode.reads d) := by
  cases mode <;> unfold QueryMode.reads <;> infer_instance

/-- The window of a query, as instants. -/
def SemanticQuery.window (q : SemanticQuery) : Option (Int × Int) := do
  pure (← q.start.instant, ← q.stop.instant)

/-- The rules on the window and the numbers of a query. -/
def SemanticQuery.windowValid (q : SemanticQuery) : Prop :=
  ∃ w ∈ q.window, w.1 < w.2 ∧ q.now.instant ≠ none ∧ w.2 - w.1 ≤ 31 * 86400000 ∧
    q.series ≠ [] ∧ q.series.length ≤ 50 ∧
    ∀ n ∈ [q.intervalMs, q.maxGapMs, q.staleAfterMs, q.bucketMs.getD q.intervalMs],
      IsPositiveSafe n

instance (q : SemanticQuery) : Decidable q.windowValid :=
  inferInstanceAs (Decidable (∃ w ∈ q.window, _ ∧ _ ∧ _ ∧ _ ∧ _ ∧ _))

/-- The rules on the two metrics of a ratio. -/
def SemanticQuery.validateRatio (q : SemanticQuery) : Except String PUnit :=
  match q.numerator, q.denominator with
  | some numerator, some denominator => do
    requireRule (numerator.unit = denominator.unit ∧ q.definition.unit ∈ [.one, .percent] ∧
      numerator.id ≠ denominator.id ∧ numerator.kind = .gauge ∧ denominator.kind = .gauge ∧
      (q.space = .none ∨ q.space = .sum)) "RATIO_INPUT"
    validateDefinition numerator
    validateDefinition denominator
    [numerator, denominator].forM fun d => do
      requireRule (d.resourceType = q.definition.resourceType) "RATIO_INPUT"
      q.series.forM fun s => validateDimensions s.dimensions d
  | _, _ => .error "RATIO_INPUT"

/-- `Number.isSafeInteger`. -/
def IsSafe (n : Int) : Prop := -(2 ^ 53 - 1) ≤ n ∧ n ≤ 2 ^ 53 - 1

instance : DecidablePred IsSafe := fun _ => inferInstanceAs (Decidable (_ ∧ _))

/-- Whether the quantile fits the mode; a comparison with NaN is false. -/
def SemanticQuery.quantileValid (q : SemanticQuery) : Prop :=
  if q.mode = .quantile then
    ∃ x ∈ q.quantile, ¬ (x < Binary64.ofInt 0 ∨ Binary64.ofInt 1 < x)
  else q.quantile = none

instance (q : SemanticQuery) : Decidable q.quantileValid := by
  unfold SemanticQuery.quantileValid
  infer_instance

/-- The weights of a spatial mean, one for each series. -/
def SemanticQuery.weightsValid (q : SemanticQuery) (count : Nat) : Prop :=
  ∃ weights ∈ q.weights, weights.length = count ∧ ∀ w ∈ weights, IsPositiveSafe w

instance (q : SemanticQuery) (count : Nat) : Decidable (q.weightsValid count) :=
  inferInstanceAs (Decidable (∃ weights ∈ q.weights, _ ∧ ∀ w ∈ weights, _))

def validateQuery (q : SemanticQuery) : Except String PUnit := do
  validateDefinition q.definition
  requireRule q.windowValid "QUERY_WINDOW"
  requireRule ((∀ s ∈ q.series, s.resourceType = q.definition.resourceType ∧
    s.metric = q.definition.ref) ∧ (q.series.map Series.key).Nodup) "QUERY_IDENTITY"
  requireRule (q.space = .none → q.series.length = 1) "SPACE_OPERATION_REQUIRED"
  q.series.forM fun s => validateDimensions s.dimensions q.definition
  requireRule (q.mode.reads q.definition) "QUERY_KIND"
  requireRule (q.mode = .rate → q.definition.unit = .bytes ∨ q.definition.unit = .count)
    "COUNTER_RATE_UNIT"
  requireRule (q.definition.kind = .summary → q.mode = .last ∧ q.series.length = 1)
    "SUMMARY_NON_MERGEABLE"
  requireRule (∀ op ∈ q.mode.aggregation, op ∈ q.definition.aggregation.time)
    "AGGREGATION_NOT_ALLOWED"
  requireRule (q.space ∈ q.definition.aggregation.space ∨ q.space = .none ∧ q.series.length = 1)
    "SPACE_NOT_ALLOWED"
  if q.mode = .ratio then q.validateRatio
  requireRule (q.mode = .duration → (∃ n ∈ q.stateValue, IsSafe n) ∧ q.definition.unit = .one)
    "STATE_VALUE"
  requireRule q.quantileValid "QUANTILE"
  requireRule (q.weighting = none ∨ q.mode = .mean) "QUERY_WEIGHTING"
  requireRule (q.mode = .mean ∧ q.weighting = some .time → q.definition.temporality = .instant)
    "TIME_WEIGHTING"
  requireRule (q.space = .weightedMean → q.weightsValid q.series.length)
    "SPATIAL_WEIGHTS_REQUIRED"

/-! ## Rows -/

/-- `valid`: a good or partial value. -/
def Point.isValid (p : Point) : Prop :=
  p.val.value ≠ none ∧ (p.val.quality.status = .good ∨ p.val.quality.status = .partly)

instance : DecidablePred Point.isValid := fun _ => inferInstanceAs (Decidable (_ ∧ (_ ∨ _)))

def Point.scalar (p : Point) : Except String Rational :=
  match p.val.value with
  | some (.scalar value) => .ok value.decode
  | _ => .error "QUERY_SCALAR_REQUIRED"

def Point.time (p : Point) : Int := p.val.observedAt.ms

/-- `overlap` of two spans of time. -/
def overlap (a b start stop : Int) : Int := max 0 (min b stop - max a start)

section Unique

-- `collate a b` is `a.localeCompare(b) <= 0`, in the locale of the process
variable (collate : String → String → Prop) [DecidableRel collate]

/-- The order of the first sort. -/
def rowBefore (a b : Point) : Prop :=
  a.time < b.time ∨ a.time = b.time ∧ collate a.val.id b.val.id

instance : DecidableRel (rowBefore collate) := fun _ _ =>
  inferInstanceAs (Decidable (_ ∨ _ ∧ _))

/-- `byTime.set`: a row takes the place of the row of its time. -/
def setTime (rows : List Point) (p : Point) : List Point :=
  if ∃ r ∈ rows, r.time = p.time then rows.map fun r => if r.time = p.time then p else r
  else rows ++ [p]

/-- `unique`: one row for each time, in the order of time. -/
def unique (points : List Point) : List Point :=
  ((points.insertionSort (rowBefore collate)).foldl setTime []).insertionSort
    fun a b => a.time ≤ b.time

end Unique

/-- The loop of `lowerBound`; each round narrows the range, so its length is enough fuel. -/
def lowerBoundLoop (times : List Int) (bound : Int) : (fuel low high : Nat) → Nat
  | 0, low, _ => low
  | fuel + 1, low, high =>
    if low < high then
      let mid := (low + high) / 2
      if times.getD mid 0 < bound then lowerBoundLoop times bound fuel (mid + 1) high
      else lowerBoundLoop times bound fuel low mid
    else low

def lowerBound (times : List Int) (bound : Int) : Nat :=
  lowerBoundLoop times bound times.length 0 times.length

/-- `bucketSlice`: `first - 1` is 0 for the first row. -/
def bucketSlice (points : List Point) (times : List Int) (start stop : Int) : List Point :=
  let first := lowerBound times start
  let after := lowerBound times stop
  (points.take (min points.length (after + 1))).drop (first - 1)

/-! ## Groups -/

structure Group where
  value : Option Rational
  histogram : Option HistogramValue
  summary : Option SummaryValue
  coverage : Float
  points : List Point
  samples : List Rational
  evidence : Evidence

def Group.empty : Group :=
  ⟨none, none, none, Binary64.ofInt 0, [], [], ⟨⟨.unknown, .missingInput⟩, .unknown⟩⟩

def qualityOf (points : List Point) : Evidence :=
  points.foldl
    (fun result p =>
      { accuracy :=
          if result.accuracy.rank < p.val.accuracy.rank then p.val.accuracy else result.accuracy
        quality :=
          if result.quality.status.rank < p.val.quality.status.rank then p.val.quality
          else result.quality })
    ⟨⟨.good, .none⟩, .exact⟩

structure BucketStats where
  count : Nat
  (min max avg : ScalarValue)

/-- `samples.reduce((a, b) => compare(b, a) < 0 ? b : a)`. -/
def least (first : Rational) (rest : List Rational) : Rational :=
  rest.foldl (fun a b => if b < a then b else a) first

/-- `samples.reduce((a, b) => compare(b, a) > 0 ? b : a)`. -/
def greatest (first : Rational) (rest : List Rational) : Rational :=
  rest.foldl (fun a b => if a < b then b else a) first

/-- The mean of samples that are there. -/
def average (samples : List Rational) : Rational := samples.foldl (· + ·) 0 / samples.length

def statsOf (samples : List Rational) (type : ValueType) : Except String (Option BucketStats) :=
  match samples with
  | [] => .ok none
  | first :: rest => do
    let low ← encode (least first rest) type
    let high ← encode (greatest first rest) type
    let mean ← encode (average samples) .float64
    match low.value, high.value, mean.value with
    | some min, some max, some avg => pure (some ⟨samples.length, min, max, avg⟩)
    | _, _, _ => pure none

end Slide.Metrics
