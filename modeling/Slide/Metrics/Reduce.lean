import Slide.Metrics.Query

/-!
# Reducers

The reducers of `metrics/query.ts` take the rows of one series to a `Group` for one bucket, and
`spatial` takes the groups of all series to one.  A counter is processed once over the whole window;
`reduceRate` clips its intervals to a bucket.  `reduceSeries` reads the rows of a bucket with one
neighbour on each side.
-/

namespace Slide.Metrics

/-! ## Histograms -/

/-- Bounds with equal JSON texts, which are the same for both zeros. -/
def UpperBound.same : UpperBound → UpperBound → Bool
  | .number a, .number b => a.val == b.val
  | .infinity, .infinity => true
  | _, _ => false

def sameBounds : List HistogramBucket → List HistogramBucket → Bool
  | [], [] => true
  | a :: as, b :: bs => a.upperBound.same b.upperBound && sameBounds as bs
  | _, _ => false

/-- What `period` of a row prints; a start is its text. -/
structure RowPeriod where
  (startAt epoch : Option String)
  reason : Option DiscontinuityReason
  (bindingId metricBindingId collectorId : String)
  contract : Version
  packageId : String
  (packageVersion transformVersion : Version)
  configRevision : Nat
deriving DecidableEq

def Point.period (p : Point) : RowPeriod where
  startAt := p.val.startAt.map Timestamp.text
  epoch := p.val.discontinuity.map Discontinuity.epoch
  reason := p.val.discontinuity.map Discontinuity.reason
  bindingId := p.val.source.bindingId
  metricBindingId := p.val.source.metricBindingId
  collectorId := p.val.source.collectorId
  contract := p.val.versions.contract
  packageId := p.val.versions.packageId
  packageVersion := p.val.versions.packageVersion
  transformVersion := p.val.versions.transformVersion
  configRevision := p.val.versions.configRevision

/-- The histogram of a valid row. -/
def Point.histogram (p : Point) : Option HistogramValue :=
  match p.val.value with
  | some (.histogram value) => if p.isValid then some value else none
  | _ => none

/-- The counts of the second list less those of the first. -/
def subtractBuckets (a b : List HistogramBucket) : List HistogramBucket :=
  List.zipWith (fun x y => ⟨y.upperBound, y.count - x.count⟩) a b

def histogramDelta (previous : Option Point) (current : Point) (definition : MetricDefinition)
    (maxGapMs : Int) : Except String Group :=
  match current.histogram with
  | none => .ok .empty
  | some b =>
    if definition.temporality ≠ .cumulative then
      .ok { Group.empty with
        histogram := some b, points := [current], coverage := Binary64.ofInt 1
        evidence := qualityOf [current] }
    else match previous, previous.bind Point.histogram with
      | some last, some a =>
        if Point.period last ≠ Point.period current ∨ maxGapMs < current.time - last.time then .ok .empty
        else if ¬ sameBounds a.buckets b.buckets then .error "HISTOGRAM_BUCKET_MISMATCH"
        else if b.count < a.count ∨ ∃ pair ∈ List.zip a.buckets b.buckets,
            pair.2.count < pair.1.count then .ok .empty
        else if finite : (b.sum.val - a.sum.val).isFinite = true then
          .ok { Group.empty with
            histogram := some
              ⟨b.count - a.count, ⟨b.sum.val - a.sum.val, finite⟩, subtractBuckets a.buckets b.buckets⟩
            points := [last, current], coverage := Binary64.ofInt 1
            evidence := qualityOf [last, current] }
        else .ok .empty
      | _, _ => .ok .empty

/-- `Math.min(1, x)`. -/
def atMostOne (x : Float) : Float :=
  if x.isNaN then x else if x < Binary64.ofInt 1 then x else Binary64.ofInt 1

/-- `mergeHistograms`, of the groups that have one. -/
def mergeAvailable (first : Group × HistogramValue) (rest : List (Group × HistogramValue)) :
    Except String Group :=
  let available := first :: rest
  let points := available.flatMap fun g => g.1.points
  let count := (available.map fun g => g.2.count).sum
  let sum := available.foldl (fun n g => n + g.2.sum.val) (Binary64.ofInt 0)
  if ¬ ∀ g ∈ rest, sameBounds g.2.buckets first.2.buckets = true then
    .error "HISTOGRAM_BUCKET_MISMATCH"
  else if 2 ^ 64 ≤ count then .error "HISTOGRAM_COUNT_OVERFLOW"
  else if finite : sum.isFinite = true then
    .ok { Group.empty with
      histogram := some
        { count, sum := ⟨sum, finite⟩
          buckets := first.2.buckets.mapIdx fun i b => ⟨b.upperBound,
            (available.map fun g => ((g.2.buckets[i]?).map HistogramBucket.count).getD 0).sum⟩ }
      points
      coverage := atMostOne (available.foldl (fun n g => n + g.1.coverage) (Binary64.ofInt 0))
      evidence := qualityOf points }
  else .error "HISTOGRAM_SUM_OVERFLOW"

variable (q : SemanticQuery) (groups : List Group)

def mergeHistograms : Except String Group :=
  match groups.filterMap fun g => g.histogram.map fun h => (g, h) with
  | [] => .ok .empty
  | first :: rest => mergeAvailable first rest

/-! ## Counters -/

structure RateInterval where
  (prior point : Point)
  delta : Rational
  elapsed : Int

def RateInterval.start (i : RateInterval) : Int := i.prior.time

def RateInterval.stop (i : RateInterval) : Int := i.point.time

/-- The definition of the deltas. -/
def deltaDefinition (d : MetricDefinition) : MetricDefinition :=
  { d with
    id := d.id ++ ".aggregate_delta", kind := .gauge, temporality := .instant, monotonic := false
    aggregation := { d.aggregation with time := [.last], space := [.none] } }

/-- The counter options of a query. -/
def SemanticQuery.counterOptions : CounterOptions :=
  ⟨⟨q.now, q.staleAfterMs⟩, q.maxGapMs, none, none⟩

/-- The interval of a transition between two trusted baselines. -/
def intervalOf (state : Option CounterState) (point : Point) (output : Observation) :
    Option RateInterval :=
  match state, output.value with
  | some last, some (.scalar delta) =>
    -- `state?.baseline as Point`: the baselines are rows
    if normalized : last.baseline.stage = .normalized then
      some ⟨⟨last.baseline, normalized⟩, point, delta.decode,
        point.time - last.baseline.observedAt.ms⟩
    else none
  | _, _ => none

section Identified

variable (digest : IdentityPreimage → String)

/-- The loop of `counterIntervals` from a state. -/
def intervalsFrom (q : SemanticQuery) : (state : Option CounterState) → List Point →
    Except String (List RateInterval)
  | _, [] => .ok []
  | state, point :: rest =>
    if ¬ point.isValid then intervalsFrom q none rest
    else do
      let transition ← processCounter digest point q.definition (deltaDefinition q.definition)
        .delta state q.counterOptions
      let later ← intervalsFrom q transition.state rest
      pure ((intervalOf state point transition.output.observation).toList ++ later)

def counterIntervals (q : SemanticQuery) (points : List Point) :
    Except String (List RateInterval) :=
  intervalsFrom digest q none points

end Identified

/-- What the loops over intervals and holds add up. -/
structure Totals where
  total : Rational
  covered : Int
  used : List Point
  samples : List Rational

def Totals.zero : Totals := ⟨0, 0, [], []⟩

/-- One round of the loop of `reduceRate`. -/
def addInterval (start stop : Int) (t : Totals) (i : RateInterval) : Totals :=
  let ms := overlap i.start i.stop start stop
  if ms = 0 then t
  else
    { total := t.total + i.delta * (ms / i.elapsed)
      covered := t.covered + ms
      used := t.used ++ [i.prior, i.point]
      samples := t.samples ++ [i.delta * (1000 / i.elapsed)] }

/-- The loop of `reduceRate`: from the first interval that ends in time to the last that starts. -/
def rateTotals (intervals : List RateInterval) (ends : List Int) (start stop : Int) : Totals :=
  ((intervals.drop (lowerBound ends start)).takeWhile fun i => i.start < stop).foldl
    (addInterval start stop) .zero

/-- `covered / duration`. -/
def coverageOf (covered duration : Int) : Float := Binary64.ofInt covered / Binary64.ofInt duration

/-- A group of the totals, under the value they come to. -/
def Totals.group (t : Totals) (value : Rational) (duration : Int) : Group :=
  if t.covered = 0 then .empty
  else
    { value := some value, histogram := none, summary := none
      coverage := coverageOf t.covered duration
      points := t.used, samples := t.samples, evidence := qualityOf t.used }

def reduceRate (intervals : List RateInterval) (ends : List Int) (start stop : Int) : Group :=
  let t := rateTotals intervals ends start stop
  t.group (t.total / (t.covered / 1000)) (stop - start)

/-! ## Series -/

/-- One round of the loop over holds, for a row and the row after it. -/
def addHold (start stop : Int) (t : Totals) (p : Point) (next : Option Point) :
    Except String Totals :=
  if ¬ p.isValid then .ok t
  else
    let ms := overlap p.time (min ((next.map Point.time).getD stop) (p.time + q.maxGapMs)) start stop
    if ms = 0 then .ok t
    else do
      let value ← p.scalar
      let covered := t.covered + ms
      let used := t.used ++ [p]
      if q.mode = .duration then
        pure ⟨t.total + (if value = q.stateValue.getD 0 then (ms : Rational) else 0), covered, used,
          t.samples⟩
      else pure ⟨t.total + value * ms, covered, used, t.samples ++ [value]⟩

/-- The loop over the rows, each of which holds until the next one or for the longest gap. -/
def holdTotals (q : SemanticQuery) (start stop : Int) (t : Totals) : List Point →
    Except String Totals
  | [] => .ok t
  | p :: rest => do
    let t ← addHold q start stop t p rest.head?
    holdTotals q start stop t rest

/-- `Math.ceil(duration / interval)`; below `2 ^ 32` the double quotient rounds to no integer that
the exact one does not reach. -/
def slotCount (duration interval : Int) : Int := -(-duration / interval)

/-- The share of the slots of a window that have a row. -/
def slotCoverage (inside : List Point) (start stop : Int) : Float :=
  let slots := (inside.map fun p => (p.time - start) / q.intervalMs).dedup.length
  Binary64.ofInt slots / Binary64.ofInt (slotCount (stop - start) q.intervalMs)

/-- The deltas of the rows in the window, each over the row before it. -/
def histogramDeltas (q : SemanticQuery) (start stop : Int) : (previous : Option Point) →
    List Point → Except String (List Group)
  | _, [] => .ok []
  | previous, p :: rest => do
    if p.time < start ∨ stop ≤ p.time then histogramDeltas q start stop (some p) rest
    else
      let g ← histogramDelta previous p q.definition q.maxGapMs
      let later ← histogramDeltas q start stop (some p) rest
      pure (if g.histogram = none then later else g :: later)

/-- The value of the samples of a window under a mode. -/
def sampleValue (mode : QueryMode) (first : Rational) (rest : List Rational) : Rational :=
  match mode with
  | .last => rest.getLast?.getD first
  | .min => least first rest
  | .max => greatest first rest
  | .mean => average (first :: rest)
  | _ => first

/-- The valid rows of a window. -/
def rowsInside (points : List Point) (start stop : Int) : List Point :=
  points.filter fun p => start ≤ p.time ∧ p.time < stop ∧ p.isValid

/-- Whether a query weighs the rows by the time they hold. -/
def SemanticQuery.holds : Prop :=
  q.mode = .duration ∨ q.weighting = some .time

instance (q : SemanticQuery) : Decidable q.holds := inferInstanceAs (Decidable (_ ∨ _))

/-- The branch of `reduceSeries` over holds. -/
def reduceHolds (points : List Point) (start stop : Int) :
    Except String Group := do
  let t ← holdTotals q start stop .zero points
  let value := if q.mode = .duration then t.total else t.total / t.covered
  pure (t.group value (stop - start))

/-- The branch of `reduceSeries` over samples. -/
def reduceSamples (inside : List Point) (start stop : Int) :
    Except String Group := do
  let values ← inside.mapM Point.scalar
  match values with
  | [] => pure .empty
  | first :: rest =>
    pure
      { value := some (sampleValue q.mode first rest), histogram := none, summary := none
        coverage := slotCoverage q inside start stop
        points := inside, samples := values, evidence := qualityOf inside }

/-- The branch of `reduceSeries` over summaries. -/
def reduceSummary (inside : List Point) (start stop : Int) : Group :=
  match inside.getLast?, inside.getLast?.bind fun p => p.val.value with
  | some last, some (.summary value) =>
    { Group.empty with
      summary := some value
      coverage := Binary64.ofInt 1 / Binary64.ofInt (slotCount (stop - start) q.intervalMs)
      points := [last], evidence := qualityOf [last] }
  | _, _ => .empty

def reduceSeries (points : List Point) (start stop : Int) :
    Except String Group :=
  let inside := rowsInside points start stop
  if q.holds then reduceHolds q points start stop
  else if q.definition.kind = .summary then .ok (reduceSummary q inside start stop)
  else if q.mode = .merge ∨ q.mode = .quantile then do
    let groups ← histogramDeltas q start stop none points
    let merged ← mergeHistograms groups
    pure { merged with coverage := slotCoverage q inside start stop }
  else reduceSamples q inside start stop

/-! ## Ratios -/

/-- What the loop of `ratioSeries` adds up. -/
structure RatioTotals where
  (numerator denominator : Rational)
  slots : List Int
  pairs : List Point
  zero : Bool

/-- One round of the loop of `ratioSeries`. -/
def addPair (denominators : List Point) (start stop : Int) (t : RatioTotals)
    (p : Point) : Except String RatioTotals :=
  if p.time < start ∨ stop ≤ p.time ∨ ¬ p.isValid then .ok t
  else match denominators.find? fun d => d.time = p.time with
    | none => .ok t
    | some other => if ¬ other.isValid then .ok t else do
      let below ← other.scalar
      if below ≤ 0 then pure { t with zero := true }
      else do
        let above ← p.scalar
        pure ⟨t.numerator + above, t.denominator + below,
          t.slots ++ [(p.time - start) / q.intervalMs], t.pairs ++ [p, other], t.zero⟩

def ratioSeries (collate : String → String → Prop) [DecidableRel collate] (q : SemanticQuery)
    (numerator denominator : List Point) (start stop : Int) : Except String Group := do
  let t ← (unique collate numerator).foldlM (addPair q (unique collate denominator) start stop)
    ⟨0, 0, [], [], false⟩
  if t.pairs ≠ [] then
    pure
      { value := some (t.numerator / t.denominator), histogram := none, summary := none
        coverage := Binary64.ofInt t.slots.dedup.length /
          Binary64.ofInt (slotCount (stop - start) q.intervalMs)
        points := t.pairs, samples := [], evidence := qualityOf t.pairs }
  else if t.zero then
    pure { Group.empty with evidence := ⟨⟨.unknown, .invalidDenominator⟩, .unknown⟩ }
  else pure .empty

/-! ## Space -/

def Group.present (g : Group) : Prop := g.value ≠ none ∨ g.histogram ≠ none ∨ g.summary ≠ none

instance : DecidablePred Group.present := fun _ => inferInstanceAs (Decidable (_ ∨ _ ∨ _))

/-- `groups.reduce((n, g) => n + g.coverage, 0) / groups.length`. -/
def meanCoverage : Float :=
  groups.foldl (fun n g => n + g.coverage) (Binary64.ofInt 0) / Binary64.ofInt groups.length

/-- The weights of the groups with a value, and their values times the weights. -/
def weigh (weights : List Int) : Rational × Int :=
  (groups.zip weights).foldl
    (fun (weighted, weight) (g, w) => match g.value with
      | some value => (weighted + value * w, weight + w)
      | none => (weighted, weight)) (0, 0)

/-- The value of the groups over space; a group without one is a `TypeError` of the source. -/
def spatialValue (good : List Group) :
    Except String (Option Rational) :=
  match q.space, good.mapM Group.value with
  | .sum, some values => .ok (some (values.foldl (· + ·) 0))
  | .min, some (first :: rest) => .ok (some (least first rest))
  | .max, some (first :: rest) => .ok (some (greatest first rest))
  | .weightedMean, _ =>
    if q.weightsValid groups.length then
      let (weighted, weight) := weigh groups (q.weights.getD [])
      if weight = 0 then .error "ZERO_DENOMINATOR" else .ok (some (weighted / weight))
    else .error "SPATIAL_WEIGHTS_REQUIRED"
  | _, _ => .error "TypeError"

def spatial : Except String Group :=
  let good := groups.filter Group.present
  match good with
  | [] => .ok .empty
  | first :: _ =>
    if q.space = .none then
      if groups.length ≠ 1 then .error "SPACE_OPERATION_REQUIRED" else .ok first
    else if q.space = .merge then do
      let merged ← mergeHistograms good
      pure { merged with coverage := meanCoverage groups }
    else do
      let value ← spatialValue q groups good
      let points := good.flatMap Group.points
      pure
        { value, histogram := none, summary := none, coverage := meanCoverage groups
          points, samples := good.flatMap Group.samples, evidence := qualityOf points }

end Slide.Metrics
