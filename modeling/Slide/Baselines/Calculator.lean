import Slide.Baselines.Window
import Slide.Library.Quantile

/-!
# `calculateBaseline`

`baselines/calculator.ts` on exact numbers.  A rational is always finite, so the checks of
`Number.isFinite` on a deviation have no counterpart.
-/

namespace Slide.Baselines

open Quantile

structure ReferenceBand where
  slot : Nat
  (median lower upper : ℚ)
  repeats : Nat

inductive BaselineState
  | qualified | notQualified | invalidated
deriving DecidableEq

inductive BaselineStatus
  | known | unknown

structure BaselineQuality where
  validDays : Nat
  coverage : ℚ
  samples : Nat
  missing : Int
  (trainingCoverage validationCoverage : ℚ)
  expectedHours : Nat
  maxGapMs : Int

structure Comparison where
  observedAt : Option String
  value : Option ℚ
  reference : Option ReferenceBand
  (deviation deviationRatio : Option ℚ)
  (baselineAnomaly staticAnomaly : Option Bool)

inductive StaticStatus
  | known | unknown | notConfigured

structure StaticComparison where
  status : StaticStatus
  threshold : Option StaticThreshold
  value : Option ℚ
  anomaly : Option Bool

/-- `temporalReport`, without the members that are constants of its type. -/
structure TemporalReport where
  evaluated : Bool
  samples : Nat
  (baselineFlags staticFlags : Option Nat)

/-- `BaselineCalculation`, without the constant `methodVersion` and exclusion policy. -/
structure BaselineCalculation (Identity : Type) where
  mode : Mode
  state : BaselineState
  status : BaselineStatus
  reason : Option String
  series : Option Identity
  seriesHash : Option String
  (training validation : String × String)
  quality : BaselineQuality
  referenceBands : List ReferenceBand
  comparison : Comparison
  staticComparison : StaticComparison
  temporalReport : TemporalReport
  excludedHours : Int
  (evaluatedAt validUntil sourceFence : String)

def isOutside (value : ℚ) (band : ReferenceBand) : Bool := value < band.lower || band.upper < value

def staticFlag (value : ℚ) : Option StaticThreshold → Option Bool
  | some ⟨.above, limit⟩ => some (limit < value)
  | some ⟨.below, limit⟩ => some (value < limit)
  | none => none

/-- `coverageRatio`: a ratio to twelve decimals. -/
def coverageRatio (n count : ℚ) : ℚ := ⌊n / count * 10 ^ 12 + 1 / 2⌋ / 10 ^ 12

/-! ## Measuring the window -/

/-- The instants of a loop from `first` to below `last`. -/
def ticks (first last width : Int) : List Int :=
  (List.range ((last - first + width - 1) / width).toNat).map fun (i : Nat) => first + i * width

/-- `valid.get(hour)?.coverage ?? 0`. -/
def hourCoverage (rows : List Row) (at_ : Int) : ℚ :=
  ((rows.find? fun row => row.start = at_).map Row.coverage).getD 0

def dayCoverage (rows : List Row) (at_ : Int) : ℚ :=
  ((ticks at_ (at_ + day) hour).map (hourCoverage rows)).sum

/-- One hour of the loop over the gaps: the gap that is open, and the longest. -/
def extendGap (rows : List Row) (gaps : Int × Int) (at_ : Int) : Int × Int :=
  let gap := if rows.any fun row => row.start = at_ then 0 else gaps.1 + hour
  (gap, max gaps.2 gap)

/-- `split`, where the last seven days begin. -/
def splitOf (last : Int) : Int := last - 7 * day

def trainingOf (last : Int) (rows : List Row) : List Row := rows.filter (·.start < splitOf last)

def validationOf (last : Int) (rows : List Row) : List Row := rows.filter (splitOf last ≤ ·.start)

def covered (rows : List Row) : ℚ := (rows.map Row.coverage).sum

def measure (mode : Mode) (first last : Int) (rows : List Row) : BaselineQuality where
  coverage := coverageRatio (covered (trainingOf last rows) + covered (validationOf last rows)) mode.expected
  trainingCoverage := coverageRatio (covered (trainingOf last rows)) ((splitOf last - first : Int) / hour)
  validationCoverage := coverageRatio (covered (validationOf last rows)) 168
  samples := (rows.map Row.samples).sum
  missing := mode.expected - rows.length
  validDays := (ticks first last day).countP fun at_ => 9 / 10 ≤ coverageRatio (dayCoverage rows at_) 24
  maxGapMs := ((ticks first last hour).foldl (extendGap rows) (0, 0)).2
  expectedHours := mode.expected

/-! ## Reference bands and drift -/

/-- `groups.get(key)`. -/
def slotRows (mode : Mode) (training : List Row) (key : Nat) : List Row :=
  training.filter fun row => slot row.start mode = key

/-- The band of a slot; `none` is the return with `insufficient_repeated_periods`. -/
def bandOf (mode : Mode) (training : List Row) (key : Nat) : Option ReferenceBand :=
  let rows := slotRows mode training key
  let repeats := (rows.map fun row => utcDate row.start).dedup.length
  if repeats < mode.repeats then none
  else
    let values := rows.map Row.value
    some ⟨key, quantile values (1 / 2), quantile values (1 / 10), quantile values (9 / 10), repeats⟩

def bandsOf (mode : Mode) (training : List Row) : Option (List ReferenceBand) :=
  (List.range mode.slots).mapM (bandOf mode training)

def ReferenceBand.severe (band : ReferenceBand) : ℚ :=
  max (max ((band.upper - band.lower) * 3) (|band.median| * (1 / 2))) (1 / 10 ^ 9)

/-- A validation value with the band of its slot. -/
def referenced (mode : Mode) (bands : List ReferenceBand) (row : Row) :
    Except String (Row × ReferenceBand) :=
  match bands[slot row.start mode]? with
  | some band => .ok (row, band)
  | none => .error "TypeError"

def shiftsHigh (entry : Row × ReferenceBand) : Bool := entry.2.severe < entry.1.value - entry.2.median

def shiftsLow (entry : Row × ReferenceBand) : Bool := entry.1.value - entry.2.median < -entry.2.severe

/-! ## The calculation -/

section Calculation

variable {Identity : Type}

/-- Whether a source reason is set; the empty text is not. -/
def BaselineSourceWindow.stopped (source : BaselineSourceWindow Identity) : Bool :=
  source.reason.any (· ≠ "")

/-- The reasons of a source that invalidate. -/
def invalidating : List String :=
  ["series_identity_changed", "configuration_changed", "counter_reset", "stale_observation",
    "future_observation", "observation_quality", "late_collection"]

/-- `unknown`. -/
def BaselineCalculation.refuse (result : BaselineCalculation Identity) (reason : String)
    (invalidated : Bool) : BaselineCalculation Identity :=
  { result with
    state := if invalidated then .invalidated else .notQualified
    status := .unknown, reason := some reason, referenceBands := [] }

/-- The start of the window, if it passes the check named `observation_window`. -/
def BaselineSourceWindow.first? (source : BaselineSourceWindow Identity) (mode : Mode) (last : Int) :
    Option Int :=
  match source.identity, source.from_.instant with
  | some _, some first =>
    if last - first ≠ mode.expected * hour ∨ first % hour ≠ 0 ∨ last % hour ≠ 0 ∨
        exceeds (some last) source.evaluatedAt.instant ∨
        (exceeds source.evaluatedAt.instant source.validUntil.instant ∨
          source.validUntil.instant = source.evaluatedAt.instant ∧ source.validUntil.instant.isSome)
    then none else some first
  | _, _ => none

/-- `result` as it starts; `split` is the text of the split. -/
def initial (hash : Identity → String) (input : BaselineInput) (source : BaselineSourceWindow Identity)
    (split : String) : BaselineCalculation Identity where
  mode := input.mode
  state := .notQualified
  status := .unknown
  reason := source.reason
  series := source.identity
  seriesHash := source.identity.map hash
  training := (source.from_.text, split)
  validation := (split, source.until_.text)
  quality := ⟨0, 0, 0, input.mode.expected, 0, 0, input.mode.expected, 0⟩
  referenceBands := []
  comparison := ⟨source.latest.observedAt, none, none, none, none, none, none⟩
  staticComparison :=
    { status :=
        if input.staticThreshold = none then .notConfigured
        else if source.stopped ∨ source.latest.value = none then .unknown else .known
      threshold := input.staticThreshold
      value := if source.stopped ∨ input.staticThreshold = none then none else source.latest.value
      anomaly :=
        if source.stopped then none
        else source.latest.value.bind fun value => staticFlag value input.staticThreshold }
  temporalReport := ⟨false, 0, none, none⟩
  excludedHours := input.mode.expected
  evaluatedAt := source.evaluatedAt.text
  validUntil := source.validUntil.text
  sourceFence := source.fence

/-- The end of the calculation: the current value beside the band of its slot. -/
def conclude (input : BaselineInput) (source : BaselineSourceWindow Identity)
    (result : BaselineCalculation Identity) (bands : List ReferenceBand) :
    Except String (BaselineCalculation Identity) :=
  match source.latest.value with
  | none => .ok (result.refuse "current_value_unavailable" false)
  | some value =>
    match source.evaluatedAt.instant.bind fun now => bands[slot now input.mode]? with
    | none => .error "TypeError"
    | some band =>
      let deviation := value - band.median
      .ok { result with
        state := .qualified, status := .known, reason := none, referenceBands := bands
        comparison :=
          { observedAt := source.latest.observedAt, value := some value, reference := some band
            deviation := some deviation
            deviationRatio := if band.median = 0 then none else some (deviation / |band.median|)
            baselineAnomaly := some (isOutside value band)
            staticAnomaly := staticFlag value input.staticThreshold } }

/-- The validation of the bands. -/
def validate (input : BaselineInput) (source : BaselineSourceWindow Identity)
    (result : BaselineCalculation Identity) (bands : List ReferenceBand) (validation : List Row) :
    Except String (BaselineCalculation Identity) := do
  let entries ← validation.mapM (referenced input.mode bands)
  let reported := { result with
    temporalReport :=
      { evaluated := true, samples := validation.length
        baselineFlags := some (entries.countP fun entry => isOutside entry.1.value entry.2)
        staticFlags := input.staticThreshold.map fun _ =>
          validation.countP fun row => staticFlag row.value input.staticThreshold = some true } }
  if (1 / 2 : ℚ) < (max (entries.countP shiftsHigh) (entries.countP shiftsLow) : Nat) / validation.length then
    pure (reported.refuse "severe_drift" true)
  else conclude input source reported bands

/-- The calculation on a measured result and the rows of the acceptable buckets. -/
def assess (input : BaselineInput) (source : BaselineSourceWindow Identity)
    (measured : BaselineCalculation Identity) (last : Int) (rows : List Row) :
    Except String (BaselineCalculation Identity) :=
  if 6 * hour ≤ measured.quality.maxGapMs then .ok (measured.refuse "long_gap" true)
  else if measured.quality.coverage < 9 / 10 ∨ measured.quality.trainingCoverage < 9 / 10 ∨
      measured.quality.validationCoverage < 9 / 10 then
    .ok (measured.refuse "coverage_below_90_percent" false)
  else if measured.quality.validDays < input.mode.expected / 24 then
    .ok (measured.refuse "insufficient_valid_days" false)
  else
    match bandsOf input.mode (trainingOf last rows) with
    | none => .ok (measured.refuse "insufficient_repeated_periods" false)
    | some bands => validate input source measured bands (validationOf last rows)

/-- `calculateBaseline`; `hash` is `operationsContentHash`. -/
def calculateBaseline (hash : Identity → String) (input : BaselineInput)
    (source : BaselineSourceWindow Identity) : Except String (BaselineCalculation Identity) :=
  match source.until_.instant with
  | none => .error "RangeError"
  | some last => do
    let split ← toISOString (splitOf last)
    let result := initial hash input source split
    if source.stopped then
      pure (result.refuse (source.reason.getD "") (source.reason.any fun reason => reason ∈ invalidating))
    else
      match source.first? input.mode last with
      | none => pure (result.refuse "observation_window" false)
      | some first =>
        match readBuckets first last [] source.buckets with
        | none => pure (result.refuse "bucket_window" false)
        | some rows =>
          let measured := { result with
            quality := measure input.mode first last rows
            excludedHours := input.mode.expected - rows.length }
          assess input source measured last rows

end Calculation

end Slide.Baselines
