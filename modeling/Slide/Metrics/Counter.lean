import Slide.Metrics.Output

/-!
# Cumulative counters

`processCounter` of `metrics/counter.ts`.  A state holds the baseline, the last trusted observation
of the counter; an observation is compared with it and either leaves the state or becomes the
baseline.  `counterExit` decides which, and what is said about the step: each `return finish(...)`
of the source is one `CounterExit`.
-/

namespace Slide.Metrics

/-- `JSON.stringify` of what a source segment is told apart by. -/
structure SourceSegment where
  (bindingId metricBindingId collectorId : String)
  contract : Version
  packageId : String
  (packageVersion transformVersion : Version)
  configRevision : Nat
  unit : MetricUnit
  bits : Option CounterBits
deriving DecidableEq

/-- `sourceSegment`. -/
def Observation.segment (o : Observation) : SourceSegment where
  bindingId := o.source.bindingId
  metricBindingId := o.source.metricBindingId
  collectorId := o.source.collectorId
  contract := o.versions.contract
  packageId := o.versions.packageId
  packageVersion := o.versions.packageVersion
  transformVersion := o.versions.transformVersion
  configRevision := o.versions.configRevision
  unit := o.unit
  bits := o.counter.map CounterEvidence.bits

def Observation.startAt (o : Observation) : Option Timestamp := o.counter.bind CounterEvidence.startAt

def Observation.discontinuity (o : Observation) : Option Discontinuity :=
  o.counter.bind CounterEvidence.discontinuity

def Observation.bits (o : Observation) : Option CounterBits := o.counter.map CounterEvidence.bits

def Observation.period (o : Observation) :
    Option Int × Option (String × Int × DiscontinuityReason) :=
  (o.startAt.map Timestamp.ms, o.discontinuity.map fun d => (d.epoch, d.observedAt.ms, d.reason))

/-- The processing revision of a state: the pinned or the transform version, and the options. -/
structure ProcessingRevision where
  revision : String
  maxGapMs : Int
  maxIncrementPerSecond : Option String
deriving DecidableEq

structure CounterState where
  series : SeriesKey
  segment : SourceSegment
  processingRevision : ProcessingRevision
  baseline : Observation

/-- `CounterOptions`; a gap that is no integer is refused like one that is not positive. -/
structure CounterOptions where
  context : EvaluationContext
  maxGapMs : Int
  (maxIncrementPerSecond processingRevision : Option String)

inductive CounterOperation
  | delta | rate

structure CounterTransition where
  state : Option CounterState
  advanced : Bool
  output : Computation

/-! ## Options -/

def Version.text (v : Version) : String :=
  toString v.major ++ "." ++ toString v.minor ++ "." ++ toString v.patch

/-- The number of a text `^(0|[1-9]\d*)$`. -/
def decimal (text : String) : Option Nat :=
  match text.toList with
  | ['0'] => some 0
  | digits =>
    if digits ≠ [] ∧ digits.head? ≠ some '0' ∧ digits.all Char.isDigit then
      some (digits.foldl (fun n c => 10 * n + (c.toNat - '0'.toNat)) 0)
    else none

/-- The checked bound of the options. -/
def CounterOptions.bound (options : CounterOptions) : Except String (Option Nat) :=
  match options.maxIncrementPerSecond with
  | none => .ok none
  | some text =>
    match decimal text with
    | none => .error "COUNTER_BOUND"
    | some bound => .ok (some bound)

def CounterOptions.revision (options : CounterOptions) (input : Observation) :
    ProcessingRevision :=
  ⟨options.processingRevision.getD input.versions.transformVersion.text, options.maxGapMs,
    options.maxIncrementPerSecond⟩

/-- The factor from the counter's unit, or its unit per second, to the unit of the output. -/
def outputFactor (operation : CounterOperation) (source target : MetricUnit) :
    Except String Rational :=
  match operation, source with
  | .delta, _ => unitFactor source target
  | .rate, .bytes => unitFactor .bytesPerSecond target
  | .rate, .count => unitFactor .countPerSecond target
  | .rate, _ => .error "UNIT_CONVERSION"

/-! ## Exits -/

/-- The arguments of one `finish`. -/
structure CounterExit where
  quality : Option Quality
  value : Option Rational
  (advance paired : Bool)

/-- The state stays. -/
def CounterExit.hold (quality : Quality) : CounterExit := ⟨some quality, none, false, false⟩

/-- A new baseline, of the input alone. -/
def CounterExit.restart (reason : QualityReason) : CounterExit :=
  ⟨some ⟨.unknown, reason⟩, none, true, false⟩

/-- A new baseline after an interval that says nothing. -/
def CounterExit.broken (reason : QualityReason) : CounterExit :=
  ⟨some ⟨.unknown, reason⟩, none, true, true⟩

/-- A new baseline and the increase since the last one. -/
def CounterExit.emit (value : Rational) (wrapped : Bool) : CounterExit :=
  ⟨if wrapped then some ⟨.partly, .counterWrap⟩ else none, some value, true, true⟩

/-- The scalar integer an observation can become a baseline with. -/
def Observation.count (o : Observation) : Option Int :=
  match o.value with
  | some (.scalar (.int64 value)) => some value
  | some (.scalar (.uint64 value)) => some value
  | _ => none

/-- `wrapEvidence`: the input proves a wrap between the two. -/
def provesWrap (input previous : Observation) : Prop :=
  ∃ change ∈ input.discontinuity, change.reason = .wrap ∧
    previous.observedAt.ms < change.observedAt.ms ∧ change.observedAt.ms ≤ input.observedAt.ms ∧
    input.startAt.map Timestamp.ms = previous.startAt.map Timestamp.ms

instance (input previous : Observation) : Decidable (provesWrap input previous) :=
  inferInstanceAs (Decidable (∃ change ∈ input.discontinuity, _ ∧ _ ∧ _ ∧ _))

/-- A difference, a proven wrap of a 32-bit counter made up for, and whether that was done; `limit`
is what the driver bound admits in the elapsed time. -/
def reconstruct (bits : Option CounterBits) (wrap : Prop) [Decidable wrap]
    (limit : Option Rational) (difference : Rational) : Option (Rational × Bool) :=
  if bits = some .bits32 then
    -- a bound below the modulus also rejects several wraps behind an increasing value
    if ¬ ∃ most ∈ limit, most < 2 ^ 32 then none
    else if difference < 0 ∧ wrap then some (difference + 2 ^ 32, true)
    else if wrap then none
    else some (difference, false)
  else if wrap then none
  else some (difference, false)

/-- The increase a difference stands for, unless it is negative or above the driver bound. -/
def counterIncrease (bits : Option CounterBits) (wrap : Prop) [Decidable wrap]
    (limit : Option Rational) (difference : Rational) : Option (Rational × Bool) :=
  (reconstruct bits wrap limit difference).filter fun (increase, _) =>
    0 ≤ increase ∧ ∀ most ∈ limit, increase ≤ most

/-- The exits of an observation on a baseline of the same segment and revision. -/
def continuedExit (input previous : Observation) (maxGapMs : Int) (bound : Option Nat)
    (convert : Rational → Int → Rational) : Except String CounterExit :=
  let elapsed := input.observedAt.ms - previous.observedAt.ms
  if input.period ≠ previous.period ∧ ¬ provesWrap input previous then
    .ok (.restart .counterReset)
  else if maxGapMs < elapsed then .ok (.broken .gap)
  else match input.value, previous.value with
    | some current, some last => do
      let difference := (← current.decode) - (← last.decode)
      let limit : Option Rational := bound.map fun bound => bound * elapsed / 1000
      match counterIncrease (input.counter.map CounterEvidence.bits) (provesWrap input previous)
          limit difference with
      | none => pure (.broken .counterReset)
      | some (increase, wrapped) => pure (.emit (convert increase elapsed) wrapped)
    | _, _ => .error "STATE_BASELINE_VALUE"

/-- The exits of `processCounter`. -/
def counterExit (input : Observation) (state : Option CounterState) (revision : ProcessingRevision)
    (bound : Option Nat) (convert : Rational → Int → Rational) : Except String CounterExit :=
  if ∃ last ∈ state, input.observedAt.ms ≤ last.baseline.observedAt.ms then
    .ok (.hold ⟨.unknown, .clockSkew⟩)
  else if input.value = none ∨ input.quality.status.withholds then .ok (.hold input.quality)
  -- a rounded cumulative counter cannot become a trustworthy baseline
  else if input.quality.reason = .precisionLoss ∨ input.count = none then
    .ok (.hold ⟨.invalid, .precisionLoss⟩)
  else match state with
    | none => .ok (.restart .counterBaseline)
    | some last =>
      if last.segment ≠ input.segment ∨ last.processingRevision ≠ revision then
        .ok (.restart .counterReset)
      else continuedExit input last.baseline revision.maxGapMs bound convert

/-! ## `processCounter` -/

/-- The conversion of an increase over `elapsed` milliseconds. -/
def convertIncrease (operation : CounterOperation) (factor outputFactor : Rational)
    (increase : Rational) (elapsed : Int) : Rational :=
  match operation with
  | .delta => increase * factor * outputFactor
  | .rate => increase * factor / (elapsed / 1000) * outputFactor

/-- The output arguments of an exit. -/
def CounterExit.args (exit : CounterExit) (input : Observation) (previous : Option Observation)
    (outputDefinition : MetricDefinition) (context : EvaluationContext) : OutputArgs :=
  let paired := if exit.paired then previous else none
  { anchor := input, definition := outputDefinition, inputs := paired.toList ++ [input]
    value := exit.value, context
    window := ⟨(paired.getD input).observedAt.toDateText, input.observedAt.toDateText⟩
    quality := exit.quality, derived := true, source := none, versions := none }

section Identified

variable (digest : IdentityPreimage → String)

/-- The checks on a given state. -/
def CounterState.check (state : CounterState) (input : Observation) (definition : MetricDefinition) :
    Except String PUnit := do
  requireRule (state.series = input.series) "STATE_SERIES_MISMATCH"
  validateObservation digest state.baseline definition
  requireRule (state.baseline.series = state.series ∧ state.baseline.segment = state.segment)
    "STATE_CORRUPT"

def processCounter (input : Observation) (definition outputDefinition : MetricDefinition)
    (operation : CounterOperation) (state : Option CounterState) (options : CounterOptions) :
    Except String CounterTransition := do
  validateObservation digest input definition
  validateDefinition outputDefinition
  evaluateContext options.context
  requireRule (definition.kind = .counter ∧ definition.temporality = .cumulative ∧
    definition.monotonic) "CUMULATIVE_MONOTONIC_REQUIRED"
  requireRule (outputDefinition.kind = .gauge ∧
    outputDefinition.resourceType = definition.resourceType) "COUNTER_OUTPUT"
  requireRule (IsPositiveSafe options.maxGapMs) "COUNTER_GAP_POLICY"
  let bound ← options.bound
  let factor ← unitFactor input.unit definition.unit
  let toOutput ← outputFactor operation definition.unit outputDefinition.unit
  match state with
  | some last => last.check digest input definition
  | none => pure ()
  let revision := options.revision input
  let exit ← counterExit input state revision bound (convertIncrease operation factor toOutput)
  let output ← buildOutput digest
    (exit.args input (state.map CounterState.baseline) outputDefinition options.context)
  let next : CounterState := ⟨input.series, input.segment, revision, input⟩
  pure ⟨if exit.advance then some next else state, exit.advance, output⟩

end Identified

end Slide.Metrics
