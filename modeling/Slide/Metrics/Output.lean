import Slide.Metrics.Evidence

/-!
# Computed observations

`metrics/observation.ts`: a computation carries its normalized observation with the window it
describes, its freshness and where its inputs came from.  `buildOutput` makes one; `outputEvidence`
is how it settles quality and accuracy.
-/

namespace Slide.Metrics

/-- A window of two date texts. -/
structure Window where
  (start stop : DateText)
deriving DecidableEq

/-- `Evaluation`; a number that is no integer is refused like one that is not positive. -/
structure EvaluationContext where
  now : DateText
  staleAfterMs : Int

structure InputProvenance where
  id : String
  stage : Stage
  source : ObservationSource
  versions : ObservationVersions
  metric : MetricRef
deriving DecidableEq

def Observation.provenance (o : Observation) : InputProvenance :=
  ⟨o.id, o.stage, o.source, o.versions, o.metric⟩

structure Computation where
  observation : Observation
  window : Window
  freshness : Freshness
  inputProvenance : List InputProvenance
deriving DecidableEq

/-- `Number.isSafeInteger(n) && n > 0`. -/
def IsPositiveSafe (n : Int) : Prop := 0 < n ∧ n ≤ 2 ^ 53 - 1

instance : DecidablePred IsPositiveSafe := fun _ => inferInstanceAs (Decidable (_ ∧ _))

def evaluateContext (context : EvaluationContext) : Except String PUnit :=
  requireRule (context.now.instant ≠ none ∧ IsPositiveSafe context.staleAfterMs)
    "EVALUATION_CONTEXT"

/-- The arguments of `buildOutput`. -/
structure OutputArgs where
  anchor : Observation
  definition : MetricDefinition
  inputs : List Observation
  value : Option Rational
  context : EvaluationContext
  window : Window
  quality : Option Quality
  derived : Bool
  source : Option ObservationSource
  versions : Option ObservationVersions

/-! ## Quality and accuracy -/

/-- The explicit quality, unless the propagated one is worse. -/
def chooseQuality (explicit : Option Quality) (propagated : Quality) : Quality :=
  match explicit with
  | some quality => if propagated.status.rank ≤ quality.status.rank then quality else propagated
  | none => propagated

/-- The quality after an encoding, which costs `precision_loss` when it is inexact. -/
def Encoded.degrade (encoded : Encoded) (quality : Quality) : Quality :=
  let loss : Quality := ⟨if encoded.value = none then .invalid else .partly, .precisionLoss⟩
  if ¬ encoded.exact ∧ quality.status.rank ≤ loss.status.rank then loss else quality

/-- The accuracy after an encoding. -/
def Encoded.blur (encoded : Encoded) (accuracy : Accuracy) : Accuracy :=
  if encoded.exact ∨ accuracy = .unknown then accuracy else .estimated

/-- The accuracy a quality leaves: with a precision loss none is exact. -/
def Quality.blur (quality : Quality) (accuracy : Accuracy) : Accuracy :=
  if quality.reason = .precisionLoss ∧ accuracy = .exact then .estimated else accuracy

/-- The quality and accuracy of an output. -/
def outputEvidence (explicit : Option Quality) (propagated : Evidence) (encoded : Encoded) :
    Evidence :=
  let quality := encoded.degrade (chooseQuality explicit propagated.quality)
  ⟨quality, quality.blur (encoded.blur propagated.accuracy)⟩

/-- The value of an output: withheld by an unknown or invalid quality. -/
def outputValue (quality : Quality) (encoded : Encoded) : Option MetricValue :=
  if quality.status.withholds then none else encoded.value.map MetricValue.scalar

section Evidence

variable {explicit : Option Quality} {propagated : Evidence} {encoded : Encoded}

theorem rank_le_chooseQuality {quality : Quality} :
    quality.status.rank ≤ (chooseQuality explicit quality).status.rank := by
  unfold chooseQuality
  split
  · split <;> omega
  · exact le_rfl

theorem explicit_le_chooseQuality {quality propagated : Quality} :
    quality.status.rank ≤ (chooseQuality (some quality) propagated).status.rank := by
  unfold chooseQuality
  dsimp only
  split <;> omega

theorem Encoded.rank_le_degrade {quality : Quality} :
    quality.status.rank ≤ (encoded.degrade quality).status.rank := by
  unfold degrade
  dsimp only
  split_ifs with _ lossy lossy
  · exact lossy.2
  · exact le_rfl
  · exact lossy.2
  · exact le_rfl

theorem Encoded.rank_le_blur {accuracy : Accuracy} :
    accuracy.rank ≤ (encoded.blur accuracy).rank := by
  unfold blur
  split
  next => exact le_rfl
  next lossy =>
    cases accuracy with
    | unknown => exact absurd (.inr rfl) lossy
    | exact | estimated => simp [Accuracy.rank]

theorem Quality.rank_le_blur {quality : Quality} {accuracy : Accuracy} :
    accuracy.rank ≤ (quality.blur accuracy).rank := by
  unfold blur
  split
  next loss =>
    rw [loss.2]
    simp [Accuracy.rank]
  next => exact le_rfl

theorem quality_le_outputEvidence : propagated.quality.status.rank ≤
    (outputEvidence explicit propagated encoded).quality.status.rank :=
  rank_le_chooseQuality.trans Encoded.rank_le_degrade

theorem explicit_le_outputEvidence {quality : Quality} : quality.status.rank ≤
    (outputEvidence (some quality) propagated encoded).quality.status.rank :=
  explicit_le_chooseQuality.trans Encoded.rank_le_degrade

theorem accuracy_le_outputEvidence : propagated.accuracy.rank ≤
    (outputEvidence explicit propagated encoded).accuracy.rank :=
  Encoded.rank_le_blur.trans Quality.rank_le_blur

theorem outputEvidence_quality_of_exact (exact_ : encoded.exact = true) :
    (outputEvidence explicit propagated encoded).quality =
      chooseQuality explicit propagated.quality := by
  simp [outputEvidence, Encoded.degrade, exact_]

end Evidence

/-! ## `buildOutput` -/

/-- `new Date(Math.max(...))` of one field of the observations. -/
def latest (field : Observation → Timestamp) (times : List Observation) : Timestamp :=
  .ofMs ((times.map fun o => (field o).ms).max?.getD 0)

/-- The observations an output names: its inputs, or its anchor when there are none. -/
def OutputArgs.times (args : OutputArgs) : List Observation :=
  if args.inputs = [] then [args.anchor] else args.inputs

/-- `encode`, of a value that is there. -/
def encodeValue (value : Option Rational) (type : ValueType) : Except String Encoded :=
  match value with
  | none => .ok ⟨none, true⟩
  | some value => encode value type

section Identified

variable (digest : IdentityPreimage → String)

/-- An observation under its own identity. -/
def Observation.identified (o : Observation) : Observation :=
  { o with id := observationIdentity digest o }

/-- The observation of an output. -/
def OutputArgs.observation (args : OutputArgs) (encoded : Encoded) : Observation :=
  let evidence := outputEvidence args.quality
    (propagateQuality (args.inputs.map Observation.evidence)) encoded
  Observation.identified digest
    { id := "pending"
      resourceType := args.definition.resourceType
      resourceId := args.anchor.resourceId
      metric := args.definition.ref
      dimensions := args.anchor.dimensions
      observedAt := latest Observation.observedAt args.times
      collectedAt := latest Observation.collectedAt args.times
      storedAt := none
      quality := evidence.quality
      accuracy := evidence.accuracy
      production := if args.derived then .derived else args.anchor.production
      source := args.source.getD args.anchor.source
      versions := args.versions.getD args.anchor.versions
      counter := if args.definition.kind = .counter then args.anchor.counter else none
      unit := args.definition.unit
      value := outputValue evidence.quality encoded
      origin := .normalized (args.times.map Observation.ref).eraseDups }

def buildOutput (args : OutputArgs) : Except String Computation := do
  evaluateContext args.context
  let encoded ← encodeValue args.value args.definition.valueType
  let output := args.observation digest encoded
  validateObservation digest output args.definition
  let ages := args.times.map fun o =>
    freshness (some o.observedAt.toDateText) args.context.now args.context.staleAfterMs
  pure
    { observation := output
      window := args.window
      freshness := worstFreshness ages
      inputProvenance := args.times.map Observation.provenance }

variable {digest} {args : OutputArgs} {result : Computation}

theorem buildOutput_spec (ok : buildOutput digest args = .ok result) :
    ∃ encoded, encodeValue args.value args.definition.valueType = .ok encoded ∧
      validateObservation digest (args.observation digest encoded) args.definition = .ok () ∧
      result = ⟨args.observation digest encoded, args.window,
        worstFreshness (args.times.map fun o =>
          freshness (some o.observedAt.toDateText) args.context.now args.context.staleAfterMs),
        args.times.map Observation.provenance⟩ := by
  obtain ⟨-, -, ok⟩ := bind_eq_ok.mp ok
  obtain ⟨encoded, encodes, ok⟩ := bind_eq_ok.mp ok
  obtain ⟨_, valid, ok⟩ := bind_eq_ok.mp ok
  exact ⟨encoded, encodes, valid, (Except.ok.inj ok).symm⟩

theorem buildOutput_evidence {o : Observation} (ok : buildOutput digest args = .ok result)
    (mem : o ∈ args.inputs) :
    o.quality.status.rank ≤ result.observation.quality.status.rank ∧
      o.accuracy.rank ≤ result.observation.accuracy.rank := by
  obtain ⟨encoded, -, -, rfl⟩ := buildOutput_spec ok
  have among : o.evidence ∈ args.inputs.map Observation.evidence := List.mem_map_of_mem mem
  exact ⟨(quality_le_propagate among).trans quality_le_outputEvidence,
    (accuracy_le_propagate among).trans accuracy_le_outputEvidence⟩

theorem buildOutput_explicit {quality : Quality} (ok : buildOutput digest args = .ok result)
    (given : args.quality = some quality) :
    quality.status.rank ≤ result.observation.quality.status.rank := by
  obtain ⟨encoded, -, -, rfl⟩ := buildOutput_spec ok
  change _ ≤ (outputEvidence args.quality _ encoded).quality.status.rank
  rw [given]
  exact explicit_le_outputEvidence

def normalize (raw : Observation) (definition : MetricDefinition) (context : EvaluationContext) :
    Except String Computation := do
  validateObservation digest raw definition
  let factor ← unitFactor raw.unit definition.unit
  let here : Window := ⟨raw.observedAt.toDateText, raw.observedAt.toDateText⟩
  let args : OutputArgs :=
    { anchor := raw, definition, inputs := [raw], value := none, context, window := here
      quality := none, derived := false, source := none, versions := none }
  match definition.kind, raw.value with
  | .counter, some (.scalar (.float64 _)) =>
    buildOutput digest { args with quality := some ⟨.invalid, .precisionLoss⟩ }
  | _, some value => do
    let decoded ← value.decode
    buildOutput digest { args with value := some (decoded * factor) }
  | _, none => buildOutput digest args

end Identified

end Slide.Metrics
