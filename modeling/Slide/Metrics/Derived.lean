import Slide.Library.Table
import Slide.Metrics.Counter
import Slide.Metrics.DerivedPlan

/-!
# Execution of derived metrics

`executeDerived` of `metrics/derived.ts`: it loads the inputs under their metrics and visits the
nodes of the plan, each after the nodes it depends on.  `evaluateNode` is the body of a visit; it
reads the values its node names and returns the output with the next state of a counter.
-/

namespace Slide.Metrics

structure DerivedTarget where
  source : ObservationSource
  versions : ObservationVersions

/-- `Omit<CounterOptions, 'context'>`. -/
structure CounterPolicy where
  maxGapMs : Int
  (maxIncrementPerSecond processingRevision : Option String)

structure DerivedExecution where
  /-- A valid observation that gives resource and dimensions when all inputs are absent. -/
  anchor : Observation
  context : EvaluationContext
  targets : Table String DerivedTarget
  counter : CounterPolicy
  counterBounds : Table SeriesKey String
  states : Table SeriesKey CounterState

structure DerivedResult where
  outputs : List Computation
  states : Table SeriesKey CounterState

/-- `node.inputs[0]`. -/
def DerivedMetric.first (n : DerivedMetric) : MetricRef := n.inputs.head n.someInput

/-- The checked target of a node. -/
def DerivedExecution.target (execution : DerivedExecution) (n : DerivedMetric) :
    Except String DerivedTarget :=
  match execution.targets.get n.id with
  | some target =>
    if target.versions.transformVersion = n.transformVersion then .ok target
    else .error "DERIVED_TARGET_VERSION"
  | none => .error "DERIVED_TARGET_VERSION"

/-! ## Rates -/

/-- What a consumer of a counter adds to the fingerprint. -/
def DerivedExecution.consumerText (execution : DerivedExecution) (n : DerivedMetric) :
    Except String String := do
  let target ← execution.target n
  pure (JsString.array ([n.id, n.output.id, n.output.semanticVersion.text, n.transformVersion.text,
    target.source.bindingId, target.source.metricBindingId, target.source.collectorId,
    target.versions.contract.text, target.versions.packageId, target.versions.packageVersion.text].map
      JsString.quote ++ [toString target.versions.configRevision]))

/-- The rate nodes over the counter of a node. -/
def consumers (nodes : List DerivedMetric) (node : DerivedMetric) : List DerivedMetric :=
  nodes.filter fun n => n.operation = .rate ∧ n.first = node.first

/-- The fingerprint that all consumers of one counter share. -/
def DerivedExecution.planRevision (execution : DerivedExecution) (nodes : List DerivedMetric)
    (node : DerivedMetric) : Except String String := do
  let texts ← (consumers nodes node).mapM execution.consumerText
  pure (JsString.array [JsString.quote (execution.counter.processingRevision.getD ""),
    JsString.array ((texts.insertionSort JsString.le).map JsString.quote)])

/-- The counter options for a series under a processing revision. -/
def DerivedExecution.counterOptions (execution : DerivedExecution) (key : SeriesKey)
    (revision : String) : CounterOptions where
  context := execution.context
  maxGapMs := execution.counter.maxGapMs
  maxIncrementPerSecond :=
    (execution.counterBounds.get key).orElse fun _ => execution.counter.maxIncrementPerSecond
  processingRevision := some revision

/-! ## Arithmetic nodes -/

/-- `Date.parse(a) === Date.parse(b)`. -/
def DateText.same (a b : DateText) : Prop := ∃ ms ∈ a.instant, b.instant = some ms

instance : DecidableRel DateText.same := fun a b =>
  inferInstanceAs (Decidable (∃ ms ∈ a.instant, b.instant = some ms))

/-- The largest less the smallest of some times. -/
def skew (times : List Int) : Int := times.max?.getD 0 - times.min?.getD 0

/-- Whether a window is an interval. -/
def Computation.spans (c : Computation) : Prop := ¬ c.window.start.same c.window.stop

instance : DecidablePred Computation.spans := fun _ => inferInstanceAs (Decidable (¬ _))

/-- Whether one of the inputs has another window than the first interval among them. -/
def windowsDiffer (present : List Computation) : Prop :=
  ∃ first ∈ present.find? fun c => c.spans, ∃ c ∈ present,
    ¬ c.window.start.same first.window.start ∨ ¬ c.window.stop.same first.window.stop

instance (present : List Computation) : Decidable (windowsDiffer present) :=
  inferInstanceAs (Decidable (∃ first ∈ present.find? _, ∃ c ∈ present, _ ∨ _))

/-- The operation on the numbers of the inputs; a plan has as many as the operation reads. -/
def DerivedMetric.calculate (n : DerivedMetric) (d : MetricDefinition) (numbers : List Rational) :
    Except String (Option Quality × Option Rational) :=
  match n.operation, numbers with
  | .sum, numbers => .ok (none, some (numbers.foldl (· + ·) 0))
  | .difference, a :: b :: _ => .ok (none, some (a - b))
  | .scale, a :: _ =>
    match n.factor with
    | some factor => .ok (none, some (a * numberValue factor))
    | none => .error "TypeError"
  | .ratio, a :: b :: _ =>
    if b = 0 then .ok (some ⟨.unknown, .invalidDenominator⟩, none)
    else .ok (none, some (a / b * if d.unit = .percent then 100 else 1))
  | .rate, _ => .ok (none, none)
  | _, _ => .error "TypeError"

/-- The quality and the value of a node that is no rate of a present counter. -/
def DerivedMetric.combine (n : DerivedMetric) (d : MetricDefinition)
    (args : List (Option Computation)) : Except String (Option Quality × Option Rational) :=
  let present := args.reduceOption
  if none ∈ args then .ok (some ⟨.unknown, .missingInput⟩, none)
  else if n.maxSkewMs < skew (present.map fun c => c.observation.observedAt.ms) then
    .ok (some ⟨.unknown, .clockSkew⟩, none)
  else if windowsDiffer present then .ok (some ⟨.unknown, .gap⟩, none)
  else match present.mapM fun c => c.observation.value with
    | some values => do
      let numbers ← values.mapM MetricValue.decode
      n.calculate d numbers
    | none => .ok (none, none)

/-- The window of an output: from the earliest start to the latest observation. -/
def coveringWindow (anchor : Observation) (present : List Computation) : Except String Window :=
  if present = [] then .ok ⟨anchor.observedAt.toDateText, anchor.observedAt.toDateText⟩
  else match present.mapM fun c => c.window.start.instant with
    | some starts => .ok ⟨(Timestamp.ofMs (starts.min?.getD 0)).toDateText,
        (latest Observation.observedAt (present.map Computation.observation)).toDateText⟩
    | none => .error "RangeError"

/-! ## Inheritance -/

/-- Adds a provenance, in the place of one with the same reference. -/
def addProvenance (all : List InputProvenance) (p : InputProvenance) : List InputProvenance :=
  if ∃ q ∈ all, q.id = p.id ∧ q.stage = p.stage then
    all.map fun q => if q.id = p.id ∧ q.stage = p.stage then p else q
  else all ++ [p]

/-- The freshness of an output after the ages of its inputs. -/
def inheritFreshness (own : Freshness) (ages : List Freshness) : Freshness :=
  if .unknown ∈ ages then .unknown
  else if own ≠ .unknown ∧ .stale ∈ ages then .stale
  else own

/-- The ages of the inputs: their own and those of the starts of their windows. -/
def inputAges (context : EvaluationContext) (present : List Computation) : List Freshness :=
  present.flatMap fun c =>
    [c.freshness, freshness (some c.window.start) context.now context.staleAfterMs]

/-- An output with the freshness and the provenance of its inputs. -/
def Computation.inherit (result : Computation) (context : EvaluationContext)
    (present : List Computation) : Computation :=
  { result with
    freshness := inheritFreshness result.freshness (inputAges context present)
    inputProvenance := (result.inputProvenance ++
      present.flatMap Computation.inputProvenance).foldl addProvenance [] }

/-! ## `visit` -/

/-- What a visit adds: an output and, for a rate, the next state of its counter. -/
structure NodeResult where
  output : Computation
  state : Option (SeriesKey × CounterState)

section Identified

variable (digest : IdentityPreimage → String) (nodes : List DerivedMetric)
  (definitions : List MetricDefinition) (execution : DerivedExecution)

variable (inputs : List Computation) (node : DerivedMetric) (d : MetricDefinition)

/-- The transition of a counter that a rate node makes, from the state before the execution. -/
def rateTransition (input : Observation) :
    Except String CounterTransition := do
  let revision ← execution.planRevision nodes node
  let counter ← lookup node.first definitions
  processCounter digest input counter d .rate (execution.states.get input.series)
    (execution.counterOptions input.series revision)

/-- The branch of a rate whose counter is present. -/
def rateResult (target : DerivedTarget)
    (input : Observation) : Except String NodeResult := do
  let transition ← rateTransition digest nodes definitions execution node d input
  let observation := Observation.identified digest
    { transition.output.observation with source := target.source, versions := target.versions }
  validateObservation digest observation d
  pure ⟨{ transition.output with observation }, transition.state.map fun s => (input.series, s)⟩

/-- The branch of all other nodes. -/
def arithmeticResult (target : DerivedTarget)
    (args : List (Option Computation)) : Except String NodeResult := do
  let present := args.reduceOption
  let observations := present.map Computation.observation
  let anchor := observations.head?.getD execution.anchor
  let (quality, value) ← node.combine d args
  let window ← coveringWindow anchor present
  let output ← buildOutput digest
    { anchor, definition := d, inputs := if observations = [] then [anchor] else observations
      value, context := execution.context, window, quality, derived := true
      source := some target.source, versions := some target.versions }
  pure ⟨output, none⟩

/-- The branches of `visit`. -/
def nodeResult (target : DerivedTarget)
    (values : MetricRef → Option Computation) : Except String NodeResult :=
  match node.operation, values node.first with
  | .rate, some input =>
    rateResult digest nodes definitions execution node d target input.observation
  | _, _ => arithmeticResult digest execution node d target (node.inputs.map values)

/-- The body of `visit`, after the dependencies. -/
def evaluateNode (values : MetricRef → Option Computation) :
    Except String NodeResult := do
  let target ← execution.target node
  let d ← lookup node.output definitions
  node.inputs.forM fun ref => do
    let input ← lookup ref definitions
    requireRule (input.valueType.isScalar = true) "SCALAR_REQUIRED"
  let result ← nodeResult digest nodes definitions execution node d target values
  let present := (node.inputs.map values).reduceOption
  pure { result with output := result.output.inherit execution.context present }

/-! ## `executeDerived` -/

/-- `values`, `results` and `states` during the visits. -/
structure DerivedProgress where
  values : Table MetricRef Computation
  results : List Computation
  states : Table SeriesKey CounterState

/-- The state after the visit of a node. -/
def DerivedProgress.add (p : DerivedProgress) (node : DerivedMetric) (result : NodeResult) :
    DerivedProgress where
  values := p.values.put node.output result.output
  results := p.results ++ [result.output]
  states := match result.state with
    | some (key, state) => p.states.put key state
    | none => p.states

/-- The nodes, each with those whose outputs are among its inputs. -/
def nodeGraph : Dag.Graph DerivedMetric String where
  name := DerivedMetric.id
  deps n := n.inputs.filterMap fun ref => nodes.find? fun m => m.output = ref

def derivedVisitor : Dag.Visitor DerivedMetric DerivedProgress String where
  enter _ _ := .ok ()
  act node p := do
    let result ← evaluateNode digest nodes definitions execution node p.values.get
    pure (p.add node result)

def sameScope (a b : Observation) : Prop := Observation.series { a with metric := b.metric } = b.series

instance : DecidableRel sameScope := fun _ _ => inferInstanceAs (Decidable (_ = _))

/-- The check on the window of an input. -/
def Computation.windowValid (c : Computation) : Prop :=
  ∃ start ∈ c.window.start.instant, ∃ stop ∈ c.window.stop.instant,
    start ≤ stop ∧ stop = c.observation.observedAt.ms

instance : DecidablePred Computation.windowValid := fun _ =>
  inferInstanceAs (Decidable (∃ start ∈ _, ∃ stop ∈ _, _ ∧ _))

/-- One round of the loop over the inputs. -/
def loadInput (values : Table MetricRef Computation) (input : Computation) :
    Except String (Table MetricRef Computation) := do
  let d ← lookup input.observation.metric definitions
  validateObservation digest input.observation d
  requireRule (sameScope input.observation execution.anchor) "DERIVED_JOIN"
  requireRule (values.get input.observation.metric = none ∧
    input.observation.metric ∉ nodes.map DerivedMetric.output) "DUPLICATE_SOURCE"
  requireRule input.windowValid "INPUT_WINDOW"
  pure (values.put input.observation.metric input)

def loadInputs : Except String (Table MetricRef Computation) :=
  inputs.foldlM (loadInput digest nodes definitions execution) Table.empty

/-- The checks and the loop over the inputs, up to the first visit. -/
def prepareDerived :
    Except (Halt String) (Table MetricRef Computation) := do
  requireRule (nodes.length ≤ 256 ∧ (nodes.map fun n => n.inputs.length).sum ≤ 1024) "DAG_LIMIT"
  validateCatalog definitions
  validateDerived nodes definitions
  requireRule (∀ n ∈ nodes, n.inputs.Nodup) "DUPLICATE_DEPENDENCY"
  let d ← lookup execution.anchor.metric definitions
  validateObservation digest execution.anchor d
  loadInputs digest nodes definitions execution inputs

/-- `executeDerived` with the order in which it visited the nodes, the last one first. -/
def visitDerived :
    Except (Halt String) (Dag.Progress DerivedMetric DerivedProgress) := do
  let values ← prepareDerived digest nodes definitions execution inputs
  Dag.walk (nodeGraph nodes) (derivedVisitor digest nodes definitions execution)
    (nodes.length + 1) nodes ⟨values, [], execution.states⟩

def executeDerived : Except (Halt String) DerivedResult := do
  let p ← visitDerived digest nodes definitions execution inputs
  pure ⟨p.state.results, p.state.states⟩

end Identified

end Slide.Metrics
