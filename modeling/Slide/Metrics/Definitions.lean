import Slide.Library.Binary64
import Slide.Library.JsString

/-!
# Metric identities and definitions

The vocabulary of `contracts/metrics/definitions.ts`.  A semantic version text is canonical
(`SEMVER` digits without leading zeros), so it is kept as its three numbers; a timestamp keeps its
text beside the instant `Date.parse` reads from it, in milliseconds since 1970.
-/

namespace Slide.Metrics

/-- `z.number()`: a double that is neither NaN nor infinite. -/
abbrev FiniteNumber := { x : Float // x.isFinite = true }

/-- `z.number().min(0).max(1)`. -/
abbrev UnitFraction := { x : Float // Binary64.ofInt 0 ≤ x ∧ x ≤ Binary64.ofInt 1 }

theorem zero_inside : Binary64.ofInt 0 ≤ Binary64.ofInt 0 ∧ Binary64.ofInt 0 ≤ Binary64.ofInt 1 := by decide

theorem one_inside : Binary64.ofInt 0 ≤ Binary64.ofInt 1 ∧ Binary64.ofInt 1 ≤ Binary64.ofInt 1 := by decide

structure Version where
  (major minor patch : Nat)
deriving DecidableEq

/-- A date text with what `Date.parse` makes of it; `none` is NaN. -/
structure DateText where
  text : String
  instant : Option Int
deriving DecidableEq

/-- A text `TimestampSchema` accepts, with its instant. -/
structure Timestamp where
  text : String
  ms : Int
deriving DecidableEq

def Timestamp.toDateText (t : Timestamp) : DateText := ⟨t.text, some t.ms⟩

/-- `toISOString` of an instant in the years 0 to 9999, through the civil date of its day. -/
def isoText (ms : Int) : String :=
  let digits (width : Nat) (n : Int) : String :=
    let text := (toString n.toNat).toList
    String.ofList (List.replicate (width - text.length) '0' ++ text)
  let time := ms % 86400000
  let day := ms / 86400000 + 719468
  let era := day / 146097
  let dayOfEra := day % 146097
  let yearOfEra := (dayOfEra - dayOfEra / 1460 + dayOfEra / 36524 - dayOfEra / 146096) / 365
  let dayOfYear := dayOfEra - (365 * yearOfEra + yearOfEra / 4 - yearOfEra / 100)
  let shifted := (5 * dayOfYear + 2) / 153
  let month := if shifted < 10 then shifted + 3 else shifted - 9
  let year := yearOfEra + era * 400 + if month ≤ 2 then 1 else 0
  digits 4 year ++ "-" ++ digits 2 month ++ "-" ++
    digits 2 (dayOfYear - (153 * shifted + 2) / 5 + 1) ++ "T" ++ digits 2 (time / 3600000) ++ ":" ++
    digits 2 (time / 60000 % 60) ++ ":" ++ digits 2 (time / 1000 % 60) ++ "." ++
    digits 3 (time % 1000) ++ "Z"

example : isoText 951827696789 = "2000-02-29T12:34:56.789Z" := by decide +kernel

def Timestamp.ofMs (ms : Int) : Timestamp := ⟨isoText ms, ms⟩

inductive ResourceType
  | databaseInstance | server | networkDevice
deriving DecidableEq

inductive MetricKind
  | gauge | counter | histogram | summary
deriving DecidableEq

inductive MetricUnit
  | one | bytes | seconds | milliseconds | percent | bitsPerSecond | bytesPerSecond | count
  | countPerSecond
deriving DecidableEq

inductive MetricScope
  | resource | database | filesystem | interface
deriving DecidableEq

inductive Temporality
  | instant | cumulative | delta
deriving DecidableEq

inductive ValueType
  | float64 | int64 | uint64 | histogram | summary
deriving DecidableEq

inductive TimeAggregation
  | last | min | max | mean | sum | rate | merge | quantile
deriving DecidableEq

inductive SpaceAggregation
  | none | sum | min | max | weightedMean | merge
deriving DecidableEq

inductive QuantilePolicy
  | notApplicable | fromMergedHistogram | nonMergeable
deriving DecidableEq

inductive Lifecycle
  | active | deprecated
deriving DecidableEq

structure DimensionKey where
  (name meaning : String)
  required : Bool
  allowedValues : Option (List String)
deriving DecidableEq

structure DimensionSchema where
  keys : List DimensionKey
  (maxSeriesPerResource maxValueLength : Nat)
deriving DecidableEq

structure AggregationPolicy where
  time : List TimeAggregation
  space : List SpaceAggregation
  minCoverage : UnitFraction
  quantiles : QuantilePolicy

inductive MetricCategory
  | canonical
  | extension (space : String)

/-- `MetricRefSchema`. -/
structure MetricRef where
  id : String
  semanticVersion : Version
deriving DecidableEq

/-- `MetricDefinitionSchema`, without `roles`, which no function here reads. -/
structure MetricDefinition where
  id : String
  semanticVersion : Version
  meaning : String
  unit : MetricUnit
  resourceType : ResourceType
  scope : MetricScope
  kind : MetricKind
  temporality : Temporality
  monotonic : Bool
  valueType : ValueType
  dimensions : DimensionSchema
  aggregation : AggregationPolicy
  lifecycle : Lifecycle
  replacementId : Option String
  category : MetricCategory

def MetricDefinition.ref (d : MetricDefinition) : MetricRef := ⟨d.id, d.semanticVersion⟩

/-- `Record<string, string>`: the entries in insertion order, no key twice. -/
structure Dimensions where
  entries : List (String × String)
  nodup : (entries.map Prod.fst).Nodup
deriving DecidableEq

/-- The entries in the order `stable` and `seriesKey` sort them. -/
def Dimensions.sorted (d : Dimensions) : List (String × String) :=
  d.entries.insertionSort fun left right => JsString.le left.1 right.1

end Slide.Metrics
