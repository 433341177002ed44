import Slide.Metrics.Arithmetic

/-!
# Baseline windows

`BaselineInput` and `BaselineSourceWindow` of `baselines/source-adapter.ts`, and how the calculator reads
their buckets.  Numbers are exact: a rational, or `none` where the source allows `null` or a number that is
not finite.  An instant is what `Date.parse` makes of a text, `none` being NaN; every comparison with NaN is
false.
-/

namespace Slide.Baselines

open Metrics

def hour : Int := 3600000

def day : Int := 24 * hour

inductive Mode
  | daily | weekly

/-- The days of a window. -/
def Mode.days : Mode → Nat
  | .daily => 14
  | .weekly => 28

def Mode.expected (mode : Mode) : Nat := mode.days * 24

/-- The reference slots of a mode. -/
def Mode.slots : Mode → Nat
  | .daily => 24
  | .weekly => 168

/-- The training days each slot has to be seen on. -/
def Mode.repeats : Mode → Nat
  | .daily => 7
  | .weekly => 3

inductive ThresholdOperator
  | above | below

structure StaticThreshold where
  operator : ThresholdOperator
  value : ℚ

/-- `BaselineInput`, without the series it names, which the calculator does not read. -/
structure BaselineInput where
  mode : Mode
  staticThreshold : Option StaticThreshold

/-- `SemanticBucket`, as far as a baseline reads it; `start` and `stop` are its window's instants, and a
coverage that is not finite is `none`. -/
structure Bucket where
  (start stop : Option Int)
  value : Option MetricValue
  accuracy : Accuracy
  quality : Quality
  coverage : Option ℚ
  sampleCount : Nat

structure Latest where
  value : Option ℚ
  observedAt : Option String

/-- `BaselineSourceWindow`, without `intervalMs` and `maxGapMs`, which the calculator does not read. -/
structure BaselineSourceWindow (Identity : Type) where
  identity : Option Identity
  (from_ until_ evaluatedAt validUntil : DateText)
  buckets : List Bucket
  reason : Option String
  latest : Latest
  fence : String

/-! ## Dates -/

/-- A number in decimal with leading zeros. -/
def digits (width : Nat) (n : Int) : List Char :=
  let text := (toString n.toNat).toList
  List.replicate (width - text.length) '0' ++ text

/-- The civil year, month and day of the month of a day since 1970. -/
def civil (since : Int) : Int × Int × Int :=
  let shifted := since + 719468
  let era := shifted / 146097
  let dayOfEra := shifted % 146097
  let yearOfEra := (dayOfEra - dayOfEra / 1460 + dayOfEra / 36524 - dayOfEra / 146096) / 365
  let dayOfYear := dayOfEra - (365 * yearOfEra + yearOfEra / 4 - yearOfEra / 100)
  let fifth := (5 * dayOfYear + 2) / 153
  let month := if fifth < 10 then fifth + 3 else fifth - 9
  (yearOfEra + era * 400 + (if month ≤ 2 then 1 else 0), month, dayOfYear - (153 * fifth + 2) / 5 + 1)

/-- The year of a date text: four digits, or a sign and six digits. -/
def yearText (year : Int) : List Char :=
  if 0 ≤ year ∧ year ≤ 9999 then digits 4 year
  else (if year < 0 then '-' else '+') :: digits 6 year.natAbs

/-- The text before the `T` of `toISOString`, on a day since 1970. -/
def dateText (since : Int) : List Char :=
  yearText (civil since).1 ++ '-' :: digits 2 (civil since).2.1 ++ '-' :: digits 2 (civil since).2.2

/-- The characters `toISOString` writes. -/
def isoCharacters (ms : Int) : List Char :=
  dateText (ms / day) ++ 'T' :: digits 2 (ms % day / hour) ++ ':' :: digits 2 (ms / 60000 % 60) ++
    ':' :: digits 2 (ms / 1000 % 60) ++ '.' :: digits 3 (ms % 1000) ++ ['Z']

example : isoCharacters 951827696789 = "2000-02-29T12:34:56.789Z".toList := by decide +kernel

/-- `new Date(at).toISOString()`, which throws on a date out of range. -/
def toISOString (ms : Int) : Except String String :=
  if ms.natAbs ≤ 8640000000000000 then .ok (String.ofList (isoCharacters ms)) else .error "RangeError"

/-- `new Date(at).toISOString().slice(0, 10)`. -/
def utcDate (ms : Int) : List Char := (isoCharacters ms).take 10

/-- `slot`: the UTC hour, of the day or of the week. -/
def slot (ms : Int) (mode : Mode) : Nat :=
  (ms / hour % 24 + match mode with
    | .daily => 0
    | .weekly => (ms / day + 4) % 7 * 24).toNat

/-- `a > b` on instants. -/
def exceeds : Option Int → Option Int → Bool
  | some a, some b => b < a
  | _, _ => false

/-! ## Buckets -/

def scalarNumber : Option MetricValue → Option ℚ
  | some (.scalar (.float64 value)) => some (numberValue value)
  | some (.scalar (.int64 value)) => safeInteger value
  | some (.scalar (.uint64 value)) => safeInteger value
  | some (.histogram _) | some (.summary _) | none => none
where
  safeInteger (value : Int) : Option ℚ := if value.natAbs < 2 ^ 53 then some value else none

/-- An acceptable bucket, as the calculator keeps it. -/
structure Row where
  start : Int
  (value coverage : ℚ)
  samples : Nat

/-- The row of a bucket that is acceptable. -/
def Bucket.row (b : Bucket) (start : Int) : Option Row :=
  match scalarNumber b.value, b.coverage with
  | some value, some coverage =>
    if b.accuracy = .exact ∧
        (b.quality.status = .good ∨ b.quality.status = .partly ∧ b.quality.reason = .gap) ∧
        9 / 10 ≤ coverage ∧ coverage ≤ 1 then some ⟨start, value, coverage, b.sampleCount⟩
    else none
  | _, _ => none

/-- The loop over the buckets; `none` is its return with `bucket_window`, and `seen` the hours met. -/
def readBuckets (first last : Int) : List Int → List Bucket → Option (List Row)
  | _, [] => some []
  | seen, b :: rest =>
    match b.start, b.stop with
    | some start, some stop =>
      if start < first ∨ last < stop ∨ start % hour ≠ 0 ∨ stop - start ≠ hour ∨ start ∈ seen then none
      else (readBuckets first last (start :: seen) rest).map ((b.row start).toList ++ ·)
    | _, _ => none

/-- The rows of a source's acceptable buckets. -/
def BaselineSourceWindow.rows {Identity : Type} (source : BaselineSourceWindow Identity) : List Row :=
  source.buckets.filterMap fun b => b.start.bind b.row

/-- A bucket of one whole hour within the window. -/
def Bucket.InWindow (first last : Int) (b : Bucket) : Prop :=
  ∃ start stop, b.start = some start ∧ b.stop = some stop ∧ first ≤ start ∧ stop ≤ last ∧
    start % hour = 0 ∧ stop - start = hour

theorem Bucket.row_start {b : Bucket} {start : Int} {row : Row} (kept : b.row start = some row) :
    row.start = start := by
  unfold Bucket.row at kept
  split at kept
  next =>
    split at kept
    · cases kept
      rfl
    · cases kept
  next => cases kept

theorem readBuckets_eq_some {first last : Int} {seen : List Int} {buckets : List Bucket}
    {rows : List Row} (read : readBuckets first last seen buckets = some rows) :
    rows = buckets.filterMap (fun b => b.start.bind b.row) ∧
      (∀ b ∈ buckets, b.InWindow first last ∧ ∀ start, b.start = some start → start ∉ seen) ∧
      buckets.Pairwise fun b c => b.start ≠ c.start := by
  induction buckets generalizing seen rows with
  | nil =>
    cases read
    exact ⟨rfl, fun b mem => (List.not_mem_nil mem).elim, .nil⟩
  | cons b rest ih =>
    unfold readBuckets at read
    split at read
    next start stop started stopped =>
      split at read
      · cases read
      · rename_i placed
        obtain ⟨kept, later, rfl⟩ := Option.map_eq_some_iff.mp read
        obtain ⟨rfl, inside, apart⟩ := ih later
        have within : b.InWindow first last :=
          ⟨start, stop, started, stopped, by omega, by omega, by omega, by omega⟩
        refine ⟨?_, ?_, List.pairwise_cons.mpr ⟨fun c mem same => ?_, apart⟩⟩
        · rw [List.filterMap_cons, started, Option.bind_some]
          cases b.row start with
          | none => rfl
          | some row => rfl
        · intro c mem
          rcases List.mem_cons.mp mem with rfl | mem
          · refine ⟨within, fun other same => ?_⟩
            rw [started] at same
            cases same
            tauto
          · obtain ⟨inside, fresh⟩ := inside c mem
            exact ⟨inside, fun other same old => fresh other same (List.mem_cons_of_mem _ old)⟩
        · rw [started] at same
          exact (inside c mem).2 start same.symm List.mem_cons_self
    next => cases read

/-! ## The date of a day -/

theorem le_length_digits (width : Nat) (n : Int) : width ≤ (digits width n).length := by
  unfold digits
  rw [List.length_append, List.length_replicate]
  omega

theorem le_length_dateText (since : Int) : 10 ≤ (dateText since).length := by
  have year : 4 ≤ (yearText (civil since).1).length := by
    unfold yearText
    split
    · exact le_length_digits 4 _
    · have := le_length_digits 6 ((civil since).1.natAbs : Int)
      rw [List.length_cons]
      omega
  have month := le_length_digits 2 (civil since).2.1
  have dayOfMonth := le_length_digits 2 (civil since).2.2
  simp only [dateText, List.length_append, List.length_cons]
  omega

theorem utcDate_eq (ms : Int) : utcDate ms = (dateText (ms / day)).take 10 := by
  unfold utcDate isoCharacters
  simp only [List.append_assoc]
  exact List.take_append_of_le_length (le_length_dateText _)

end Slide.Baselines
