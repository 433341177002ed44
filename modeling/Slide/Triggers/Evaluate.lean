import Slide.Library.Decimal
import Slide.Library.GroupBy
import Slide.Library.Kleene
import Slide.Metrics.Arithmetic
import Slide.Triggers.Contract

/-!
# Trigger evaluation

`metrics/triggers/evaluate.ts`: one rule of one snapshot against the samples of one request.  An
untrusted member of a request is kept as what the code reads of it, beside the value its schema
parses it to.

`selectValue` remembers the answer of each selector in a cache that `matchesExpression` threads
through both expressions of a series; `matchesExpression_truth` says that the verdict is the strong
Kleene value of the expression under the uncached selectors.
-/

namespace Slide.Triggers

open Metrics

inductive TriggerEvaluationReason
  | notApplied | invalidInput | ruleNotFound | nodata | missingInput | stale | clockSkew
  | metricMismatch | semanticVersionMismatch | unitMismatch | insufficientEvidence | gap
  | seriesBudgetExceeded | problem | problemRetained | recovered | healthy
deriving DecidableEq

inductive TriggerBusinessState
  | problem | healthy | unknown
deriving DecidableEq

inductive TriggerEvidenceQuality
  | good | partly | unknown
deriving DecidableEq

/-- `TriggerEvaluationInputSchema`. -/
structure TriggerEvaluationInput where
  now : Timestamp
  lastSeenAt : Option Timestamp
  previous : Option TriggerBusinessState
  samples : List TriggerSample

/-- The untrusted `input` of a request: its `now` when that is a string, whether its `previous` is
`'problem'`, and what the schema parses it to. -/
structure RawInput where
  now : Option DateText
  previousIsProblem : Bool
  parsed : Option TriggerEvaluationInput
  now_parsed : ∀ input ∈ parsed, now = some input.now.toDateText
  previous_parsed : ∀ input ∈ parsed, previousIsProblem = (input.previous == some .problem)

structure TriggerEvaluationRequest where
  input : RawInput
  applied : Option TriggerAppliedEvidence

/-- The part of a result that the verdict decides. -/
structure Outcome where
  business : TriggerBusinessState
  quality : TriggerEvidenceQuality
  (problemOpen recovery nodata : Bool)
  reason : TriggerEvaluationReason
  value : Option FiniteNumber
  dimensions : Option Dimensions
  seriesCount : Nat

structure TriggerEvaluationResult extends Outcome where
  ruleId : String
  ruleVersion : Nat
  scope : String
  item : TriggerItemIdentity
  metric : MetricRef
  evaluatedAt : DateText

/-! ## Selectors -/

structure EvaluationContext where
  now : Int
  quality : TriggerQualityPolicy
  clock : TriggerClockPolicy
  series : List TriggerSample

/-- A value, or the reason the evidence is unusable. -/
abbrev Selected := Except TriggerEvaluationReason Rational

abbrev Verdict := Except TriggerEvaluationReason Bool

def WindowAggregation.text : WindowAggregation → String
  | .avg => "avg"
  | .min => "min"
  | .max => "max"

def TriggerSelector.cacheKey : TriggerSelector → String
  | .last => "last"
  | .windowed aggregation windowMs => aggregation.text ++ ":" ++ toString windowMs

abbrev SelectorCache := List (String × Selected)

/-- `gate`: the reason a sample's own evidence is not acceptable. -/
def gate (sample : TriggerSample) (quality : TriggerQualityPolicy) :
    Option TriggerEvaluationReason :=
  if sample.quality.status ∉ quality.acceptedQuality then some .insufficientEvidence
  else if sample.accuracy = .unknown then some .insufficientEvidence
  else if sample.accuracy = .estimated ∧ ¬ quality.allowEstimated then some .insufficientEvidence
  else if sample.coverage.val < quality.minCoverage.val then some .insufficientEvidence
  else none

/-- The newest sample; the earliest in the list among equally new ones. -/
def newest (first : TriggerSample) (rest : List TriggerSample) : TriggerSample :=
  rest.foldl
    (fun left right => if left.observedAt.ms < right.observedAt.ms then right else left) first

def selectLast (context : EvaluationContext) : Selected :=
  match context.series with
  | [] => .error .missingInput
  | first :: rest =>
    let newest := newest first rest
    if context.clock.staleAfterMs ≤ context.now - newest.observedAt.ms then .error .stale
    else match gate newest context.quality with
      | some reason => .error reason
      | none => .ok newest.value.decode

/-- The walk over the sample windows: each is nonempty, ends by `now` and starts where the one
before it ended.  The result is the covered time. -/
def coveredMs (now : Int) : Option Int → List SampleWindow → Option Int
  | _, [] => some 0
  | cursor, window :: rest =>
    if window.stop.ms ≤ window.start.ms ∨ now < window.stop.ms then none
    else if cursor.any (· ≠ window.start.ms) then none
    else (coveredMs now (some window.stop.ms) rest).map (window.stop.ms - window.start.ms + ·)

/-- The aggregated value of a window. -/
def aggregateValues (aggregation : WindowAggregation) (first : Rational) (rest : List Rational) :
    Rational :=
  match aggregation with
  | .min => rest.foldl (fun left right => if right < left then right else left) first
  | .max => rest.foldl (fun left right => if left < right then right else left) first
  | .avg => (first :: rest).foldl (· + ·) 0 / (rest.length + 1 : Nat)

def selectWindow (aggregation : WindowAggregation) (windowMs : Nat) (context : EvaluationContext) :
    Selected :=
  let start := context.now - windowMs
  let inWindow := (context.series.filter fun sample =>
    sample.observedAt.ms ≤ context.now ∧ start < sample.observedAt.ms).insertionSort
      fun left right => left.observedAt.ms ≤ right.observedAt.ms
  match inWindow, inWindow.mapM TriggerSample.window with
  | [], _ => .error .missingInput
  | _, none | _, some [] => .error .gap
  | first :: rest, some (window :: windows) =>
    match coveredMs context.now none (window :: windows) with
    | none => .error .gap
    | some covered =>
      let last := ((window :: windows).getLast nofun).stop.ms
      if window.start.ms < start then .error .gap
      else if Binary64.ofInt covered / Binary64.ofInt windowMs < context.quality.minCoverage.val then
        .error .insufficientEvidence
      else if context.clock.staleAfterMs < context.now - last then .error .stale
      else match (first :: rest).findSome? (gate · context.quality) with
        | some reason => .error reason
        | none =>
          .ok (aggregateValues aggregation first.value.decode (rest.map (·.value.decode)))

def selectValueUncached (selector : TriggerSelector) (context : EvaluationContext) : Selected :=
  match selector with
  | .last => selectLast context
  | .windowed aggregation windowMs =>
    match context.series with
    | [] => .error .missingInput
    | _ :: _ => selectWindow aggregation windowMs context

def selectValue (selector : TriggerSelector) (context : EvaluationContext)
    (cache : SelectorCache) : Selected × SelectorCache :=
  match cache.lookup selector.cacheKey with
  | some cached => (cached, cache)
  | none =>
    let result := selectValueUncached selector context
    (result, (selector.cacheKey, result) :: cache)

/-! ## Expressions -/

def TriggerOperator.holds (operator : TriggerOperator) (value threshold : Rational) : Bool :=
  match operator with
  | .gt => threshold < value
  | .ge => threshold ≤ value
  | .lt => value < threshold
  | .le => value ≤ threshold
  | .eq => value = threshold
  | .ne => value ≠ threshold

/-- The loop over the verdicts of a group's children. -/
def combine (node : GroupNode) (unknown : Option TriggerEvaluationReason) : List Verdict → Verdict
  | [] =>
    match unknown with
    | some reason => .error reason
    | none => .ok (node = .all)
  | .ok value :: rest =>
    if node = .all ∧ value = false then .ok value
    else if node = .any ∧ value = true then .ok value
    else combine node unknown rest
  | .error reason :: rest => combine node (unknown.or (some reason)) rest

mutual

/-- `matches`: every child is evaluated, in order, before the group decides. -/
def matchesExpression (context : EvaluationContext) :
    ResolvedTriggerExpression → SelectorCache → Verdict × SelectorCache
  | .compare select operator threshold, cache =>
    let (selected, cache) := selectValue select context cache
    (selected.map fun value => operator.holds value (numberValue threshold), cache)
  | .group node children, cache =>
    let (verdicts, cache) := matchesChildren context children cache
    (combine node none verdicts, cache)

def matchesChildren (context : EvaluationContext) :
    List ResolvedTriggerExpression → SelectorCache → List Verdict × SelectorCache
  | [], cache => ([], cache)
  | child :: rest, cache =>
    let (verdict, cache) := matchesExpression context child cache
    let (verdicts, cache) := matchesChildren context rest cache
    (verdict :: verdicts, cache)

end

mutual

/-- The meaning of an expression: its strong Kleene value under the selectors of a context. -/
def ResolvedTriggerExpression.truth (context : EvaluationContext) :
    ResolvedTriggerExpression → Option Bool
  | .compare select operator threshold =>
    (selectValueUncached select context).toOption.map (operator.holds · (numberValue threshold))
  | .group .all children => Kleene.all (ResolvedTriggerExpression.truths context children)
  | .group .any children => Kleene.any (ResolvedTriggerExpression.truths context children)

def ResolvedTriggerExpression.truths (context : EvaluationContext) :
    List ResolvedTriggerExpression → List (Option Bool)
  | [] => []
  | child :: rest =>
    ResolvedTriggerExpression.truth context child :: ResolvedTriggerExpression.truths context rest

end

/-! ## The verdict of an expression -/

section Verdicts

variable {context : EvaluationContext} {cache : SelectorCache}

theorem combine_all_truth (unknown : Option TriggerEvaluationReason) (verdicts : List Verdict) :
    (combine .all unknown verdicts).toOption =
      Kleene.all (unknown.toList.map (fun _ => none) ++ verdicts.map Except.toOption) := by
  induction verdicts generalizing unknown with
  | nil => cases unknown <;> rfl
  | cons verdict rest ih =>
    cases verdict with
    | error reason =>
      rw [combine, ih]
      refine Kleene.all_congr ?_ ?_ <;> cases unknown <;> simp [Except.toOption]
    | ok value =>
      cases value with
      | false =>
        refine (Kleene.all_eq_some_false.mpr ?_).symm
        exact List.mem_append_right _ List.mem_cons_self
      | true =>
        change (combine .all unknown rest).toOption = _
        rw [ih]
        refine Kleene.all_congr ?_ ?_ <;> simp [Except.toOption]

theorem combine_any_truth (unknown : Option TriggerEvaluationReason) (verdicts : List Verdict) :
    (combine .any unknown verdicts).toOption =
      Kleene.any (unknown.toList.map (fun _ => none) ++ verdicts.map Except.toOption) := by
  induction verdicts generalizing unknown with
  | nil => cases unknown <;> rfl
  | cons verdict rest ih =>
    cases verdict with
    | error reason =>
      rw [combine, ih]
      refine Kleene.any_congr ?_ ?_ <;> cases unknown <;> simp [Except.toOption]
    | ok value =>
      cases value with
      | true =>
        refine (Kleene.any_eq_some_true.mpr ?_).symm
        exact List.mem_append_right _ List.mem_cons_self
      | false =>
        change (combine .any unknown rest).toOption = _
        rw [ih]
        refine Kleene.any_congr ?_ ?_ <;> simp [Except.toOption]

theorem WindowAggregation.text_length (aggregation : WindowAggregation) :
    aggregation.text.length = 3 := by
  cases aggregation <;> rfl

theorem TriggerSelector.cacheKey_injective : Function.Injective TriggerSelector.cacheKey := by
  intro selector other same
  have chars := congrArg String.toList same
  cases selector with
  | last =>
    cases other with
    | last => rfl
    | windowed aggregation => cases aggregation <;> simp [cacheKey, WindowAggregation.text] at chars
  | windowed aggregation windowMs =>
    cases other with
    | last => cases aggregation <;> simp [cacheKey, WindowAggregation.text] at chars
    | windowed aggregation' windowMs' =>
      simp only [cacheKey, String.toList_append, List.append_assoc] at chars
      obtain ⟨texts, rest⟩ := List.append_inj chars
        (by simp only [String.length_toList, WindowAggregation.text_length])
      obtain rfl : aggregation = aggregation' := by
        cases aggregation <;> cases aggregation' <;> first | rfl | cases texts
      have decimals := String.toList_inj.mp (List.append_cancel_left rest)
      rw [Nat.repr_injective decimals]

/-- The cache holds nothing but answers of the uncached selector. -/
def CacheCoherent (context : EvaluationContext) (cache : SelectorCache) : Prop :=
  ∀ selector result, cache.lookup selector.cacheKey = some result →
    result = selectValueUncached selector context

theorem cacheCoherent_nil : CacheCoherent context [] := fun _ _ found => by cases found

theorem selectValue_eq (selector : TriggerSelector) (coherent : CacheCoherent context cache) :
    (selectValue selector context cache).1 = selectValueUncached selector context ∧
      CacheCoherent context (selectValue selector context cache).2 := by
  unfold selectValue
  split
  next cached found => exact ⟨coherent selector cached found, coherent⟩
  next =>
    refine ⟨rfl, fun other result found => ?_⟩
    rw [List.lookup_cons] at found
    split at found
    next same =>
      obtain rfl : other = selector := TriggerSelector.cacheKey_injective (beq_iff_eq.mp same)
      exact (some.inj found).symm
    next => exact coherent other result found

theorem toOption_map (selected : Selected) (f : Rational → Bool) :
    (selected.map f).toOption = selected.toOption.map f := by
  cases selected <;> rfl

mutual

theorem matchesExpression_truth : (expression : ResolvedTriggerExpression) →
    (cache : SelectorCache) → CacheCoherent context cache →
      (matchesExpression context expression cache).1.toOption = expression.truth context ∧
        CacheCoherent context (matchesExpression context expression cache).2
  | .compare select operator threshold, cache, coherent => by
    obtain ⟨value, kept⟩ := selectValue_eq select coherent
    refine ⟨?_, kept⟩
    simp only [matchesExpression, toOption_map, value, ResolvedTriggerExpression.truth]
  | .group .all children, cache, coherent => by
    obtain ⟨values, kept⟩ := matchesChildren_truths children cache coherent
    refine ⟨?_, kept⟩
    simp only [matchesExpression, combine_all_truth, values, ResolvedTriggerExpression.truth]
    rfl
  | .group .any children, cache, coherent => by
    obtain ⟨values, kept⟩ := matchesChildren_truths children cache coherent
    refine ⟨?_, kept⟩
    simp only [matchesExpression, combine_any_truth, values, ResolvedTriggerExpression.truth]
    rfl

theorem matchesChildren_truths : (children : List ResolvedTriggerExpression) →
    (cache : SelectorCache) → CacheCoherent context cache →
      (matchesChildren context children cache).1.map Except.toOption =
          ResolvedTriggerExpression.truths context children ∧
        CacheCoherent context (matchesChildren context children cache).2
  | [], _, coherent => ⟨rfl, coherent⟩
  | child :: rest, cache, coherent => by
    obtain ⟨value, kept⟩ := matchesExpression_truth child cache coherent
    obtain ⟨values, last⟩ := matchesChildren_truths rest _ kept
    refine ⟨?_, last⟩
    simp only [matchesChildren, List.map_cons, value, values, ResolvedTriggerExpression.truths]

end

end Verdicts

/-! ## One rule -/

/-- `seriesKey`: the sorted dimension entries as JSON text. -/
def seriesKey (dimensions : Dimensions) : String :=
  let entry := fun (name, value) => "[" ++ JsString.quote name ++ "," ++ JsString.quote value ++ "]"
  "[" ++ String.intercalate "," (dimensions.sorted.map entry) ++ "]"

def toNumber (value : Rational) : Option FiniteNumber :=
  match (encodeFloat value).value with
  | some (.float64 number) => some number
  | _ => none

/-- `unresolved`: the conservative outcome of an evaluation without a verdict. -/
def unresolved (reason : TriggerEvaluationReason) (problemOpen : Bool) : Outcome where
  business := .unknown
  quality := .unknown
  problemOpen
  recovery := false
  nodata := false
  reason
  value := none
  dimensions := none
  seriesCount := 0

def RawInput.evaluatedAt (input : RawInput) : DateText :=
  input.now.getD ⟨"1970-01-01T00:00:00Z", some 0⟩

/-- `carryProblem`: a parsed input states the open problem itself, a malformed one raw. -/
def RawInput.carryProblem (input : RawInput) : Bool :=
  match input.parsed with
  | some parsed => parsed.previous == some .problem
  | none => input.previousIsProblem

def nodataClock (clock : TriggerClockPolicy) (now : Int) (lastSeenAt : Option Timestamp) : Bool :=
  clock.nodata.any fun afterMs => lastSeenAt.all fun seen => decide (afterMs ≤ now - seen.ms)

/-- What the loop over the series keeps of one of them. -/
structure SeriesVerdict where
  samples : List TriggerSample
  (problem recovery : Verdict)
  quality : TriggerEvidenceQuality

variable (rule : TriggerRuleSnapshot) (now : Int) (samples : List TriggerSample)

def TriggerRuleSnapshot.context : EvaluationContext where
  now
  quality := rule.quality
  clock := rule.clock
  series := samples

/-- Both expressions of one series; they share one cache. -/
def judgeSeries :
    SeriesVerdict :=
  let context := rule.context now samples
  let (problem, cache) := matchesExpression context rule.problem []
  { samples, problem
    recovery := (matchesExpression context rule.recovery cache).1
    quality := if samples.any (·.quality.status ≠ .good) then .partly else .good }

def SeriesVerdict.fires (verdict : SeriesVerdict) : Bool :=
  verdict.problem.toOption == some true

def SeriesVerdict.recovers (verdict : SeriesVerdict) : Bool :=
  verdict.recovery.toOption == some true

def blockingReason (verdicts : List Verdict) : Option TriggerEvaluationReason :=
  verdicts.findSome? fun
    | .error reason => some reason
    | .ok _ => none

/-- The reason of the first unusable problem verdict, else of the first unusable recovery. -/
def blocking (verdicts : List SeriesVerdict) : Option TriggerEvaluationReason :=
  (blockingReason (verdicts.map (·.problem))).or (blockingReason (verdicts.map (·.recovery)))

/-- `shared`: the evidence reported beside a definite verdict.  The first firing series supplies
the value, or the first one when none fires. -/
def report (verdicts : List SeriesVerdict) : Outcome :=
  let reported := ((verdicts.find? (·.fires)).or verdicts.head?).map SeriesVerdict.samples
  let context := rule.context now (reported.getD [])
  { business := .unknown
    quality := if verdicts.all (·.quality = .good) then .good else .partly
    problemOpen := false
    recovery := false
    nodata := false
    reason := .healthy
    value := (selectValueUncached .last context).toOption.bind toNumber
    dimensions := context.series.head?.map TriggerSample.dimensions
    seriesCount := verdicts.length }

/-- The four definite outcomes. -/
def conclude (shared : Outcome) (carryProblem problem recoveryEvidence : Bool) : Outcome :=
  if carryProblem then
    if recoveryEvidence then
      { shared with business := .healthy, problemOpen := false, recovery := true
                    reason := .recovered }
    else { shared with business := .problem, problemOpen := true, reason := .problemRetained }
  else if problem then { shared with business := .problem, problemOpen := true, reason := .problem }
  else { shared with business := .healthy, problemOpen := false, reason := .healthy }

/-- Problem and recovery over all series; recovery also needs the absence of a problem. -/
def judge (series : List (List TriggerSample))
    (carryProblem : Bool) : Outcome :=
  let verdicts := series.map (judgeSeries rule now)
  match blocking verdicts with
  | some reason => { unresolved reason carryProblem with seriesCount := series.length }
  | none =>
    let problem := verdicts.any (·.fires)
    conclude (report rule now verdicts) carryProblem problem
      (verdicts.all (·.recovers) && !problem)

/-- The series of a request in the order of their keys. -/
def seriesOf : List (List TriggerSample) :=
  ((GroupBy.groupBy (fun sample => seriesKey sample.dimensions) samples).insertionSort
    fun left right => JsString.le left.1 right.1).map Prod.snd

/-- The evidence checks on the samples of a fresh request, and the verdict behind them. -/
def evaluateSamples (carryProblem : Bool) : Outcome :=
  if ∃ sample ∈ samples, now < sample.observedAt.ms then unresolved .clockSkew carryProblem
  else if ∃ sample ∈ samples, sample.metric.id ≠ rule.metric.id then
    unresolved .metricMismatch carryProblem
  else if ∃ sample ∈ samples, sample.metric.semanticVersion ≠ rule.metric.semanticVersion then
    unresolved .semanticVersionMismatch carryProblem
  else if ∃ sample ∈ samples, sample.unit ≠ rule.unit then unresolved .unitMismatch carryProblem
  else if (seriesOf samples).length = 0 then unresolved .missingInput carryProblem
  else if maxSeries < (seriesOf samples).length then unresolved .seriesBudgetExceeded carryProblem
  else judge rule now (seriesOf samples) carryProblem

/-- Evaluation of a well-formed input under a passed fence. -/
def evaluateInput (input : TriggerEvaluationInput)
    (carryProblem : Bool) : Outcome :=
  match input.lastSeenAt with
  | none =>
    if nodataClock rule.clock input.now.ms none then
      { unresolved .nodata carryProblem with nodata := true }
    else unresolved .missingInput carryProblem
  | some seen =>
    if nodataClock rule.clock input.now.ms (some seen) then
      { unresolved .nodata carryProblem with nodata := true }
    else if rule.clock.staleAfterMs ≤ input.now.ms - seen.ms then unresolved .stale carryProblem
    else evaluateSamples rule input.now.ms input.samples carryProblem

def evaluateRule (snapshot : TriggerResourceSnapshot) (rule : TriggerRuleSnapshot)
    (request : TriggerEvaluationRequest) : Outcome :=
  match checkTriggerSnapshotFence snapshot request.applied with
  | .error _ => unresolved .notApplied request.input.carryProblem
  | .ok () =>
    match request.input.parsed with
    | none => unresolved .invalidInput request.input.carryProblem
    | some input => evaluateInput rule input request.input.carryProblem

structure RuleKey where
  (ruleId scope : String)

def TriggerResourceSnapshot.rule? (snapshot : TriggerResourceSnapshot) (key : RuleKey) :
    Option TriggerRuleSnapshot :=
  snapshot.rules.find? fun entry => entry.ruleId = key.ruleId ∧ entry.scope = key.scope

def evaluateTriggerRule (snapshot : TriggerResourceSnapshot) (key : RuleKey)
    (request : TriggerEvaluationRequest) : TriggerEvaluationResult :=
  match snapshot.rule? key with
  | none =>
    { unresolved .ruleNotFound false with
      ruleId := key.ruleId
      ruleVersion := 0
      scope := key.scope
      item := ⟨"", String.ofList (key.scope.toList.drop "item:".length), 0⟩
      metric := ⟨"", ⟨0, 0, 0⟩⟩
      evaluatedAt := request.input.evaluatedAt }
  | some rule =>
    { evaluateRule snapshot rule request with
      ruleId := rule.ruleId
      ruleVersion := rule.version
      scope := rule.scope
      item := rule.item
      metric := rule.metric
      evaluatedAt := request.input.evaluatedAt }

end Slide.Triggers
