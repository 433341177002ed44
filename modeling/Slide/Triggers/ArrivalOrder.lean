import Slide.Library.Sorting
import Slide.Triggers.Recovery

/-!
# The order samples arrive in

The samples of a request are grouped by the text of their dimensions, and the groups are sorted by it.
A permutation of the samples permutes each group (`seriesOf_arrival`); within a group no two samples have
one time, so the newest sample and the sorted windows stay (`selectValueUncached_arrival`), with them the
verdicts, and at last the outcome.
-/

namespace Slide.Triggers

open Metrics Sorting List

/-! ## The text of dimensions -/

/-- The same entries, in any order. -/
def SameMap (left right : Dimensions) : Prop := left.entries.Perm right.entries

def entryText (entry : String × String) : String :=
  "[" ++ JsString.quote entry.1 ++ "," ++ JsString.quote entry.2 ++ "]"

theorem entryText_append_inj {entry entry' : String × String} {rest rest' : List Char}
    (same : (entryText entry).toList ++ rest = (entryText entry').toList ++ rest') :
    entry = entry' ∧ rest = rest' := by
  simp only [entryText, String.toList_append, append_assoc] at same
  obtain ⟨names, same⟩ := JsString.quote_append_inj (append_cancel_left same)
  obtain ⟨values, same⟩ := JsString.quote_append_inj (append_cancel_left same)
  exact ⟨Prod.ext names values, append_cancel_left same⟩

def entriesText (entries : List (String × String)) : List Char :=
  (",".intercalate (entries.map entryText)).toList

theorem entriesText_cons (entry : String × String) (entries : List (String × String)) :
    entriesText (entry :: entries) =
      (entryText entry).toList ++ if entries = [] then [] else ',' :: entriesText entries := by
  unfold entriesText
  cases entries with
  | nil =>
    simp only [map_cons, map_nil, String.intercalate_singleton, if_true, append_nil]
  | cons next entries =>
    rw [if_neg (cons_ne_nil _ _), map_cons, map_cons, String.intercalate_cons_cons,
      String.toList_append, String.toList_append, append_assoc]
    rfl

theorem entryText_head (entry : String × String) : (entryText entry).toList.head? = some '[' := by
  simp only [entryText, String.toList_append, append_assoc]
  rfl

theorem entriesText_inj {entries entries' : List (String × String)} {rest rest' : List Char}
    (same : entriesText entries ++ ']' :: rest = entriesText entries' ++ ']' :: rest') :
    entries = entries' := by
  have opens (entry : String × String) (entries : List (String × String)) (rest : List Char) :
      (entriesText (entry :: entries) ++ rest).head? = some '[' := by
    rw [entriesText_cons, append_assoc, head?_append, entryText_head]
    rfl
  induction entries generalizing entries' with
  | nil =>
    cases entries' with
    | nil => rfl
    | cons entry entries' =>
      have head := opens entry entries' (']' :: rest')
      rw [← same] at head
      cases head
  | cons entry entries ih =>
    cases entries' with
    | nil =>
      have head := opens entry entries (']' :: rest)
      rw [same] at head
      cases head
    | cons entry' entries' =>
      rw [entriesText_cons, entriesText_cons, append_assoc, append_assoc] at same
      obtain ⟨rfl, tails⟩ := entryText_append_inj same
      by_cases none : entries = [] <;> by_cases none' : entries' = []
      · rw [none, none']
      · rw [if_pos none, if_neg none'] at tails
        cases tails
      · rw [if_neg none, if_pos none'] at tails
        cases tails
      · rw [if_neg none, if_neg none'] at tails
        rw [ih (cons.inj tails).2]

theorem sameMap_of_seriesKey {left right : Dimensions} (same : seriesKey left = seriesKey right) :
    SameMap left right := by
  have texts := congrArg String.toList same
  simp only [seriesKey, String.toList_append, append_assoc] at texts
  have sorted : left.sorted = right.sorted :=
    @entriesText_inj _ _ [] [] (append_cancel_left texts)
  have before : left.sorted.Perm left.entries := perm_insertionSort _ _
  have after : right.sorted.Perm right.entries := perm_insertionSort _ _
  exact before.symm.trans (sorted ▸ after)

/-! ## Groups -/

/-- Samples of one series, in two orders. -/
structure SameSeries (samples samples' : List TriggerSample) : Prop where
  perm : samples.Perm samples'
  distinct : Distinct (fun sample => sample.observedAt.ms) samples
  dimensions : ∀ sample ∈ samples, ∀ sample' ∈ samples', SameMap sample.dimensions sample'.dimensions

/-- No two samples of equal dimensions were observed at one time. -/
def NoTies (samples : List TriggerSample) : Prop :=
  samples.Pairwise fun left right =>
    SameMap left.dimensions right.dimensions → left.observedAt.ms ≠ right.observedAt.ms

theorem seriesOf_arrival {samples samples' : List TriggerSample} (permuted : samples.Perm samples')
    (noTies : NoTies samples) : Forall₂ SameSeries (seriesOf samples) (seriesOf samples') := by
  let key (sample : TriggerSample) := seriesKey sample.dimensions
  have groups (samples : List TriggerSample) : seriesOf samples =
      (((GroupBy.groupBy key samples).map Prod.fst).insertionSort JsString.le).map
        fun k => samples.filter fun sample => key sample = k := by
    refine (congrArg (fun groups => (insertionSort _ groups).map Prod.snd)
      GroupBy.groupBy_eq_map).trans ?_
    rw [← map_insertionSort JsString.le]
    · rw [map_map]
      rfl
    · exact fun _ _ _ _ => Iff.rfl
  rw [groups, groups, JsString.sort_eq_of_perm (GroupBy.keys_perm permuted),
    forall₂_map_left_iff, forall₂_map_right_iff, forall₂_same]
  intro k _
  refine ⟨permuted.filter _, ?_, fun sample mem sample' mem' => ?_⟩
  · refine (noTies.filter _).imp_of_mem fun mem mem' differ => ?_
    have left := of_decide_eq_true (mem_filter.mp mem).2
    have right := of_decide_eq_true (mem_filter.mp mem').2
    exact differ (sameMap_of_seriesKey (left.trans right.symm))
  · have left := of_decide_eq_true (mem_filter.mp mem).2
    have right := of_decide_eq_true (mem_filter.mp mem').2
    exact sameMap_of_seriesKey (left.trans right.symm)

/-! ## Verdicts -/

section Verdicts

variable {rule : TriggerRuleSnapshot} {now : Int} {samples samples' : List TriggerSample}
  {context context' : EvaluationContext}

theorem SameSeries.nil_iff (same : SameSeries samples samples') : samples = [] ↔ samples' = [] :=
  ⟨fun empty => nil_perm.mp (empty ▸ same.perm), fun empty => perm_nil.mp (empty ▸ same.perm)⟩

theorem SameSeries.head (same : SameSeries samples samples') :
    Option.Rel SameMap (samples.head?.map TriggerSample.dimensions)
      (samples'.head?.map TriggerSample.dimensions) := by
  cases samples with
  | nil => rw [same.nil_iff.mp rfl]; exact .none
  | cons first rest =>
    cases samples' with
    | nil => cases same.nil_iff.mpr rfl
    | cons first' rest' =>
      exact .some (same.dimensions first mem_cons_self first' mem_cons_self)

theorem selectValueUncached_arrival (same : SameSeries samples samples') (selector : TriggerSelector) :
    selectValueUncached selector (rule.context now samples) =
      selectValueUncached selector (rule.context now samples') := by
  cases selector with
  | last =>
    cases samples with
    | nil => rw [same.nil_iff.mp rfl]
    | cons first rest =>
      cases samples' with
      | nil => cases same.nil_iff.mpr rfl
      | cons first' rest' =>
        have newest : newest first rest = newest first' rest' :=
          largest_eq_of_perm same.distinct same.perm
        simp only [selectValueUncached, selectLast, TriggerRuleSnapshot.context]
        rw [newest]
        rfl
  | windowed aggregation windowMs =>
    let kept (sample : TriggerSample) : Bool :=
      sample.observedAt.ms ≤ now ∧ now - windowMs < sample.observedAt.ms
    have sorted : ((samples.filter kept).insertionSort fun left right =>
          left.observedAt.ms ≤ right.observedAt.ms) =
        (samples'.filter kept).insertionSort fun left right =>
          left.observedAt.ms ≤ right.observedAt.ms :=
      insertionSort_eq_of_perm (same.distinct.filter _) (same.perm.filter _)
    have windows : selectWindow aggregation windowMs (rule.context now samples) =
        selectWindow aggregation windowMs (rule.context now samples') := by
      unfold selectWindow TriggerRuleSnapshot.context
      dsimp only
      rw [sorted]
    cases samples with
    | nil => rw [same.nil_iff.mp rfl]
    | cons first rest =>
      cases samples' with
      | nil => cases same.nil_iff.mpr rfl
      | cons first' rest' => exact windows

mutual

theorem matchesExpression_congr (same : ∀ selector, selectValueUncached selector context =
    selectValueUncached selector context') : (expression : ResolvedTriggerExpression) →
      (cache : SelectorCache) →
        matchesExpression context expression cache = matchesExpression context' expression cache
  | .compare select operator threshold, cache => by
    simp only [matchesExpression, selectValue, same]
  | .group node children, cache => by
    simp only [matchesExpression, matchesChildren_congr same children cache]

theorem matchesChildren_congr (same : ∀ selector, selectValueUncached selector context =
    selectValueUncached selector context') : (children : List ResolvedTriggerExpression) →
      (cache : SelectorCache) →
        matchesChildren context children cache = matchesChildren context' children cache
  | [], _ => by simp only [matchesChildren]
  | child :: rest, cache => by
    simp only [matchesChildren, matchesExpression_congr same child, matchesChildren_congr same rest]

end

/-- Verdicts over one series, in two orders. -/
structure SameVerdict (verdict verdict' : SeriesVerdict) : Prop where
  samples : SameSeries verdict.samples verdict'.samples
  problem : verdict.problem = verdict'.problem
  recovery : verdict.recovery = verdict'.recovery
  quality : verdict.quality = verdict'.quality

theorem judgeSeries_arrival (same : SameSeries samples samples') :
    SameVerdict (judgeSeries rule now samples) (judgeSeries rule now samples') := by
  have selected := @selectValueUncached_arrival rule now _ _ same
  have problem := matchesExpression_congr selected rule.problem []
  refine ⟨same, congrArg Prod.fst problem, ?_, ?_⟩
  · simp only [judgeSeries, problem, matchesExpression_congr selected rule.recovery]
  · have poor : samples.any (·.quality.status ≠ .good) = samples'.any (·.quality.status ≠ .good) := by
      rw [Bool.eq_iff_iff]
      simp only [any_eq_true, same.perm.mem_iff]
    simp only [judgeSeries, poor]

/-! ## The outcome -/

/-- Outcomes that agree in everything, the dimensions as a map. -/
structure SameOutcome (outcome outcome' : Outcome) : Prop where
  rest : { outcome with dimensions := outcome'.dimensions } = outcome'
  dimensions : Option.Rel SameMap outcome.dimensions outcome'.dimensions

theorem sameOutcome_of_none {outcome : Outcome} (none : outcome.dimensions = none) :
    SameOutcome outcome outcome :=
  ⟨rfl, by rw [none]; exact .none⟩

section Lists

variable {verdicts verdicts' : List SeriesVerdict}

theorem map_eq_of_same {α : Type} {f : SeriesVerdict → α}
    (same : Forall₂ SameVerdict verdicts verdicts')
    (reads : ∀ verdict verdict', SameVerdict verdict verdict' → f verdict = f verdict') :
    verdicts.map f = verdicts'.map f := by
  induction same with
  | nil => rfl
  | cons first _ ih => rw [map_cons, map_cons, reads _ _ first, ih]

theorem blocking_arrival (same : Forall₂ SameVerdict verdicts verdicts') :
    blocking verdicts = blocking verdicts' := by
  unfold blocking
  rw [map_eq_of_same same fun _ _ same => same.problem, map_eq_of_same same fun _ _ same => same.recovery]

theorem SameVerdict.fires {verdict verdict' : SeriesVerdict} (same : SameVerdict verdict verdict') :
    verdict.fires = verdict'.fires := by
  unfold SeriesVerdict.fires
  rw [same.problem]

theorem SameVerdict.recovers {verdict verdict' : SeriesVerdict} (same : SameVerdict verdict verdict') :
    verdict.recovers = verdict'.recovers := by
  unfold SeriesVerdict.recovers
  rw [same.recovery]

theorem any_arrival (same : Forall₂ SameVerdict verdicts verdicts') :
    verdicts.any (·.fires) = verdicts'.any (·.fires) := by
  have all := congrArg (any · id) (map_eq_of_same same fun _ _ same => same.fires)
  rwa [any_map, any_map] at all

theorem all_arrival (same : Forall₂ SameVerdict verdicts verdicts') :
    verdicts.all (·.recovers) = verdicts'.all (·.recovers) := by
  have all := congrArg (all · id) (map_eq_of_same same fun _ _ same => same.recovers)
  rwa [all_map, all_map] at all

theorem find_arrival (same : Forall₂ SameVerdict verdicts verdicts') :
    Option.Rel SameVerdict (verdicts.find? (·.fires)) (verdicts'.find? (·.fires)) := by
  induction same with
  | nil => exact .none
  | cons first _ ih =>
    rw [find?_cons, find?_cons, first.fires]
    split
    · exact .some first
    · exact ih

theorem reported_arrival (same : Forall₂ SameVerdict verdicts verdicts') :
    Option.Rel SameVerdict ((verdicts.find? (·.fires)).or verdicts.head?)
      ((verdicts'.find? (·.fires)).or verdicts'.head?) := by
  have found := find_arrival same
  cases hit : verdicts.find? (·.fires) with
  | some verdict =>
    rw [hit] at found
    cases hit' : verdicts'.find? (·.fires) with
    | none => rw [hit'] at found; cases found
    | some verdict' => rw [hit'] at found; exact found
  | none =>
    rw [hit] at found
    cases hit' : verdicts'.find? (·.fires) with
    | some verdict' => rw [hit'] at found; cases found
    | none =>
      cases same with
      | nil => exact .none
      | cons first _ => exact .some first

theorem samples_arrival {found found' : Option SeriesVerdict} (same : Option.Rel SameVerdict found found') :
    SameSeries ((found.map SeriesVerdict.samples).getD []) ((found'.map SeriesVerdict.samples).getD []) := by
  cases same with
  | none => exact ⟨.nil, .nil, fun _ absent => absurd absent not_mem_nil⟩
  | some same => exact same.samples

theorem report_arrival (same : Forall₂ SameVerdict verdicts verdicts') :
    SameOutcome (report rule now verdicts) (report rule now verdicts') := by
  have quality : verdicts.all (·.quality = .good) = verdicts'.all (·.quality = .good) := by
    have qualities := map_eq_of_same same fun _ _ same => same.quality
    have all := congrArg (all · (· = TriggerEvidenceQuality.good)) qualities
    rwa [all_map, all_map] at all
  have samples : SameSeries
      ((((verdicts.find? (·.fires)).or verdicts.head?).map SeriesVerdict.samples).getD [])
      ((((verdicts'.find? (·.fires)).or verdicts'.head?).map SeriesVerdict.samples).getD []) :=
    samples_arrival (reported_arrival same)
  have value := @selectValueUncached_arrival rule now _ _ samples .last
  refine ⟨?_, samples.head⟩
  unfold report
  simp only [quality, value, same.length_eq]

theorem conclude_arrival {shared shared' : Outcome} (same : SameOutcome shared shared')
    (carryProblem problem recoveryEvidence : Bool) :
    SameOutcome (conclude shared carryProblem problem recoveryEvidence)
      (conclude shared' carryProblem problem recoveryEvidence) := by
  obtain ⟨rest, dimensions⟩ := same
  unfold conclude
  rw [← rest] at dimensions ⊢
  split_ifs <;> exact ⟨rfl, dimensions⟩

theorem judge_arrival {series series' : List (List TriggerSample)} (carryProblem : Bool)
    (same : Forall₂ SameSeries series series') :
    SameOutcome (judge rule now series carryProblem) (judge rule now series' carryProblem) := by
  have verdicts : Forall₂ SameVerdict (series.map (judgeSeries rule now))
      (series'.map (judgeSeries rule now)) := by
    rw [forall₂_map_left_iff, forall₂_map_right_iff]
    exact same.imp fun _ _ => judgeSeries_arrival
  unfold judge
  simp only [blocking_arrival verdicts, any_arrival verdicts, all_arrival verdicts, same.length_eq]
  split
  · exact sameOutcome_of_none rfl
  · exact conclude_arrival (report_arrival verdicts) ..

theorem evaluateSamples_arrival (carryProblem : Bool) (permuted : samples.Perm samples')
    (noTies : NoTies samples) : SameOutcome (evaluateSamples rule now samples carryProblem)
      (evaluateSamples rule now samples' carryProblem) := by
  have series := seriesOf_arrival permuted noTies
  unfold evaluateSamples
  simp only [permuted.mem_iff, series.length_eq]
  split_ifs
  all_goals first | exact sameOutcome_of_none rfl | exact judge_arrival carryProblem series

end Lists

theorem evaluateInput_arrival {input : TriggerEvaluationInput} (carryProblem : Bool)
    (permuted : input.samples.Perm samples') (noTies : NoTies input.samples) :
    SameOutcome (evaluateInput rule input carryProblem)
      (evaluateInput rule { input with samples := samples' } carryProblem) := by
  unfold evaluateInput
  cases input.lastSeenAt with
  | none =>
    dsimp only
    split_ifs <;> exact sameOutcome_of_none rfl
  | some seen =>
    dsimp only
    split_ifs
    · exact sameOutcome_of_none rfl
    · exact sameOutcome_of_none rfl
    · exact evaluateSamples_arrival carryProblem permuted noTies

end Verdicts

/-- Results that agree in everything, the dimensions as a map. -/
structure SameResult (result result' : TriggerEvaluationResult) : Prop where
  rest : { result with dimensions := result'.dimensions } = result'
  dimensions : Option.Rel SameMap result.dimensions result'.dimensions

/-- **The order of arrival does not matter.**  Two valid inputs that differ in the order of their samples
only, none of which were observed at one time in one series, get one result. -/
theorem evaluateTriggerRule_arrival (snapshot : TriggerResourceSnapshot) (key : RuleKey)
    (applied : Option TriggerAppliedEvidence) (raw raw' : RawInput) (input : TriggerEvaluationInput)
    (samples' : List TriggerSample) (parsed : raw.parsed = some input)
    (parsed' : raw'.parsed = some { input with samples := samples' })
    (permuted : input.samples.Perm samples') (noTies : NoTies input.samples) :
    SameResult (evaluateTriggerRule snapshot key ⟨raw, applied⟩)
      (evaluateTriggerRule snapshot key ⟨raw', applied⟩) := by
  have at_ : raw.evaluatedAt = raw'.evaluatedAt := by
    rw [RawInput.evaluatedAt, RawInput.evaluatedAt, raw.now_parsed input parsed,
      raw'.now_parsed _ parsed']
  have carries : raw.carryProblem = raw'.carryProblem := by
    rw [RawInput.carryProblem, RawInput.carryProblem, parsed, parsed']
  unfold evaluateTriggerRule
  cases snapshot.rule? key with
  | none => exact ⟨by rw [at_], .none⟩
  | some rule =>
    have outcome : SameOutcome (evaluateRule snapshot rule ⟨raw, applied⟩)
        (evaluateRule snapshot rule ⟨raw', applied⟩) := by
      unfold evaluateRule
      dsimp only
      rw [parsed, parsed', carries]
      cases checkTriggerSnapshotFence snapshot applied with
      | error => exact sameOutcome_of_none rfl
      | ok => exact evaluateInput_arrival _ permuted noTies
    refine ⟨?_, outcome.dimensions⟩
    dsimp only
    rw [at_]
    exact congrArg (fun outcome : Outcome => ({ outcome with
      ruleId := rule.ruleId
      ruleVersion := rule.version
      scope := rule.scope
      item := rule.item
      metric := rule.metric
      evaluatedAt := raw'.evaluatedAt } : TriggerEvaluationResult)) outcome.rest

private def sessionsSample (observedAt : Timestamp) (sessions : Nat) : TriggerSample where
  metric := sessionsRule.metric
  unit := .count
  value := .uint64 sessions
  observedAt
  dimensions := ⟨[("schema", "orders")], by decide⟩
  quality := ⟨.good, .none⟩
  accuracy := .exact
  coverage := sessionsRule.quality.minCoverage
  window := none

private def quietSample : TriggerSample := sessionsSample ⟨"1970-01-01T00:00:20Z", 20000⟩ 50

private def busySample : TriggerSample := sessionsSample ⟨"1970-01-01T00:00:30Z", 30000⟩ 95

private def sessionsInput (samples : List TriggerSample) : TriggerEvaluationInput where
  now := ⟨"1970-01-01T00:01:00Z", 60000⟩
  lastSeenAt := some busySample.observedAt
  previous := none
  samples := samples

private def sessionsRaw (samples : List TriggerSample) : RawInput where
  now := some (sessionsInput samples).now.toDateText
  previousIsProblem := false
  parsed := some (sessionsInput samples)
  now_parsed := fun _ same => some.inj same ▸ rfl
  previous_parsed := fun _ same => some.inj same ▸ rfl

/-- The newer sample of a series opens the problem, also when it comes first. -/
theorem evaluateTriggerRule_arrival_busy :
    (evaluateTriggerRule sessionsSnapshot ⟨"busy", "item:sessions"⟩
        ⟨sessionsRaw [quietSample, busySample], (sessionsRequest 0 none).applied⟩).reason = .problem ∧
      SameResult
        (evaluateTriggerRule sessionsSnapshot ⟨"busy", "item:sessions"⟩
          ⟨sessionsRaw [quietSample, busySample], (sessionsRequest 0 none).applied⟩)
        (evaluateTriggerRule sessionsSnapshot ⟨"busy", "item:sessions"⟩
          ⟨sessionsRaw [busySample, quietSample], (sessionsRequest 0 none).applied⟩) :=
  ⟨by decide +kernel, evaluateTriggerRule_arrival _ _ _ _ _ (sessionsInput [quietSample, busySample]) _
    rfl rfl (Perm.swap _ _ _) (pairwise_pair.mpr fun _ => by decide)⟩

end Slide.Triggers
