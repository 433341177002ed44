import Mathlib.Data.List.Chain
import Slide.Library.Fallible
import Slide.Library.Sorting
import Slide.Triggers.Information
import Slide.Triggers.Recovery

/-!
# The edge of a window

A window `[now - windowMs, now]` selects the samples by the time they were observed, and then wants the
slice of the first one to start inside the window.  Where the slices of a series follow each other without
a gap, the first selected one starts at or before the edge, so it is accepted only if it starts exactly
there: `windowed_value_iff`.
-/

namespace Slide.Triggers

open Metrics Sorting List

/-- The window of a sample: it ends when the sample was observed, in the past, and is not empty. -/
structure TriggerSample.Covers (now : Int) (sample : TriggerSample) (window : SampleWindow) : Prop where
  own : sample.window = some window
  observed : window.stop.ms = sample.observedAt.ms
  positive : window.start.ms < window.stop.ms
  past : window.stop.ms ≤ now

/-- Where one window ends the next one starts. -/
def Adjacent (left right : SampleWindow) : Prop := right.start.ms = left.stop.ms

/-- The samples of a series, in the order of their windows, leave nothing of the requested window
uncovered up to their last end. -/
structure FullyCovered (windowMs : Nat) (context : EvaluationContext) (samples : List TriggerSample)
    (windows : List SampleWindow) (newest : SampleWindow) : Prop where
  order : samples.Perm context.series
  covers : Forall₂ (TriggerSample.Covers context.now) samples windows
  adjacent : windows.IsChain Adjacent
  accepted : ∀ sample ∈ samples, gate sample context.quality = none
  last : windows.getLast? = some newest
  fresh : context.now - newest.stop.ms ≤ context.clock.staleAfterMs
  whole : ∀ t, context.now - windowMs ≤ t → t ≤ newest.stop.ms →
    ∃ window ∈ windows, window.start.ms ≤ t ∧ t ≤ window.stop.ms
  enough : ¬ Binary64.ofInt (newest.stop.ms - (context.now - windowMs)) / Binary64.ofInt windowMs <
    context.quality.minCoverage.val

section Windows

variable {now start : Int} {windows : List SampleWindow} {window newest : SampleWindow}
  {samples : List TriggerSample} {context : EvaluationContext} {windowMs : Nat}

theorem pairwise_of_adjacent (adjacent : windows.IsChain Adjacent)
    (positive : ∀ window ∈ windows, window.start.ms < window.stop.ms) :
    windows.Pairwise fun left right => left.stop.ms ≤ right.start.ms := by
  induction windows with
  | nil => exact .nil
  | cons first rest ih =>
    have sorted := ih adjacent.tail fun window mem => positive window (mem_cons_of_mem _ mem)
    refine pairwise_cons.mpr ⟨fun window mem => ?_, sorted⟩
    cases rest with
    | nil => cases mem
    | cons second rest =>
      have next : second.start.ms = first.stop.ms := adjacent.rel
      rcases mem_cons.mp mem with here | there
      · rw [here, next]
      · have after := rel_of_pairwise_cons sorted there
        have length := positive second (mem_cons_of_mem _ mem_cons_self)
        omega

theorem coveredMs_adjacent {cursor : Option Int} (adjacent : (window :: windows).IsChain Adjacent)
    (positive : ∀ w ∈ window :: windows, w.start.ms < w.stop.ms)
    (past : ∀ w ∈ window :: windows, w.stop.ms ≤ now)
    (seamless : ¬ cursor.any (· ≠ window.start.ms) = true)
    (last : (window :: windows).getLast? = some newest) :
    coveredMs now cursor (window :: windows) = some (newest.stop.ms - window.start.ms) := by
  induction windows generalizing window cursor with
  | nil =>
    have same : window = newest := some.inj last
    have length := positive window mem_cons_self
    have ends := past window mem_cons_self
    rw [coveredMs, if_neg (by omega), if_neg seamless, coveredMs, same, Option.map_some, add_zero]
  | cons next rest ih =>
    have length := positive window mem_cons_self
    have ends := past window mem_cons_self
    have seam : next.start.ms = window.stop.ms := adjacent.rel
    have tail := @ih _ (some window.stop.ms) adjacent.tail
      (fun w mem => positive w (mem_cons_of_mem _ mem))
      (fun w mem => past w (mem_cons_of_mem _ mem))
      (by simp [seam]) last
    rw [coveredMs, if_neg (by omega), if_neg seamless, tail, Option.map_some, seam]
    exact congrArg some (by omega)

theorem filter_later (sorted : windows.Pairwise fun left right => left.stop.ms ≤ right.stop.ms) :
    ∃ dropped, dropped ++ windows.filter (fun window => start < window.stop.ms) = windows ∧
      ∀ window ∈ dropped, window.stop.ms ≤ start := by
  induction windows with
  | nil => exact ⟨[], rfl, fun _ absent => absurd absent not_mem_nil⟩
  | cons first rest ih =>
    obtain ⟨after, sorted⟩ := pairwise_cons.mp sorted
    by_cases later : start < first.stop.ms
    · refine ⟨[], ?_, fun _ absent => absurd absent not_mem_nil⟩
      rw [nil_append, filter_eq_self]
      intro window mem
      rw [decide_eq_true_eq]
      rcases mem_cons.mp mem with here | there
      · rwa [here]
      · exact later.trans_le (after window there)
    · obtain ⟨dropped, whole, before⟩ := ih sorted
      refine ⟨first :: dropped, ?_, ?_⟩
      · rw [filter_cons_of_neg (by simpa using later), cons_append, whole]
      · exact forall_mem_cons.mpr ⟨not_lt.mp later, before⟩

/-! ## What is selected -/

theorem FullyCovered.selected (covered : FullyCovered windowMs context samples windows newest) :
    ∃ dropped kept, dropped ++ kept = windows ∧
      (∀ window ∈ dropped, window.stop.ms ≤ context.now - windowMs) ∧
      (∀ window ∈ kept, context.now - windowMs < window.stop.ms) ∧
      Forall₂ (TriggerSample.Covers context.now)
        ((context.series.filter fun sample => sample.observedAt.ms ≤ context.now ∧
            context.now - windowMs < sample.observedAt.ms).insertionSort
          fun left right => left.observedAt.ms ≤ right.observedAt.ms) kept := by
  have positive (window : SampleWindow) (mem : window ∈ windows) : window.start.ms < window.stop.ms := by
    obtain ⟨sample, -, covers⟩ := Except.exists_of_forall₂ covered.covers mem
    exact covers.positive
  have ordered : windows.Pairwise fun left right => left.stop.ms < right.stop.ms :=
    (pairwise_of_adjacent covered.adjacent positive).imp_of_mem
      fun _ mem before => before.trans_lt (positive _ mem)
  obtain ⟨dropped, whole, before⟩ :=
    @filter_later (context.now - windowMs) windows (ordered.imp le_of_lt)
  refine ⟨dropped, _, whole, before, fun window mem => of_decide_eq_true (mem_filter.mp mem).2, ?_⟩
  have increasing : samples.Pairwise fun left right => left.observedAt.ms < right.observedAt.ms :=
    pairwise_of_forall₂ covered.covers ordered
      fun _ _ _ _ left right less => left.observed ▸ right.observed ▸ less
  have selected : ((context.series.filter fun sample => sample.observedAt.ms ≤ context.now ∧
      context.now - windowMs < sample.observedAt.ms).insertionSort
        fun left right => left.observedAt.ms ≤ right.observedAt.ms) =
      samples.filter fun sample => sample.observedAt.ms ≤ context.now ∧
        context.now - windowMs < sample.observedAt.ms := by
    have distinct : Distinct (·.observedAt.ms) samples := increasing.imp fun less => less.ne
    rw [← insertionSort_eq_of_perm (distinct.filter _) (covered.order.filter _)]
    exact ((increasing.imp le_of_lt).filter _).insertionSort_eq
  rw [selected]
  refine rel_filter (fun sample window covers => ?_) covered.covers
  have own := covers.observed
  have past := covers.past
  simp only [decide_eq_true_eq]
  omega

theorem mapM_window (covers : Forall₂ (TriggerSample.Covers now) samples windows) :
    samples.mapM TriggerSample.window = some windows := by
  induction covers with
  | nil => rfl
  | cons first _ ih => rw [mapM_cons, first.own, ih]; rfl

theorem FullyCovered.starts (covered : FullyCovered windowMs context samples windows newest)
    {dropped rest : List SampleWindow} (whole : dropped ++ window :: rest = windows)
    (before : ∀ window ∈ dropped, window.stop.ms ≤ context.now - windowMs)
    (after : context.now - windowMs < window.stop.ms)
    (sorted : windows.Pairwise fun left right => left.stop.ms ≤ right.start.ms)
    (positive : ∀ window ∈ windows, window.start.ms < window.stop.ms) :
    window.start.ms ≤ context.now - windowMs := by
  have mem : window ∈ windows := whole ▸ mem_append_right _ mem_cons_self
  cases dropped using reverseRecOn with
  | nil =>
    have ends : window.stop.ms ≤ newest.stop.ms := by
      have last : newest ∈ windows := mem_of_getLast? covered.last
      rw [← whole, nil_append] at last sorted
      rcases mem_cons.mp last with here | there
      · rw [here]
      · have later := rel_of_pairwise_cons sorted there
        have length := positive newest (mem_of_getLast? covered.last)
        omega
    obtain ⟨other, inside, starts, -⟩ := covered.whole _ le_rfl (after.le.trans ends)
    rw [← whole, nil_append] at inside sorted
    rcases mem_cons.mp inside with here | there
    · rwa [← here]
    · have later := rel_of_pairwise_cons sorted there
      omega
  | append_singleton dropped last _ =>
    have chain := covered.adjacent
    rw [← whole, append_assoc, singleton_append] at chain
    have seam : window.start.ms = last.stop.ms :=
      (isChain_append_cons_cons.mp chain).2.1
    rw [seam]
    exact before last (mem_append_right _ (mem_singleton_self _))

end Windows

theorem selectWindow_iff {windowMs : Nat} {context : EvaluationContext} {samples : List TriggerSample}
    {windows : List SampleWindow} {newest : SampleWindow} (aggregation : WindowAggregation)
    (covered : FullyCovered windowMs context samples windows newest) :
    (∃ value, selectWindow aggregation windowMs context = .ok value) ↔
      ∃ window ∈ windows, window.start.ms = context.now - windowMs := by
  have positive (window : SampleWindow) (mem : window ∈ windows) : window.start.ms < window.stop.ms := by
    obtain ⟨sample, -, covers⟩ := Except.exists_of_forall₂ covered.covers mem
    exact covers.positive
  have sorted := pairwise_of_adjacent covered.adjacent positive
  obtain ⟨dropped, kept, whole, before, after, selected⟩ := covered.selected
  have spans := mapM_window selected
  have early (window : SampleWindow) (mem : window ∈ dropped) :
      window.start.ms ≠ context.now - windowMs := by
    have length := positive window (whole ▸ mem_append_left _ mem)
    have ends := before window mem
    omega
  unfold selectWindow
  dsimp only
  rw [spans]
  cases kept with
  | nil =>
    rw [forall₂_nil_right_iff.mp selected]
    constructor
    · rintro ⟨value, judged⟩
      cases judged
    · rintro ⟨window, mem, starts⟩
      rw [← whole, append_nil] at mem
      exact absurd starts (early window mem)
  | cons window rest =>
    have edge := covered.starts whole before (after window mem_cons_self) sorted positive
    have suffix : window :: rest <:+ windows := ⟨dropped, whole⟩
    have inside : ∀ other ∈ window :: rest, other ∈ windows := fun other mem => suffix.subset mem
    have last : (window :: rest).getLast? = some newest := by
      have last := covered.last
      rwa [← whole, getLast?_append_of_ne_nil _ (cons_ne_nil _ _)] at last
    have span : coveredMs context.now none (window :: rest) = some (newest.stop.ms - window.start.ms) := by
      refine coveredMs_adjacent (covered.adjacent.suffix suffix)
        (fun other mem => positive other (inside other mem)) (fun other mem => ?_) Bool.false_ne_true last
      obtain ⟨sample, -, covers⟩ := Except.exists_of_forall₂ selected mem
      exact covers.past
    have final : (window :: rest).getLast (cons_ne_nil _ _) = newest := getLast_eq_iff_getLast?_eq_some _ |>.mpr last
    obtain ⟨first, others, -, -, list⟩ := forall₂_cons_right_iff.mp selected
    have accepted : (first :: others).findSome? (gate · context.quality) = none := by
      rw [findSome?_eq_none_iff]
      intro sample mem
      rw [← list, mem_insertionSort] at mem
      exact covered.accepted sample (covered.order.mem_iff.mpr (mem_filter.mp mem).1)
    rw [list]
    simp only [span, final, accepted]
    have fresh := covered.fresh
    by_cases starts : window.start.ms = context.now - windowMs
    · have enough := covered.enough
      rw [← starts] at enough
      rw [if_neg (by omega), if_neg enough, if_neg (by omega)]
      exact ⟨fun _ => ⟨window, inside window mem_cons_self, starts⟩, fun _ => ⟨_, rfl⟩⟩
    · rw [if_pos (by omega)]
      constructor
      · rintro ⟨value, judged⟩
        cases judged
      · rintro ⟨other, mem, there⟩
        rw [← whole] at mem sorted
        rcases mem_append.mp mem with dropped | kept
        · exact absurd there (early other dropped)
        rcases mem_cons.mp kept with here | later
        · exact absurd (here ▸ there) starts
        · have follows := rel_of_pairwise_cons (pairwise_append.mp sorted).2.1 later
          have ends := after window mem_cons_self
          omega

/-- **A covered window is judged only at a seam.**  Where the accepted samples of a series cover a requested
window, in whatever order they are listed, `selectValue` has a value if and only if one of their windows
starts at the very edge of the requested one. -/
theorem windowed_value_iff (aggregation : WindowAggregation) (windowMs : Nat) (context : EvaluationContext)
    (earlier : List ResolvedTriggerExpression) (samples : List TriggerSample)
    (windows : List SampleWindow) (newest : SampleWindow)
    (covered : FullyCovered windowMs context samples windows newest) :
    (∃ value, (selectValue (.windowed aggregation windowMs) context (cacheAfter context earlier)).1 =
        .ok value) ↔
      ∃ window ∈ windows, window.start.ms = context.now - windowMs := by
  have nonempty : context.series ≠ [] := by
    intro empty
    have none : samples = [] := perm_nil.mp (empty ▸ covered.order)
    have covers := covered.covers
    rw [none, forall₂_nil_left_iff] at covers
    have last := covered.last
    rw [covers] at last
    cases last
  obtain ⟨first, rest, series⟩ := exists_cons_of_ne_nil nonempty
  rw [(selectValue_eq _ (cacheCoherent_cacheAfter earlier)).1]
  simp only [selectValueUncached, series]
  exact selectWindow_iff aggregation covered

private def minuteSample (start stop : Int) : TriggerSample where
  metric := sessionsRule.metric
  unit := .count
  value := .uint64 (stop.toNat / 1000)
  observedAt := ⟨"", stop⟩
  dimensions := ⟨[], nodup_nil⟩
  quality := ⟨.good, .none⟩
  accuracy := .exact
  coverage := sessionsRule.quality.minCoverage
  window := some ⟨⟨"", start⟩, ⟨"", stop⟩⟩

/-- The minute up to `120000`, covered by two samples that meet at 85 seconds. -/
private def minuteContext (start : Int) : EvaluationContext :=
  sessionsRule.context 120000 [minuteSample start 85000, minuteSample 85000 120000]

private theorem minute_covered (start : Int) (edge : start ≤ 60000) :
    FullyCovered 60000 (minuteContext start) (minuteContext start).series
      [⟨⟨"", start⟩, ⟨"", 85000⟩⟩, ⟨⟨"", 85000⟩, ⟨"", 120000⟩⟩] ⟨⟨"", 85000⟩, ⟨"", 120000⟩⟩ where
  order := .refl _
  covers := .cons ⟨rfl, rfl, by change start < 85000; omega, by change (85000 : Int) ≤ 120000; decide⟩
    (.cons ⟨rfl, rfl, by decide, by change (120000 : Int) ≤ 120000; decide⟩ .nil)
  adjacent := isChain_pair.mpr rfl
  accepted := by
    have good (start stop : Int) : gate (minuteSample start stop) sessionsRule.quality = none := by
      have accepted : gate (minuteSample 0 0) sessionsRule.quality = none := by rfl
      exact accepted
    exact forall_mem_cons.mpr ⟨good .., forall_mem_singleton.mpr (good ..)⟩
  last := rfl
  fresh := by change (120000 : Int) - 120000 ≤ 60000; decide
  whole t from_ to_ := by
    change 120000 - 60000 ≤ t at from_
    change t ≤ 120000 at to_
    rcases le_total t 85000 with early | late
    · exact ⟨_, mem_cons_self, by change start ≤ t; omega, early⟩
    · exact ⟨_, mem_cons_of_mem _ mem_cons_self, late, to_⟩
  enough := by
    change ¬ Binary64.ofInt 60000 / Binary64.ofInt 60000 <
      sessionsRule.quality.minCoverage.val
    decide

/-- The first sample covers the ten seconds before the window too, and there is no value. -/
theorem windowed_gap_overhang :
    FullyCovered 60000 (minuteContext 50000) (minuteContext 50000).series
        [⟨⟨"", 50000⟩, ⟨"", 85000⟩⟩, ⟨⟨"", 85000⟩, ⟨"", 120000⟩⟩] ⟨⟨"", 85000⟩, ⟨"", 120000⟩⟩ ∧
      (selectValue (.windowed .avg 60000) (minuteContext 50000) []).1 = .error .gap :=
  ⟨minute_covered 50000 (by decide), by rfl⟩

/-- It starts with the window, and there is one. -/
theorem windowed_value_seam : ∃ value,
    (selectValue (.windowed .avg 60000) (minuteContext 60000) (cacheAfter (minuteContext 60000) [])).1 =
      .ok value :=
  (windowed_value_iff _ _ _ _ _ _ _ (minute_covered 60000 le_rfl)).mpr
    ⟨_, mem_cons_self, rfl⟩

end Slide.Triggers
