import Mathlib.Data.List.GetD
import Slide.Metrics.Reduce

/-!
# Buckets of a window

A bucket reads its rows and one neighbour on each side.  No reducer asks for more: a row before the
first neighbour has ended its hold when the bucket begins, a row of the bucket finds the row before it
among these, and a row after the last neighbour begins after the bucket.
-/

namespace Slide.Metrics

open List

/-! ## `lowerBound` -/

section LowerBound

variable {times : List Int} {bound : Int}

theorem lowerBoundLoop_spec (ascending : times.Pairwise (· ≤ ·)) (fuel : Nat) :
    ∀ low high, high ≤ low + fuel → low ≤ high → high ≤ times.length →
      (∀ j (_ : j < low) (inside : j < times.length), times[j] < bound) →
      (∀ j (_ : high ≤ j) (inside : j < times.length), bound ≤ times[j]) →
      lowerBoundLoop times bound fuel low high ≤ times.length ∧
        (∀ j (_ : j < lowerBoundLoop times bound fuel low high) (inside : j < times.length),
          times[j] < bound) ∧
        ∀ j (_ : lowerBoundLoop times bound fuel low high ≤ j) (inside : j < times.length),
          bound ≤ times[j] := by
  have ordered {i j : Nat} (le : i ≤ j) (inside : j < times.length) : times[i] ≤ times[j] := by
    rcases Nat.eq_or_lt_of_le le with rfl | lt
    · exact le_rfl
    · exact pairwise_iff_getElem.mp ascending i j (by omega) inside lt
  induction fuel with
  | zero =>
    intro low high enough le fits below above
    obtain rfl : low = high := by omega
    exact ⟨fits, below, above⟩
  | succ fuel ih =>
    intro low high enough le fits below above
    unfold lowerBoundLoop
    split
    next narrower =>
      have inside : (low + high) / 2 < times.length := by omega
      dsimp only
      rw [getD_eq_getElem _ _ inside]
      split
      next small =>
        refine ih _ _ (by omega) (by omega) fits (fun j lt within => ?_) above
        exact (ordered (by omega) inside).trans_lt small
      next large =>
        refine ih _ _ (by omega) (by omega) (by omega) below fun j ge within => ?_
        exact (not_lt.mp large).trans (ordered ge within)
    next closed =>
      obtain rfl : low = high := by omega
      exact ⟨fits, below, above⟩

theorem lowerBound_spec (ascending : times.Pairwise (· ≤ ·)) :
    lowerBound times bound ≤ times.length ∧
      (∀ j (_ : j < lowerBound times bound) (inside : j < times.length), times[j] < bound) ∧
      ∀ j (_ : lowerBound times bound ≤ j) (inside : j < times.length), bound ≤ times[j] :=
  lowerBoundLoop_spec ascending times.length 0 times.length (by omega) (by omega) le_rfl
    (fun j lt => by omega) fun j ge inside => by omega

end LowerBound

/-! ## `bucketSlice` -/

/-- Rows of different times, in the order of time. -/
def Ascending (points : List Point) : Prop := points.Pairwise fun a b => a.time < b.time

/-- What a slice leaves out: rows before its first one, which is early itself, and rows after its last
one, which is late itself. -/
structure Sliced (start stop : Int) (pre slice post : List Point) : Prop where
  early : ∀ p ∈ pre, p.time < start
  late : ∀ p ∈ post, stop ≤ p.time
  head : pre ≠ [] → ∃ p rest, slice = p :: rest ∧ p.time < start
  last : post ≠ [] → ∃ rest p, slice = rest ++ [p] ∧ stop ≤ p.time

section Slice

variable {points : List Point} {start stop : Int}

theorem ascending_times (ascending : Ascending points) :
    (points.map Point.time).Pairwise (· ≤ ·) :=
  pairwise_map.mpr (ascending.imp le_of_lt)

theorem bucketSlice_sliced (ascending : Ascending points) (forward : start ≤ stop) :
    ∃ pre post, points = pre ++ bucketSlice points (points.map Point.time) start stop ++ post ∧
      Sliced start stop pre (bucketSlice points (points.map Point.time) start stop) post := by
  have sorted := ascending_times ascending
  obtain ⟨fits, below, above⟩ := @lowerBound_spec _ start sorted
  obtain ⟨fits', below', above'⟩ := @lowerBound_spec _ stop sorted
  simp only [length_map, getElem_map] at fits below above fits' below' above'
  generalize first_eq : lowerBound (points.map Point.time) start = first at fits below above
  generalize after_eq : lowerBound (points.map Point.time) stop = after at fits' below' above'
  have order : first ≤ after := by
    by_contra behind
    have early := below after (by omega) (by omega)
    have late := above' after le_rfl (by omega)
    omega
  have slice_eq : bucketSlice points (points.map Point.time) start stop =
      (points.take (after + 1)).drop (first - 1) := by
    unfold bucketSlice
    dsimp only
    rw [first_eq, after_eq, min_comm, ← take_eq_take_min]
  have length_eq : ((points.take (after + 1)).drop (first - 1)).length =
      min (after + 1) points.length - (first - 1) := by
    rw [length_drop, length_take]
  rw [slice_eq]
  refine ⟨points.take (first - 1), points.drop (after + 1), ?_, ?_, ?_, ?_, ?_⟩
  · have shorter : (points.take (after + 1)).take (first - 1) = points.take (first - 1) := by
      rw [take_take, min_eq_left (by omega)]
    rw [← shorter, take_append_drop, take_append_drop]
  · intro p mem
    obtain ⟨j, lt, rfl⟩ := mem_take_iff_getElem.mp mem
    exact below j (by omega) (by omega)
  · intro p mem
    obtain ⟨j, lt, rfl⟩ := mem_drop_iff_getElem.mp mem
    exact above' _ (by omega) (by omega)
  · intro some
    have positive : 0 < first - 1 := by
      by_contra zero
      exact some (by rw [Nat.eq_zero_of_not_pos zero, take_zero])
    have inside : first - 1 < (points.take (after + 1)).length := by
      rw [length_take]
      omega
    refine ⟨_, _, drop_eq_getElem_cons inside, ?_⟩
    rw [getElem_take]
    exact below _ (by omega) (by omega)
  · intro some
    have inside : after < points.length := by
      by_contra outside
      exact some (drop_eq_nil_of_le (by omega))
    have nonempty : (points.take (after + 1)).drop (first - 1) ≠ [] := by
      rw [← length_pos_iff, length_eq]
      omega
    refine ⟨_, _, (dropLast_append_getLast nonempty).symm, ?_⟩
    rw [getLast_drop, getLast_take]
    simp only [Nat.add_sub_cancel, getElem?_eq_getElem inside, Option.getD_some]
    exact above' after le_rfl inside

end Slice

/-! ## Holds -/

section Holds

variable {q : SemanticQuery} {start stop : Int} {t : Totals} {p : Point} {pre rows post : List Point}

theorem overlap_early {a b : Int} (early : b ≤ start) : overlap a b start stop = 0 := by
  unfold overlap
  omega

theorem overlap_late {a b : Int} (late : stop ≤ a) : overlap a b start stop = 0 := by
  unfold overlap
  omega

theorem addHold_idle {next : Option Point}
    (idle : overlap p.time (min ((next.map Point.time).getD stop) (p.time + q.maxGapMs)) start stop =
      0) : addHold q start stop t p next = .ok t := by
  unfold addHold
  split
  · rfl
  · exact if_pos idle

theorem holdTotals_idle (idle : ∀ p ∈ rows, ∀ b, overlap p.time b start stop = 0) :
    holdTotals q start stop t rows = .ok t := by
  induction rows with
  | nil => rfl
  | cons p rest ih =>
    unfold holdTotals
    rw [addHold_idle (idle p mem_cons_self _)]
    exact ih fun r mem => idle r (mem_cons_of_mem _ mem)

theorem holdTotals_early (early : ∀ r ∈ pre, r.time < start) (first : p.time < start) :
    holdTotals q start stop t (pre ++ p :: rows) = holdTotals q start stop t (p :: rows) := by
  induction pre with
  | nil => rfl
  | cons r pre ih =>
    have next : ∃ n, (pre ++ p :: rows).head? = some n ∧ n.time < start := by
      cases pre with
      | nil => exact ⟨p, rfl, first⟩
      | cons n pre => exact ⟨n, rfl, early n (by simp)⟩
    obtain ⟨n, head, before⟩ := next
    rw [cons_append, holdTotals, head]
    have idle : overlap r.time (min (((some n).map Point.time).getD stop) (r.time + q.maxGapMs))
        start stop = 0 :=
      overlap_early ((min_le_left _ _).trans before.le)
    rw [addHold_idle idle]
    exact ih fun s mem => early s (mem_cons_of_mem _ mem)

theorem holdTotals_late (late : ∀ r ∈ post, stop ≤ r.time) (last : stop ≤ p.time) :
    holdTotals q start stop t (rows ++ [p] ++ post) = holdTotals q start stop t (rows ++ [p]) := by
  induction rows generalizing t with
  | nil =>
    have idle (rest : List Point) (after : ∀ r ∈ rest, stop ≤ r.time) :
        holdTotals q start stop t (p :: rest) = .ok t := by
      refine holdTotals_idle fun r mem b => overlap_late ?_
      rcases mem_cons.mp mem with rfl | mem
      · exact last
      · exact after r mem
    rw [nil_append, singleton_append, idle post late,
      idle [] (forall_mem_nil _)]
  | cons r rows ih =>
    have next : (rows ++ [p] ++ post).head? = (rows ++ [p]).head? := by
      cases rows <;> rfl
    rw [cons_append, cons_append, holdTotals, next, holdTotals]
    exact congrArg _ (funext fun t => ih)

theorem holdTotals_sliced {slice : List Point} (sliced : Sliced start stop pre slice post) :
    holdTotals q start stop t (pre ++ slice ++ post) = holdTotals q start stop t slice := by
  have drop_post : holdTotals q start stop t (pre ++ slice ++ post) =
      holdTotals q start stop t (pre ++ slice) := by
    by_cases nothing : post = []
    · rw [nothing, append_nil]
    · obtain ⟨rest, p, rfl, last⟩ := sliced.last nothing
      rw [← append_assoc]
      exact holdTotals_late sliced.late last
  rw [drop_post]
  by_cases nothing : pre = []
  · rw [nothing, nil_append]
  · obtain ⟨p, rest, rfl, first⟩ := sliced.head nothing
    exact holdTotals_early sliced.early first

end Holds

/-! ## Rows and histograms -/

section Rows

variable {q : SemanticQuery} {start stop : Int} {previous : Option Point} {p : Point}
  {pre slice rows post : List Point}

/-- Whether a row is outside a bucket. -/
def Point.outside (start stop : Int) (p : Point) : Prop := p.time < start ∨ stop ≤ p.time

theorem rowsInside_sliced (sliced : Sliced start stop pre slice post) :
    rowsInside (pre ++ slice ++ post) start stop = rowsInside slice start stop := by
  have none_early : rowsInside pre start stop = [] := by
    refine filter_eq_nil_iff.mpr fun p mem inside => ?_
    exact absurd (of_decide_eq_true inside).1 (not_le.mpr (sliced.early p mem))
  have none_late : rowsInside post start stop = [] := by
    refine filter_eq_nil_iff.mpr fun p mem inside => ?_
    exact absurd (of_decide_eq_true inside).2.1 (not_lt.mpr (sliced.late p mem))
  unfold rowsInside at *
  rw [filter_append, filter_append, none_early, none_late, nil_append,
    append_nil]

theorem histogramDeltas_outside (outside : p.outside start stop) :
    histogramDeltas q start stop previous (p :: rows) =
      histogramDeltas q start stop (some p) rows := by
  rw [histogramDeltas]
  exact if_pos outside

theorem histogramDeltas_nothing (outside : ∀ p ∈ rows, p.outside start stop) :
    histogramDeltas q start stop previous rows = .ok [] := by
  induction rows generalizing previous with
  | nil => rfl
  | cons p rest ih =>
    rw [histogramDeltas_outside (outside p mem_cons_self)]
    exact ih fun r mem => outside r (mem_cons_of_mem _ mem)

theorem histogramDeltas_late (outside : ∀ p ∈ post, p.outside start stop) :
    histogramDeltas q start stop previous (rows ++ post) =
      histogramDeltas q start stop previous rows := by
  induction rows generalizing previous with
  | nil => exact histogramDeltas_nothing outside
  | cons p rest ih =>
    rw [cons_append, histogramDeltas, histogramDeltas, ih]

theorem histogramDeltas_early (outside : ∀ r ∈ pre, r.outside start stop)
    (first : p.outside start stop) :
    histogramDeltas q start stop previous (pre ++ p :: rows) =
      histogramDeltas q start stop none (p :: rows) := by
  induction pre generalizing previous with
  | nil => rw [nil_append, histogramDeltas_outside first, histogramDeltas_outside first]
  | cons r pre ih =>
    rw [cons_append, histogramDeltas_outside (outside r mem_cons_self)]
    exact ih fun s mem => outside s (mem_cons_of_mem _ mem)

theorem histogramDeltas_sliced (sliced : Sliced start stop pre slice post) :
    histogramDeltas q start stop none (pre ++ slice ++ post) =
      histogramDeltas q start stop none slice := by
  rw [histogramDeltas_late fun p mem => .inr (sliced.late p mem)]
  by_cases nothing : pre = []
  · rw [nothing, nil_append]
  · obtain ⟨p, rest, rfl, first⟩ := sliced.head nothing
    exact histogramDeltas_early (fun r mem => .inl (sliced.early r mem)) (.inl first)

end Rows

/-! ## Ratios -/

section Ratio

variable {collate : String → String → Prop} [DecidableRel collate] {q : SemanticQuery}
  {start stop : Int} {points rows : List Point} {p : Point} {pre slice post : List Point}

theorem setTime_later (later : ∀ r ∈ rows, r.time < p.time) : setTime rows p = rows ++ [p] := by
  refine if_neg ?_
  rintro ⟨r, mem, same⟩
  exact absurd same (later r mem).ne

theorem foldl_setTime (ascending : Ascending (rows ++ points)) :
    points.foldl setTime rows = rows ++ points := by
  induction points generalizing rows with
  | nil => exact (append_nil rows).symm
  | cons p rest ih =>
    have later : ∀ r ∈ rows, r.time < p.time := fun r mem =>
      (pairwise_append.mp ascending).2.2 r mem p mem_cons_self
    rw [foldl_cons, setTime_later later, ih (by rwa [append_assoc]), append_assoc]
    rfl

theorem unique_of_ascending (ascending : Ascending points) : unique collate points = points := by
  have first : points.insertionSort (rowBefore collate) = points :=
    List.Pairwise.insertionSort_eq (ascending.imp fun lt => .inl lt)
  have last : points.insertionSort (fun a b => a.time ≤ b.time) = points :=
    List.Pairwise.insertionSort_eq (ascending.imp fun lt => le_of_lt lt)
  have kept : points.foldl setTime [] = points :=
    (foldl_setTime (show Ascending ([] ++ points) from ascending)).trans (nil_append _)
  unfold unique
  rw [first, kept, last]

theorem addPair_outside {t : RatioTotals} (outside : p.outside start stop) :
    addPair q rows start stop t p = .ok t :=
  if_pos (outside.elim .inl fun late => .inr (.inl late))

theorem foldlM_addPair_outside {t : RatioTotals} (outside : ∀ p ∈ points, p.outside start stop) :
    points.foldlM (addPair q rows start stop) t = .ok t := by
  induction points with
  | nil => rfl
  | cons p rest ih =>
    rw [foldlM_cons, addPair_outside (outside p mem_cons_self)]
    exact ih fun r mem => outside r (mem_cons_of_mem _ mem)

theorem find_sliced {instant : Int} (sliced : Sliced start stop pre slice post) (begun : start ≤ instant)
    (before : instant < stop) :
    (pre ++ slice ++ post).find? (fun d => d.time = instant) = slice.find? fun d => d.time = instant := by
  have none_early : pre.find? (fun d => d.time = instant) = none := by
    refine find?_eq_none.mpr fun p mem same => ?_
    have early := sliced.early p mem
    have same := of_decide_eq_true same
    omega
  have none_late : post.find? (fun d => d.time = instant) = none := by
    refine find?_eq_none.mpr fun p mem same => ?_
    have late := sliced.late p mem
    have same := of_decide_eq_true same
    omega
  rw [find?_append, find?_append, none_early, none_late, Option.none_or, Option.or_none]

theorem addPair_sliced {t : RatioTotals} (sliced : Sliced start stop pre slice post) :
    addPair q (pre ++ slice ++ post) start stop t p = addPair q slice start stop t p := by
  unfold addPair
  split
  · rfl
  next inside =>
    push Not at inside
    rw [find_sliced sliced inside.1 inside.2.1]

theorem foldlM_addPair_sliced {t : RatioTotals} (sliced : Sliced start stop pre slice post) :
    (pre ++ slice ++ post).foldlM (addPair q rows start stop) t =
      slice.foldlM (addPair q rows start stop) t := by
  rw [foldlM_append, foldlM_append,
    foldlM_addPair_outside fun p mem => .inl (sliced.early p mem)]
  change (slice.foldlM (addPair q rows start stop) t >>= fun t =>
    post.foldlM (addPair q rows start stop) t) = _
  cases slice.foldlM (addPair q rows start stop) t with
  | error e => rfl
  | ok t => exact foldlM_addPair_outside fun p mem => .inr (sliced.late p mem)

end Ratio

/-! ## Reducers -/

section Reduce

variable {collate : String → String → Prop} [DecidableRel collate] {q : SemanticQuery}
  {start stop : Int} {points : List Point} {pre slice post : List Point}

theorem reduceSeries_sliced (sliced : Sliced start stop pre slice post) :
    reduceSeries q (pre ++ slice ++ post) start stop = reduceSeries q slice start stop := by
  unfold reduceSeries reduceHolds
  rw [rowsInside_sliced sliced, holdTotals_sliced sliced, histogramDeltas_sliced sliced]

theorem reduceSeries_backward (backward : stop ≤ start) :
    reduceSeries q points start stop = reduceSeries q [] start stop := by
  have outside : ∀ p ∈ points, p.outside start stop := fun p _ => by
    unfold Point.outside
    omega
  have inside : rowsInside points start stop = rowsInside [] start stop := by
    refine filter_eq_nil_iff.mpr fun p mem inside => ?_
    have inside := of_decide_eq_true inside
    rcases outside p mem with early | late
    · exact absurd inside.1 (not_le.mpr early)
    · exact absurd inside.2.1 (not_lt.mpr late)
  have holds (rows : List Point) : holdTotals q start stop .zero rows = .ok .zero :=
    holdTotals_idle fun p mem b => by
      unfold overlap
      omega
  have deltas : histogramDeltas q start stop none points = histogramDeltas q start stop none [] :=
    histogramDeltas_nothing outside
  unfold reduceSeries reduceHolds
  rw [inside, holds points, holds [], deltas]

theorem ascending_slice (ascending : Ascending points) :
    Ascending (bucketSlice points (points.map Point.time) start stop) :=
  ascending.sublist ((drop_sublist _ _).trans (take_sublist _ _))

theorem reduceSeries_slice (ascending : Ascending points) :
    reduceSeries q (bucketSlice points (points.map Point.time) start stop) start stop =
      reduceSeries q points start stop := by
  rcases le_total start stop with forward | backward
  · obtain ⟨pre, post, whole, sliced⟩ := bucketSlice_sliced ascending forward
    conv_rhs => rw [whole]
    exact (reduceSeries_sliced sliced).symm
  · exact (reduceSeries_backward backward).trans (reduceSeries_backward backward).symm

theorem foldlM_addPair_slice {denominators : List Point} (t : RatioTotals)
    (ascending : Ascending points) (ascending' : Ascending denominators) :
    (bucketSlice points (points.map Point.time) start stop).foldlM (addPair q
        (bucketSlice denominators (denominators.map Point.time) start stop) start stop) t =
      points.foldlM (addPair q denominators start stop) t := by
  rcases le_total start stop with forward | backward
  · obtain ⟨pre, post, whole, sliced⟩ := bucketSlice_sliced ascending forward
    obtain ⟨pre', post', whole', sliced'⟩ := bucketSlice_sliced ascending' forward
    conv_rhs => rw [whole, whole']
    rw [foldlM_addPair_sliced sliced]
    congr 1
    exact funext fun t => funext fun p => (addPair_sliced sliced').symm
  · have outside (rows : List Point) : ∀ p ∈ rows, p.outside start stop := fun p _ => by
      unfold Point.outside
      omega
    rw [foldlM_addPair_outside (outside _), foldlM_addPair_outside (outside _)]

theorem ratioSeries_slice {denominators : List Point} (ascending : Ascending points)
    (ascending' : Ascending denominators) :
    ratioSeries collate q (bucketSlice points (points.map Point.time) start stop)
        (bucketSlice denominators (denominators.map Point.time) start stop) start stop =
      ratioSeries collate q points denominators start stop := by
  unfold ratioSeries
  rw [unique_of_ascending ascending, unique_of_ascending ascending',
    unique_of_ascending (ascending_slice ascending), unique_of_ascending (ascending_slice ascending'),
    foldlM_addPair_slice _ ascending ascending']

end Reduce

/-- **A bucket is reduced from its slice.**  For deduplicated rows in order, the reducers give for the
slice of a bucket the group, or the error, they give for the whole series. -/
theorem slice_reduces_alike (collate : String → String → Prop) [DecidableRel collate]
    (q : SemanticQuery) (points denominators : List Point) (start stop : Int)
    (ascending : Ascending points) (ascending' : Ascending denominators) :
    reduceSeries q (bucketSlice points (points.map Point.time) start stop) start stop =
        reduceSeries q points start stop ∧
      ratioSeries collate q (bucketSlice points (points.map Point.time) start stop)
          (bucketSlice denominators (denominators.map Point.time) start stop) start stop =
        ratioSeries collate q points denominators start stop :=
  ⟨reduceSeries_slice ascending, ratioSeries_slice ascending ascending'⟩

/-! ## A gauge of load -/

private def load : MetricDefinition where
  id := "host.load"
  semanticVersion := ⟨1, 0, 0⟩
  meaning := "load"
  unit := .one
  resourceType := .server
  scope := .resource
  kind := .gauge
  temporality := .instant
  monotonic := false
  valueType := .int64
  dimensions := ⟨[], 1, 64⟩
  aggregation := ⟨[.last, .mean], [.none], ⟨Binary64.ofInt 0, zero_inside⟩, .notApplicable⟩
  lifecycle := .active
  replacementId := none
  category := .canonical

/-- The load at a second. -/
private def loadAt (second : Nat) (value : Int) : Point where
  val :=
    { id := "load" ++ toString second
      resourceType := .server
      resourceId := "5"
      metric := load.ref
      dimensions := ⟨[], nodup_nil⟩
      observedAt := .ofMs (1000 * second)
      collectedAt := .ofMs (1000 * second)
      storedAt := none
      quality := ⟨.good, .none⟩
      accuracy := .exact
      production := .measured
      source := ⟨"binding", "metric", "collector", "attempt"⟩
      versions := ⟨⟨1, 0, 0⟩, "ssh", ⟨1, 0, 0⟩, ⟨1, 0, 0⟩, 1⟩
      counter := none
      unit := .one
      value := some (.scalar (.int64 value))
      origin := .normalized [] }
  property := rfl

private def loadMean : SemanticQuery where
  definition := load
  series := [⟨.server, "5", load.ref, ⟨[], nodup_nil⟩⟩]
  start := ⟨"1970-01-01T00:00:00Z", some 0⟩
  stop := ⟨"1970-01-01T00:02:00Z", some 120000⟩
  now := ⟨"1970-01-01T00:02:00Z", some 120000⟩
  intervalMs := 60000
  maxGapMs := 60000
  staleAfterMs := 60000
  bucketMs := some 60000
  mode := .mean
  space := .none
  weighting := some .time
  weights := none
  numerator := none
  denominator := none
  stateValue := none
  quantile := none

private def loads : List Point := [loadAt 10 4, loadAt 50 8, loadAt 70 2, loadAt 130 6]

/-- The second minute is reduced from the row before it, its own row and the row after it. -/
theorem slice_reduces_alike_load :
    reduceSeries loadMean (bucketSlice loads (loads.map Point.time) 60000 120000) 60000 120000 =
        reduceSeries loadMean loads 60000 120000 ∧
      ratioSeries (fun a b => a ≤ b) loadMean
          (bucketSlice loads (loads.map Point.time) 60000 120000)
          (bucketSlice loads (loads.map Point.time) 60000 120000) 60000 120000 =
        ratioSeries (fun a b => a ≤ b) loadMean loads loads 60000 120000 :=
  have ascending : Ascending loads := by
    unfold Ascending
    decide
  slice_reduces_alike _ loadMean loads loads 60000 120000 ascending ascending

example : (bucketSlice loads (loads.map Point.time) 60000 120000).map Point.time =
    [50000, 70000, 130000] := by rfl

end Slide.Metrics
