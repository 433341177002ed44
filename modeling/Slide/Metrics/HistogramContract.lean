import Mathlib.Algebra.Order.BigOperators.Group.List
import Slide.Metrics.Aggregate
import Slide.Metrics.NormalizeTotal
import Slide.Metrics.Slices

/-!
# Histograms that stay histograms

The buckets of a histogram are cumulative and end with its total.  Sums of such histograms are such
histograms again.  A difference is one exactly where no count moved down between two buckets, which
`histogramDelta` does not ask: it compares each bucket with itself only.
-/

namespace Slide.Metrics

open List

/-! ## The contract -/

section Contract

variable {total count : Nat} {bound : Option UpperBound} {buckets : List HistogramBucket}
  {h : HistogramValue}

/-- Upper bounds that increase from `bound` on and end with infinity. -/
def AscendingBounds : List UpperBound → Option UpperBound → Prop
  | [], bound => bound = some .infinity
  | next :: rest, bound => next.exceeds bound = true ∧ AscendingBounds rest (some next)

/-- Counts that do not fall and end with a total. -/
structure Cumulative (counts : List Nat) (total : Nat) : Prop where
  chain : counts.IsChain (· ≤ ·)
  ends : counts.getLast? = some total

theorem Cumulative.le {counts : List Nat} (cumulative : Cumulative counts total) {n : Nat}
    (mem : n ∈ counts) : n ≤ total := by
  obtain ⟨chain, ends⟩ := cumulative
  obtain ⟨before, rfl⟩ := getLast?_eq_some_iff.mp ends
  rcases mem_append.mp mem with early | last
  · exact (pairwise_append.mp chain.pairwise).2.2 n early total (mem_singleton_self _)
  · exact (mem_singleton.mp last).le

theorem validateBuckets_iff : validateBuckets total buckets bound count = .ok () ↔
    AscendingBounds (buckets.map HistogramBucket.upperBound) bound ∧
      Cumulative (count :: buckets.map HistogramBucket.count) total := by
  induction buckets generalizing bound count with
  | nil =>
    rw [validateBuckets, requireRule_ok]
    refine and_congr_right' ⟨fun same => ?_, fun cumulative => ?_⟩
    · rw [same]
      exact ⟨.singleton _, rfl⟩
    · exact some.inj cumulative.ends
  | cons bucket rest ih =>
    rw [validateBuckets, requireRule_bind, ih]
    simp only [map_cons]
    constructor
    · rintro ⟨⟨above, le, -⟩, bounds, cumulative⟩
      refine ⟨⟨above, bounds⟩, isChain_cons_cons.mpr ⟨le, cumulative.chain⟩, ?_⟩
      exact cumulative.ends
    · rintro ⟨⟨above, bounds⟩, cumulative⟩
      obtain ⟨le, chain⟩ := isChain_cons_cons.mp cumulative.chain
      exact ⟨⟨above, le, cumulative.le (by simp)⟩, bounds, chain, cumulative.ends⟩

def HistogramValue.bounds (h : HistogramValue) : List UpperBound :=
  h.buckets.map HistogramBucket.upperBound

def HistogramValue.counts (h : HistogramValue) : List Nat := h.buckets.map HistogramBucket.count

/-- The histogram contract: the bounds increase strictly and end with infinity, the counts of the
buckets are cumulative, none above the total and the last one equal to it. -/
structure HistogramValue.Valid (h : HistogramValue) : Prop where
  total : h.count < 2 ^ 64
  bounds : AscendingBounds h.bounds none
  counts : Cumulative h.counts h.count

theorem validateValue_histogram :
    validateValue (.histogram h) = .ok () ↔ h.Valid := by
  unfold validateValue
  dsimp only
  rw [requireRule_bind, validateBuckets_iff]
  have start {counts : List Nat} (some : counts ≠ []) :
      Cumulative (0 :: counts) h.count ↔ Cumulative counts h.count := by
    obtain ⟨first, rest, rfl⟩ := exists_cons_of_ne_nil some
    exact ⟨fun ⟨chain, ends⟩ => ⟨(isChain_cons_cons.mp chain).2, ends⟩,
      fun ⟨chain, ends⟩ => ⟨isChain_cons_cons.mpr ⟨Nat.zero_le _, chain⟩, ends⟩⟩
  have nonempty (bounds : AscendingBounds h.bounds none) : h.counts ≠ [] := by
    unfold HistogramValue.counts
    unfold HistogramValue.bounds at bounds
    cases same : h.buckets with
    | nil =>
      rw [same] at bounds
      cases bounds
    | cons => exact cons_ne_nil _ _
  constructor
  · rintro ⟨total, bounds, counts⟩
    exact ⟨total, bounds, (start (nonempty bounds)).mp counts⟩
  · rintro ⟨total, bounds, counts⟩
    exact ⟨total, bounds, (start (nonempty bounds)).mpr counts⟩

end Contract

/-! ## Sums -/

section Merge

variable {first : Group × HistogramValue} {rest : List (Group × HistogramValue)} {g : Group}
  {h : HistogramValue} {groups : List Group}

theorem length_of_sameBounds {a b : List HistogramBucket} (same : sameBounds a b = true) :
    a.length = b.length := by
  induction a generalizing b with
  | nil =>
    cases b with
    | nil => rfl
    | cons => cases same
  | cons x a ih =>
    cases b with
    | nil => cases same
    | cons y b => exact congrArg (· + 1) (ih (Bool.and_eq_true_iff.mp same).2)

theorem Cumulative.last {counts : List Nat} {total : Nat} (cumulative : Cumulative counts total) :
    0 < counts.length ∧ counts[counts.length - 1]? = some total := by
  obtain ⟨-, ends⟩ := cumulative
  rw [getLast?_eq_getElem?] at ends
  refine ⟨Nat.pos_of_ne_zero fun zero => ?_, ends⟩
  rw [eq_nil_of_length_eq_zero zero] at ends
  cases ends

theorem cumulative_sum {ι : Type} (all : List ι) (counts : ι → List Nat) (total : ι → Nat) {n : Nat}
    (positive : 0 < n) (size : ∀ i ∈ all, (counts i).length = n)
    (cumulative : ∀ i ∈ all, Cumulative (counts i) (total i)) :
    Cumulative ((List.range n).map fun k => (all.map fun i => ((counts i)[k]?).getD 0).sum)
      (all.map total).sum where
  chain := by
    rw [isChain_iff_getElem]
    intro k inside
    rw [length_map, length_range] at inside
    simp only [getElem_map, getElem_range]
    refine sum_le_sum fun i mem => ?_
    have length := size i mem
    rw [getElem?_eq_getElem (by omega), getElem?_eq_getElem (by omega)]
    exact isChain_iff_getElem.mp (cumulative i mem).chain k (by omega)
  ends := by
    obtain ⟨m, rfl⟩ : ∃ m, n = m + 1 := ⟨n - 1, by omega⟩
    rw [range_succ, map_append, map_singleton, getLast?_concat]
    refine congrArg some (congrArg List.sum (map_congr_left fun i mem => ?_))
    have ends := (cumulative i mem).last.2
    rw [size i mem] at ends
    rw [show m = m + 1 - 1 by omega, ends]
    rfl

theorem mergeAvailable_histogram (ok : mergeAvailable first rest = .ok g)
    (found : g.histogram = some h) :
    (∀ other ∈ rest, sameBounds other.2.buckets first.2.buckets = true) ∧ h.count < 2 ^ 64 ∧
      h.count = ((first :: rest).map fun g => g.2.count).sum ∧ h.bounds = first.2.bounds ∧
      h.counts = (List.range first.2.buckets.length).map fun k =>
        ((first :: rest).map fun g => ((g.2.counts)[k]?).getD 0).sum := by
  unfold mergeAvailable at ok
  dsimp only at ok
  split at ok
  next => cases ok
  next same =>
    split at ok
    next => cases ok
    next small =>
      split at ok
      next =>
        obtain rfl := Except.ok.inj ok
        obtain rfl := some.inj found
        refine ⟨not_not.mp same, not_le.mp small, rfl, ?_, ?_⟩
        · unfold HistogramValue.bounds
          exact ext_getElem (by simp) fun k _ _ => by simp
        · unfold HistogramValue.counts
          refine ext_getElem (by simp) fun k _ _ => ?_
          simp only [getElem_map, getElem_mapIdx, getElem_range, getElem?_map]
      next => cases ok

theorem mergeAvailable_valid (ok : mergeAvailable first rest = .ok g) (found : g.histogram = some h)
    (valid : ∀ other ∈ first :: rest, other.2.Valid) : h.Valid := by
  obtain ⟨same, small, total, bounds, counts⟩ := mergeAvailable_histogram ok found
  have start := valid first mem_cons_self
  have positive : 0 < first.2.buckets.length := by
    have length := start.counts.last.1
    unfold HistogramValue.counts at length
    rwa [length_map] at length
  refine ⟨small, bounds ▸ start.bounds, ?_⟩
  rw [counts, total]
  refine cumulative_sum (first :: rest) (fun g => g.2.counts) (fun g => g.2.count) positive
    (fun other mem => ?_) fun other mem => (valid other mem).counts
  unfold HistogramValue.counts
  rw [length_map]
  rcases mem_cons.mp mem with rfl | mem
  · rfl
  · exact length_of_sameBounds (same other mem)

theorem mergeHistograms_valid (ok : mergeHistograms groups = .ok g) (found : g.histogram = some h)
    (valid : ∀ group ∈ groups, ∀ h ∈ group.histogram, h.Valid) : h.Valid := by
  unfold mergeHistograms at ok
  split at ok
  next =>
    obtain rfl := Except.ok.inj ok
    cases found
  next first rest available =>
    refine mergeAvailable_valid ok found fun other mem => ?_
    rw [← available] at mem
    obtain ⟨group, among, paired⟩ := mem_filterMap.mp mem
    obtain ⟨h', given, rfl⟩ := Option.map_eq_some_iff.mp paired
    exact valid group among h' given

end Merge

/-! ## Differences -/

/-- The branch of `histogramDelta` that subtracts the histogram of the row before. -/
structure Subtracted (d : MetricDefinition) (maxGapMs : Int) (previous : Option Point)
    (current : Point) (a b : HistogramValue) : Prop where
  cumulative : d.temporality = .cumulative
  after : current.histogram = some b
  before : ∃ last, previous = some last ∧ last.histogram = some a ∧
    Point.period last = Point.period current ∧ current.time - last.time ≤ maxGapMs
  bounds : sameBounds a.buckets b.buckets = true
  total : a.count ≤ b.count
  buckets : ∀ pair ∈ List.zip a.buckets b.buckets, pair.1.count ≤ pair.2.count
  finite : (b.sum.val - a.sum.val).isFinite = true

/-- Each bucket has grown at least as much as the one under it: no count moved down. -/
def Steady (a b : HistogramValue) : Prop :=
  ∀ k x x' y y', a.counts[k]? = some x → a.counts[k + 1]? = some x' → b.counts[k]? = some y →
    b.counts[k + 1]? = some y' → x' + y ≤ x + y'

/-- The histogram of a difference. -/
def difference (a b : HistogramValue) (finite : (b.sum.val - a.sum.val).isFinite = true) :
    HistogramValue :=
  ⟨b.count - a.count, ⟨b.sum.val - a.sum.val, finite⟩, subtractBuckets a.buckets b.buckets⟩

section Delta

variable {d : MetricDefinition} {maxGapMs : Int} {previous : Option Point} {current : Point}
  {a b h : HistogramValue} {g : Group}

theorem Subtracted.delta (s : Subtracted d maxGapMs previous current a b) :
    ∃ g, histogramDelta previous current d maxGapMs = .ok g ∧
      g.histogram = some (difference a b s.finite) := by
  obtain ⟨last, rfl, before, period, near⟩ := s.before
  unfold histogramDelta
  rw [s.after]
  dsimp only
  rw [if_neg (not_not.mpr s.cumulative), Option.bind_some, before]
  dsimp only
  have kept : ¬ (Point.period last ≠ Point.period current ∨ maxGapMs < current.time - last.time) :=
    fun broken => broken.elim (fun other => other period) fun far => absurd far (not_lt.mpr near)
  have grown : ¬ (b.count < a.count ∨ ∃ pair ∈ List.zip a.buckets b.buckets,
      pair.2.count < pair.1.count) := fun fallen =>
    fallen.elim (fun lt => absurd lt (not_lt.mpr s.total)) fun ⟨pair, mem, lt⟩ =>
      absurd lt (not_lt.mpr (s.buckets pair mem))
  rw [if_neg kept, if_neg (not_not.mpr s.bounds), if_neg grown, dif_pos s.finite]
  exact ⟨_, rfl, rfl⟩

theorem histogramDelta_cases (ok : histogramDelta previous current d maxGapMs = .ok g)
    (found : g.histogram = some h) : current.histogram = some h ∨
      ∃ a b, ∃ s : Subtracted d maxGapMs previous current a b, h = difference a b s.finite := by
  unfold histogramDelta at ok
  split at ok
  next =>
    obtain rfl := Except.ok.inj ok
    cases found
  next b after =>
    split at ok
    next =>
      obtain rfl := Except.ok.inj ok
      exact .inl (found ▸ after)
    next cumulative =>
      split at ok
      next last a before =>
        rw [Option.bind_some] at before
        split at ok
        next =>
          obtain rfl := Except.ok.inj ok
          cases found
        next kept =>
          split at ok
          next => cases ok
          next bounds =>
            split at ok
            next =>
              obtain rfl := Except.ok.inj ok
              cases found
            next grown =>
              split at ok
              next finite =>
                obtain rfl := Except.ok.inj ok
                push Not at kept grown
                exact .inr ⟨a, b, ⟨not_not.mp cumulative, after, ⟨last, rfl, before, kept.1, kept.2⟩,
                  not_not.mp bounds, grown.1, grown.2, finite⟩, (some.inj found).symm⟩
              next =>
                obtain rfl := Except.ok.inj ok
                cases found
      next =>
        obtain rfl := Except.ok.inj ok
        cases found

theorem difference_counts (finite : (b.sum.val - a.sum.val).isFinite = true) :
    (difference a b finite).counts = List.zipWith (fun x y => y - x) a.counts b.counts := by
  unfold HistogramValue.counts difference subtractBuckets
  rw [map_zipWith, zipWith_map]

theorem difference_bounds (finite : (b.sum.val - a.sum.val).isFinite = true)
    (same : sameBounds a.buckets b.buckets = true) : (difference a b finite).bounds = b.bounds := by
  have length := length_of_sameBounds same
  unfold HistogramValue.bounds difference subtractBuckets
  refine ext_getElem (by simp [length]) fun k _ _ => ?_
  simp only [getElem_map, getElem_zipWith]

theorem difference_valid_iff (s : Subtracted d maxGapMs previous current a b) (valid : a.Valid)
    (valid' : b.Valid) : (difference a b s.finite).Valid ↔ Steady a b := by
  have length : a.counts.length = b.counts.length := by
    unfold HistogramValue.counts
    rw [length_map, length_map]
    exact length_of_sameBounds s.bounds
  have grown (k : Nat) (inside : k < a.counts.length) (inside' : k < b.counts.length) :
      a.counts[k] ≤ b.counts[k] := by
    unfold HistogramValue.counts at inside inside' ⊢
    rw [getElem_map, getElem_map]
    rw [length_map] at inside inside'
    exact s.buckets (a.buckets[k], b.buckets[k])
      (mem_iff_getElem.mpr ⟨k, by rw [length_zip]; omega, getElem_zip⟩)
  constructor
  · intro result k x x' y y' hx hx' hy hy'
    obtain ⟨inside, rfl⟩ := List.getElem?_eq_some_iff.mp hx'
    obtain ⟨within, rfl⟩ := List.getElem?_eq_some_iff.mp hx
    obtain ⟨inside', rfl⟩ := List.getElem?_eq_some_iff.mp hy'
    obtain ⟨within', rfl⟩ := List.getElem?_eq_some_iff.mp hy
    have chain := result.counts.chain
    rw [difference_counts, isChain_iff_getElem] at chain
    have rises := chain k (by rw [length_zipWith]; omega)
    simp only [getElem_zipWith] at rises
    have le := grown k within within'
    have le' := grown (k + 1) inside inside'
    omega
  · intro steady
    obtain ⟨positive, ends⟩ := valid.counts.last
    obtain ⟨-, ends'⟩ := valid'.counts.last
    refine ⟨(Nat.sub_le _ _).trans_lt valid'.total, ?_, ?_, ?_⟩
    · rw [difference_bounds s.finite s.bounds]
      exact valid'.bounds
    · rw [difference_counts, isChain_iff_getElem]
      intro k inside
      rw [length_zipWith] at inside
      simp only [getElem_zipWith]
      have rises := steady k _ _ _ _ (getElem?_eq_getElem (by omega))
        (getElem?_eq_getElem (by omega)) (getElem?_eq_getElem (by omega))
        (getElem?_eq_getElem (by omega))
      have le := grown k (by omega) (by omega)
      have le' := grown (k + 1) (by omega) (by omega)
      omega
    · rw [difference_counts, getLast?_eq_getElem?, length_zipWith, ← length, min_self,
        getElem?_zipWith, ends, length, ends']
      rfl

end Delta

/-! ## Rows and the rows before them -/

/-- The rows of a list, each with the row before it. -/
def withPrevious : Option Point → List Point → List (Option Point × Point)
  | _, [] => []
  | previous, p :: rest => (previous, p) :: withPrevious (some p) rest

section Pairs

variable {previous : Option Point} {points rows pre slice post : List Point} {p : Point}
  {pair : Option Point × Point} {start stop : Int}

theorem mem_of_withPrevious (mem : pair ∈ withPrevious previous points) :
    pair.2 ∈ points ∧ ∀ last ∈ pair.1, previous = some last ∨ last ∈ points := by
  induction points generalizing previous with
  | nil => cases mem
  | cons p rest ih =>
    rcases mem_cons.mp mem with rfl | mem
    · exact ⟨mem_cons_self, fun last same => .inl same⟩
    · obtain ⟨second, first⟩ := ih mem
      refine ⟨mem_cons_of_mem _ second, fun last same => .inr ?_⟩
      rcases first last same with same | mem
      · exact some.inj same ▸ mem_cons_self
      · exact mem_cons_of_mem _ mem

theorem withPrevious_append : withPrevious previous (pre ++ p :: rows) =
    withPrevious previous (pre ++ [p]) ++ withPrevious (some p) rows := by
  induction pre generalizing previous with
  | nil => rfl
  | cons r pre ih =>
    rw [cons_append, cons_append, withPrevious, withPrevious, ih, cons_append]

theorem mem_withPrevious_late (outside : ∀ p ∈ post, p.outside start stop)
    (inside : ¬ pair.2.outside start stop) :
    pair ∈ withPrevious previous (rows ++ post) ↔ pair ∈ withPrevious previous rows := by
  induction rows generalizing previous with
  | nil =>
    exact iff_of_false (fun mem => inside (outside _ (mem_of_withPrevious mem).1))
      not_mem_nil
  | cons p rest ih => simp only [cons_append, withPrevious, mem_cons, ih]

theorem mem_withPrevious_sliced (sliced : Sliced start stop pre slice post)
    (inside : ¬ pair.2.outside start stop) :
    pair ∈ withPrevious none (pre ++ slice ++ post) ↔ pair ∈ withPrevious none slice := by
  rw [mem_withPrevious_late (fun p mem => .inr (sliced.late p mem)) inside]
  by_cases nothing : pre = []
  · rw [nothing, nil_append]
  · obtain ⟨p, rest, rfl, first⟩ := sliced.head nothing
    have early : pair ∉ withPrevious none (pre ++ [p]) := fun mem => by
      rcases mem_append.mp (mem_of_withPrevious mem).1 with before | same
      · exact inside (.inl (sliced.early _ before))
      · exact inside (.inl (mem_singleton.mp same ▸ first))
    have other : pair ≠ (none, p) := fun same => inside (.inl (same ▸ first))
    rw [withPrevious_append, mem_append, or_iff_right early, withPrevious, mem_cons,
      or_iff_right other]

end Pairs

section Rows

variable {collate : String → String → Prop} [DecidableRel collate] {q : SemanticQuery}
  {previous : Option Point} {points rows : List Point} {p r : Point} {start stop : Int} {g : Group}
  {deltas : List Group}

theorem setTime_times : (setTime rows r).map Point.time =
    if r.time ∈ rows.map Point.time then rows.map Point.time
    else rows.map Point.time ++ [r.time] := by
  unfold setTime
  by_cases found : ∃ s ∈ rows, s.time = r.time
  · rw [if_pos found, if_pos (mem_map.mpr found), map_map]
    refine map_congr_left fun s _ => ?_
    change (if s.time = r.time then r else s).time = s.time
    split
    next same => exact same.symm
    next => rfl
  · rw [if_neg found, if_neg (mt mem_map.mp found), map_append]
    rfl

theorem mem_setTime (mem : p ∈ setTime rows r) : p ∈ rows ∨ p = r := by
  unfold setTime at mem
  split at mem
  · obtain ⟨s, among, rfl⟩ := mem_map.mp mem
    split
    · exact .inr rfl
    · exact .inl among
  · exact (mem_append.mp mem).imp_right mem_singleton.mp

theorem foldl_setTime_spec (distinct : (rows.map Point.time).Nodup) :
    ((points.foldl setTime rows).map Point.time).Nodup ∧
      ∀ p ∈ points.foldl setTime rows, p ∈ rows ∨ p ∈ points := by
  induction points generalizing rows with
  | nil => exact ⟨distinct, fun p mem => .inl mem⟩
  | cons r rest ih =>
    have next : ((setTime rows r).map Point.time).Nodup := by
      rw [setTime_times]
      split
      · exact distinct
      next fresh => exact nodup_append.mpr ⟨distinct, nodup_singleton _,
          fun a mem b same other => fresh (mem_singleton.mp same ▸ other ▸ mem)⟩
    obtain ⟨times, among⟩ := ih next
    refine ⟨times, fun p mem => ?_⟩
    rcases among p mem with mem | mem
    · rcases mem_setTime mem with mem | rfl
      · exact .inl mem
      · exact .inr mem_cons_self
    · exact .inr (mem_cons_of_mem _ mem)

theorem unique_ascending : Ascending (unique collate points) := by
  obtain ⟨distinct, -⟩ :=
    @foldl_setTime_spec (points.insertionSort (rowBefore collate)) [] nodup_nil
  have ordered : (unique collate points).Pairwise fun a b => a.time ≤ b.time :=
    pairwise_insertionSort _ _
  have different : (unique collate points).Pairwise fun a b => a.time ≠ b.time :=
    pairwise_map.mp (((perm_insertionSort _ _).map Point.time).nodup_iff.mpr distinct)
  exact (ordered.and different).imp fun both => lt_of_le_of_ne both.1 both.2

theorem mem_of_unique (mem : p ∈ unique collate points) : p ∈ points := by
  obtain ⟨-, among⟩ :=
    @foldl_setTime_spec (points.insertionSort (rowBefore collate)) [] nodup_nil
  rcases among p ((perm_insertionSort _ _).mem_iff.mp mem) with absent | mem
  · cases absent
  · exact (perm_insertionSort _ _).mem_iff.mp mem

theorem histogramDeltas_mem (ok : histogramDeltas q start stop previous points = .ok deltas)
    (mem : g ∈ deltas) : ∃ pair ∈ withPrevious previous points, ¬ pair.2.outside start stop ∧
      histogramDelta pair.1 pair.2 q.definition q.maxGapMs = .ok g := by
  induction points generalizing previous deltas with
  | nil =>
    obtain rfl := Except.ok.inj ok
    cases mem
  | cons p rest ih =>
    rw [histogramDeltas] at ok
    split at ok
    next =>
      obtain ⟨pair, among, made⟩ := ih ok mem
      exact ⟨pair, mem_cons_of_mem _ among, made⟩
    next inside =>
      obtain ⟨delta, made, ok⟩ := bind_eq_ok.mp ok
      obtain ⟨later, others, ok⟩ := bind_eq_ok.mp ok
      obtain rfl := Except.ok.inj ok
      have either : g = delta ∨ g ∈ later := by
        split at mem
        · exact .inr mem
        · exact mem_cons.mp mem
      rcases either with rfl | mem
      · exact ⟨(previous, p), mem_cons_self, inside, made⟩
      · obtain ⟨pair, among, made⟩ := ih others mem
        exact ⟨pair, mem_cons_of_mem _ among, made⟩

end Rows

/-! ## Buckets of a query -/

section Windows

variable {start stop step instant : Int} {window : Int × Int}

theorem slotCount_eq (positive : 0 < step) (duration : Int) :
    step * slotCount duration step < duration + step ∧ duration ≤ step * slotCount duration step := by
  unfold slotCount
  have division := Int.mul_ediv_add_emod (-duration) step
  have low := Int.emod_nonneg (-duration) positive.ne'
  have high := Int.emod_lt_of_pos (-duration) positive
  rw [mul_neg]
  omega

theorem mem_windows (positive : 0 < step) (mem : window ∈ windows start stop step) :
    start ≤ window.1 ∧ window.1 < window.2 ∧ window.2 ≤ stop := by
  obtain ⟨k, inside, rfl⟩ := mem_map.mp mem
  have below : (k : Int) + 1 ≤ slotCount (stop - start) step := by
    have lt := mem_range.mp inside
    omega
  have bound := (slotCount_eq positive (stop - start)).1
  have scaled : step * ((k : Int) + 1) ≤ step * slotCount (stop - start) step :=
    mul_le_mul_of_nonneg_left below positive.le
  have reached : 0 ≤ (k : Int) * step := mul_nonneg (Int.natCast_nonneg k) positive.le
  have expand : step * ((k : Int) + 1) = k * step + step := by ring
  dsimp only
  omega

theorem windows_cover (positive : 0 < step) (begun : start ≤ instant) (before : instant < stop) :
    ∃ window ∈ windows start stop step, window.1 ≤ instant ∧ instant < window.2 := by
  have division := Int.mul_ediv_add_emod (instant - start) step
  have low := Int.emod_nonneg (instant - start) positive.ne'
  have high := Int.emod_lt_of_pos (instant - start) positive
  have natural : 0 ≤ (instant - start) / step := Int.ediv_nonneg (by omega) positive.le
  have cast : (((instant - start) / step).toNat : Int) = (instant - start) / step :=
    Int.toNat_of_nonneg natural
  have bound := (slotCount_eq positive (stop - start)).2
  have few : (instant - start) / step < slotCount (stop - start) step := by
    by_contra many
    have scaled : step * slotCount (stop - start) step ≤ step * ((instant - start) / step) :=
      mul_le_mul_of_nonneg_left (not_lt.mp many) positive.le
    omega
  refine ⟨_, mem_map_of_mem (mem_range.mpr (show ((instant - start) / step).toNat < _ by omega)),
    ?_⟩
  dsimp only
  rw [cast, mul_comm]
  omega

end Windows

theorem window_of_query {q : SemanticQuery} (valid : validateQuery q = .ok ()) :
    ∃ start stop step, q.window = some (start, stop) ∧ 0 < step ∧
      q.buckets = windows start stop step := by
  unfold validateQuery at valid
  obtain ⟨_, -, valid⟩ := bind_eq_ok.mp valid
  rw [requireRule_bind] at valid
  obtain ⟨⟨⟨start, stop⟩, given, forward, -, -, -, -, numbers⟩, -⟩ := valid
  have window : q.window = some (start, stop) := given
  refine ⟨start, stop, q.bucketMs.getD (stop - start), window, ?_, ?_⟩
  · cases asked : q.bucketMs with
    | none =>
      change 0 < stop - start
      omega
    | some step =>
      have positive := numbers (q.bucketMs.getD q.intervalMs) (by simp)
      rw [asked] at positive
      exact positive.1
  · unfold SemanticQuery.buckets
    rw [window]

/-! ## What a query produces -/

section Produce

variable (collate : String → String → Prop) [DecidableRel collate]
  (digest : IdentityPreimage → String) (q : SemanticQuery) (data denominators : List (List Point))

/-- A histogram some call makes for a query: of a row over the row before it, merged over the bucket
of a series, merged over space, or emitted as the value of a bucket. -/
inductive Produced : HistogramValue → Prop
  | delta {rows : List Point} {window : Int × Int} {pair : Option Point × Point} {g : Group}
      {h : HistogramValue} :
    rows ∈ data → window ∈ q.buckets →
    pair ∈ withPrevious none (sliceOf (unique collate rows) window) →
    ¬ pair.2.outside window.1 window.2 →
    histogramDelta pair.1 pair.2 q.definition q.maxGapMs = .ok g → g.histogram = some h → Produced h
  | series {rows : List Point} {window : Int × Int} {g : Group} {h : HistogramValue} :
    rows ∈ data → window ∈ q.buckets →
    reduceSeries q (sliceOf (unique collate rows) window) window.1 window.2 = .ok g →
    g.histogram = some h → Produced h
  | space {prepared : List PreparedSeries} {window : Int × Int} {g : Group} {h : HistogramValue} :
    prepare collate digest q data denominators = .ok prepared → window ∈ q.buckets →
    bucketGroup collate q prepared window = .ok g → g.histogram = some h → Produced h
  | bucket {buckets : List SemanticBucket} {b : SemanticBucket} {h : HistogramValue} :
    aggregate collate digest q data denominators = .ok buckets → b ∈ buckets →
    b.value = some (.histogram h) → Produced h

/-- Between the rows of the window that are subtracted, no count moved down. -/
def SteadyData : Prop :=
  ∀ window ∈ q.window, ∀ rows ∈ data, ∀ pair ∈ withPrevious none (unique collate rows),
    ¬ pair.2.outside window.1 window.2 → ∀ a b,
    Subtracted q.definition q.maxGapMs pair.1 pair.2 a b → Steady a b

end Produce

section Validity

variable {collate : String → String → Prop} [DecidableRel collate]
  {digest : IdentityPreimage → String} {q : SemanticQuery} {data denominators : List (List Point)}
  {window : Int × Int} {rows : List Point} {p : Point} {pair : Option Point × Point} {g : Group}
  {h : HistogramValue}

theorem histogram_valid {d : MetricDefinition} (valid : validateObservation digest p.val d = .ok ())
    (found : p.histogram = some h) : h.Valid := by
  unfold Point.histogram at found
  split at found
  next value given =>
    have present := (validateObservation_iff.mp valid).present _ given
    unfold validatePresent at present
    obtain ⟨_, checked, -⟩ := bind_eq_ok.mp present
    split at found
    next => exact some.inj found ▸ validateValue_histogram.mp checked
    next => cases found
  next => cases found

theorem withPrevious_slice (forward : window.1 ≤ window.2) (inside : ¬ pair.2.outside window.1 window.2) :
    pair ∈ withPrevious none (sliceOf (unique collate rows) window) ↔
      pair ∈ withPrevious none (unique collate rows) := by
  have ascending : Ascending (unique collate rows) := unique_ascending
  obtain ⟨pre, post, whole, sliced⟩ := bucketSlice_sliced ascending forward
  conv_rhs => rw [whole]
  exact (mem_withPrevious_sliced sliced inside).symm

theorem reduceSeries_histogram {start stop : Int} {points : List Point}
    (ok : reduceSeries q points start stop = .ok g) (found : g.histogram = some h) :
    ∃ deltas merged, histogramDeltas q start stop none points = .ok deltas ∧
      mergeHistograms deltas = .ok merged ∧ merged.histogram = some h := by
  unfold reduceSeries at ok
  dsimp only at ok
  split at ok
  next =>
    obtain ⟨t, -, ok⟩ := bind_eq_ok.mp ok
    obtain rfl := Except.ok.inj ok
    unfold Totals.group at found
    split at found
    next => cases found
    next => cases found
  next =>
    split at ok
    next =>
      obtain rfl := Except.ok.inj ok
      unfold reduceSummary at found
      split at found
      next => cases found
      next => cases found
    next =>
      split at ok
      next =>
        obtain ⟨deltas, made, ok⟩ := bind_eq_ok.mp ok
        obtain ⟨merged, sums, ok⟩ := bind_eq_ok.mp ok
        obtain rfl := Except.ok.inj ok
        exact ⟨deltas, merged, made, sums, found⟩
      next =>
        obtain ⟨values, -, ok⟩ := bind_eq_ok.mp ok
        cases values with
        | nil | cons =>
          obtain rfl := Except.ok.inj ok
          cases found

theorem spatial_histogram {groups : List Group} (ok : spatial q groups = .ok g)
    (found : g.histogram = some h) : g ∈ groups ∨
      ∃ good merged, (∀ g ∈ good, g ∈ groups) ∧ mergeHistograms good = .ok merged ∧
        merged.histogram = some h := by
  unfold spatial at ok
  dsimp only at ok
  split at ok
  next =>
    obtain rfl := Except.ok.inj ok
    cases found
  next first rest good =>
    split at ok
    next =>
      split at ok
      next => cases ok
      next =>
        obtain rfl := Except.ok.inj ok
        have among : first ∈ groups.filter Group.present := good ▸ mem_cons_self
        exact .inl (mem_of_mem_filter among)
    next =>
      split at ok
      next =>
        obtain ⟨merged, sums, ok⟩ := bind_eq_ok.mp ok
        obtain rfl := Except.ok.inj ok
        exact .inr ⟨_, merged, fun g mem => mem_of_mem_filter mem, sums, found⟩
      next =>
        obtain ⟨value, -, ok⟩ := bind_eq_ok.mp ok
        obtain rfl := Except.ok.inj ok
        cases found

theorem scaled_ne_histogram {value : Option Rational} {v : BucketValue}
    (ok : Group.valueOf.scaled q g value = .ok v) : v.value ≠ some (.histogram h) := by
  intro stored
  unfold Group.valueOf.scaled at ok
  split at ok
  next =>
    obtain rfl := Except.ok.inj ok
    cases stored
  next =>
    obtain ⟨encoded, -, ok⟩ := bind_eq_ok.mp ok
    obtain rfl := Except.ok.inj ok
    obtain ⟨scalar, -, same⟩ := Option.map_eq_some_iff.mp stored
    cases same

theorem valueOf_histogram {v : BucketValue} (ok : g.valueOf q = .ok v)
    (stored : v.value = some (.histogram h)) : g.histogram = some h := by
  unfold Group.valueOf at ok
  split at ok
  next =>
    obtain rfl := Except.ok.inj ok
    cases stored
  next own value _ given =>
    split at ok
    next =>
      obtain rfl := Except.ok.inj ok
      obtain rfl := MetricValue.histogram.inj (some.inj stored)
      exact given
    next =>
      split at ok
      next =>
        split at ok
        next =>
          split at ok
          next =>
            split at ok
            all_goals
              obtain rfl := Except.ok.inj ok
              cases stored
          next => cases ok
        next => cases ok
      next => exact absurd stored (scaled_ne_histogram ok)
  next => exact absurd stored (scaled_ne_histogram ok)

theorem tell_histogram {b : SemanticBucket} (ok : tell q window g = .ok b)
    (emitted : b.value = some (.histogram h)) : g.histogram = some h := by
  unfold tell at ok
  obtain ⟨v, valued, ok⟩ := bind_eq_ok.mp ok
  obtain ⟨stats, -, ok⟩ := bind_eq_ok.mp ok
  obtain rfl := Except.ok.inj ok
  refine valueOf_histogram valued ?_
  dsimp only at emitted
  split at emitted
  next => cases emitted
  next => exact emitted

end Validity

/-! ## Every produced histogram -/

section Steadily

variable {collate : String → String → Prop} [DecidableRel collate]
  {digest : IdentityPreimage → String} {q : SemanticQuery} {data denominators : List (List Point)}
  {window : Int × Int} {rows : List Point} {pair : Option Point × Point} {g : Group}
  {h : HistogramValue}

theorem pair_valid
    (accepted : ∀ p ∈ rows, validateObservation digest p.val q.definition = .ok ())
    (mem : pair ∈ withPrevious none (unique collate rows)) {a b : HistogramValue}
    (s : Subtracted q.definition q.maxGapMs pair.1 pair.2 a b) : a.Valid ∧ b.Valid := by
  obtain ⟨second, first⟩ := mem_of_withPrevious mem
  obtain ⟨last, isLast, before, -, -⟩ := s.before
  have among : last ∈ unique collate rows := (first last isLast).resolve_left nofun
  exact ⟨histogram_valid (accepted last (mem_of_unique among)) before,
    histogram_valid (accepted pair.2 (mem_of_unique second)) s.after⟩

theorem delta_valid
    (accepted : ∀ p ∈ rows, validateObservation digest p.val q.definition = .ok ())
    (steady : ∀ a b, Subtracted q.definition q.maxGapMs pair.1 pair.2 a b → Steady a b)
    (mem : pair ∈ withPrevious none (unique collate rows))
    (made : histogramDelta pair.1 pair.2 q.definition q.maxGapMs = .ok g)
    (found : g.histogram = some h) : h.Valid := by
  rcases histogramDelta_cases made found with own | ⟨a, b, s, rfl⟩
  · exact histogram_valid (accepted pair.2 (mem_of_unique (mem_of_withPrevious mem).1)) own
  · obtain ⟨valid, valid'⟩ := pair_valid accepted mem s
    exact (difference_valid_iff s valid valid').mpr (steady a b s)

theorem bucket_of_query (valid : validateQuery q = .ok ()) (mem : window ∈ q.buckets) :
    ∃ whole ∈ q.window, whole.1 ≤ window.1 ∧ window.1 ≤ window.2 ∧ window.2 ≤ whole.2 := by
  obtain ⟨start, stop, step, given, positive, buckets⟩ := window_of_query valid
  obtain ⟨begun, forward, ended⟩ := mem_windows positive (buckets ▸ mem)
  exact ⟨(start, stop), given, begun, forward.le, ended⟩

theorem series_valid (valid : validateQuery q = .ok ())
    (accepted : ∀ rows ∈ data, ∀ p ∈ rows, validateObservation digest p.val q.definition = .ok ())
    (steady : SteadyData collate q data) (member : rows ∈ data) (mem : window ∈ q.buckets)
    (ok : reduceSeries q (sliceOf (unique collate rows) window) window.1 window.2 = .ok g)
    (found : g.histogram = some h) : h.Valid := by
  obtain ⟨whole, given, begun, forward, ended⟩ := bucket_of_query valid mem
  obtain ⟨deltas, merged, made, sums, same⟩ := reduceSeries_histogram ok found
  refine mergeHistograms_valid sums same fun group among h' has => ?_
  obtain ⟨pair, paired, inside, delta⟩ := histogramDeltas_mem made among
  have within : ¬ pair.2.outside whole.1 whole.2 := fun outside => inside <| by
    unfold Point.outside at *
    omega
  have paired := (withPrevious_slice forward inside).mp paired
  exact delta_valid (accepted rows member)
    (steady whole given rows member pair paired within) paired delta has

theorem space_valid (valid : validateQuery q = .ok ()) (mode : q.mode = .merge ∨ q.mode = .quantile)
    (accepted : ∀ rows ∈ data, ∀ p ∈ rows, validateObservation digest p.val q.definition = .ok ())
    (steady : SteadyData collate q data) {prepared : List PreparedSeries}
    (ready : prepare collate digest q data denominators = .ok prepared) (mem : window ∈ q.buckets)
    (ok : bucketGroup collate q prepared window = .ok g) (found : g.histogram = some h) :
    h.Valid := by
  have merges : q.mode ≠ .ratio ∧ ∀ series, seriesGroup collate q window series =
      reduceSeries q (sliceOf series.rows window) window.1 window.2 := by
    unfold seriesGroup
    rcases mode with mode | mode
    · rw [mode]
      exact ⟨nofun, fun _ => rfl⟩
    · rw [mode]
      exact ⟨nofun, fun _ => rfl⟩
  unfold bucketGroup at ok
  obtain ⟨groups, reduced, ok⟩ := bind_eq_ok.mp ok
  rw [if_neg merges.1] at ok
  have each {group : Group} (among : group ∈ groups) {h' : HistogramValue}
      (has : group.histogram = some h') : h'.Valid := by
    obtain ⟨series, listed, made⟩ := Except.exists_of_forall₂ (Except.mapM_eq_ok.mp reduced) among
    rw [merges.2] at made
    obtain ⟨⟨rows, below⟩, zipped, built⟩ :=
      Except.exists_of_forall₂ (Except.mapM_eq_ok.mp ready) listed
    obtain ⟨intervals, -, built⟩ := bind_eq_ok.mp built
    obtain rfl := Except.ok.inj built
    exact series_valid valid accepted steady (of_mem_zip zipped).1 mem made has
  rcases spatial_histogram ok found with among | ⟨good, merged, among, sums, same⟩
  · exact each among found
  · exact mergeHistograms_valid sums same fun group mem h' has => each (among group mem) has

end Steadily

/-- **Where histograms stay histograms.**  For a valid query that merges, over accepted rows, every
histogram that is made keeps the contract exactly where no count moved down between two buckets of the
rows that are subtracted. -/
theorem produced_valid_iff (collate : String → String → Prop) [DecidableRel collate]
    (digest : IdentityPreimage → String) (q : SemanticQuery) (data denominators : List (List Point))
    (valid : validateQuery q = .ok ()) (mode : q.mode = .merge ∨ q.mode = .quantile)
    (accepted : ∀ rows ∈ data, ∀ p ∈ rows,
      validateObservation digest p.val q.definition = .ok ()) :
    (∀ h, Produced collate digest q data denominators h → h.Valid) ↔
      SteadyData collate q data := by
  constructor
  · intro kept whole given rows member pair paired inside a b s
    obtain ⟨start, stop, step, given', positive, buckets⟩ := window_of_query valid
    obtain rfl : (start, stop) = whole := some.inj (given'.symm.trans given)
    have begun : start ≤ pair.2.time := not_lt.mp fun early => inside (.inl early)
    have before : pair.2.time < stop := not_le.mp fun late => inside (.inr late)
    obtain ⟨window, mem, low, high⟩ := windows_cover positive begun before
    have forward := (mem_windows positive mem).2.1.le
    have within : ¬ pair.2.outside window.1 window.2 := fun outside =>
      outside.elim (fun early => absurd low (not_le.mpr early)) fun late =>
        absurd high (not_lt.mpr late)
    obtain ⟨g, made, found⟩ := s.delta
    obtain ⟨first, second⟩ := pair_valid (accepted rows member) paired s
    refine (difference_valid_iff s first second).mp (kept _ ?_)
    exact .delta member (buckets ▸ mem) ((withPrevious_slice forward within).mpr paired) within made
      found
  · intro steady h produced
    cases produced with
    | @delta rows window pair g h member mem paired inside made found =>
      obtain ⟨whole, given, begun, forward, ended⟩ := bucket_of_query valid mem
      have within : ¬ pair.2.outside whole.1 whole.2 := fun outside => inside <| by
        unfold Point.outside at *
        omega
      have paired := (withPrevious_slice forward inside).mp paired
      exact delta_valid (accepted rows member)
        (steady whole given rows member pair paired within) paired made found
    | series member mem ok found => exact series_valid valid accepted steady member mem ok found
    | space ready mem ok found => exact space_valid valid mode accepted steady ready mem ok found
    | @bucket buckets b h ok mem emitted =>
      unfold aggregate at ok
      obtain ⟨_, -, ok⟩ := bind_eq_ok.mp ok
      rw [requireRule_bind] at ok
      obtain ⟨_, -, ok⟩ := bind_eq_ok.mp ok.2
      rw [requireRule_bind] at ok
      obtain ⟨prepared, ready, ok⟩ := bind_eq_ok.mp ok.2
      obtain ⟨window, inside, told⟩ := Except.exists_of_forall₂ (Except.mapM_eq_ok.mp ok) mem
      obtain ⟨group, grouped, told⟩ := bind_eq_ok.mp told
      exact space_valid valid mode accepted steady ready inside grouped (tell_histogram told emitted)

/-! ## A histogram of latencies -/

private def latency : MetricDefinition where
  id := "db.latency"
  semanticVersion := ⟨1, 0, 0⟩
  meaning := "statement latency"
  unit := .milliseconds
  resourceType := .databaseInstance
  scope := .resource
  kind := .histogram
  temporality := .cumulative
  monotonic := false
  valueType := .histogram
  dimensions := ⟨[], 1, 64⟩
  aggregation := ⟨[.merge], [.none], ⟨Binary64.ofInt 0, zero_inside⟩, .fromMergedHistogram⟩
  lifecycle := .active
  replacementId := none
  category := .canonical

private def latencyDigest (preimage : IdentityPreimage) : String :=
  "latency" ++ toString preimage.observedAt

/-- The statements up to a second: how many took at most a millisecond, and all. -/
private def latencyAt (second fast all : Nat) : Point where
  val :=
    { id := "latency" ++ toString ((1000 * second : Nat) : Int)
      resourceType := .databaseInstance
      resourceId := "7"
      metric := latency.ref
      dimensions := ⟨[], nodup_nil⟩
      observedAt := .ofMs (1000 * second : Nat)
      collectedAt := .ofMs (1000 * second : Nat)
      storedAt := none
      quality := ⟨.good, .none⟩
      accuracy := .exact
      production := .measured
      source := ⟨"binding", "metric", "collector", "attempt"⟩
      versions := ⟨⟨1, 0, 0⟩, "mysql", ⟨1, 0, 0⟩, ⟨1, 0, 0⟩, 1⟩
      counter := some ⟨some (.ofMs 0), none, .bits64⟩
      unit := .milliseconds
      value := some (.histogram ⟨all, ⟨Binary64.ofInt 9, by rfl⟩,
        [⟨.number ⟨Binary64.ofInt 1, by rfl⟩, fast⟩, ⟨.infinity, all⟩]⟩)
      origin := .normalized [] }
  property := rfl

private def mergeLatency : SemanticQuery where
  definition := latency
  series := [⟨.databaseInstance, "7", latency.ref, ⟨[], nodup_nil⟩⟩]
  start := ⟨"1970-01-01T00:00:00Z", some 0⟩
  stop := ⟨"1970-01-01T00:01:00Z", some 60000⟩
  now := ⟨"1970-01-01T00:01:00Z", some 60000⟩
  intervalMs := 60000
  maxGapMs := 60000
  staleAfterMs := 60000
  bucketMs := none
  mode := .merge
  space := .none
  weighting := none
  weights := none
  numerator := none
  denominator := none
  stateValue := none
  quantile := none

/-- Five statements, one of them fast, that turn into five with three fast ones. -/
private def movedRows : List (List Point) := [[latencyAt 10 1 5, latencyAt 20 3 5]]

private theorem latency_valid : validateQuery mergeLatency = .ok () := by rfl

private theorem moved_accepted : ∀ rows ∈ movedRows, ∀ p ∈ rows,
    validateObservation latencyDigest p.val mergeLatency.definition = .ok () := by decide

/-- The condition at the rows whose counts move. -/
theorem produced_valid_iff_latency :
    (∀ h, Produced (fun a b => a ≤ b) latencyDigest mergeLatency movedRows [] h → h.Valid) ↔
      SteadyData (fun a b => a ≤ b) mergeLatency movedRows :=
  produced_valid_iff _ latencyDigest mergeLatency movedRows [] latency_valid (.inl rfl) moved_accepted

/-- Two statements in the first bucket, none in all. -/
private def brokenHistogram : HistogramValue :=
  ⟨0, ⟨Binary64.ofInt 0, by rfl⟩,
    [⟨.number ⟨Binary64.ofInt 1, by rfl⟩, 2⟩, ⟨.infinity, 0⟩]⟩

/-- A bucket of a valid query over accepted rows is told as no histogram. -/
theorem emitted_histogram_broken : ∃ (collate : String → String → Prop) (_ : DecidableRel collate)
    (digest : IdentityPreimage → String) (q : SemanticQuery) (data : List (List Point))
    (buckets : List SemanticBucket) (b : SemanticBucket) (h : HistogramValue),
    validateQuery q = .ok () ∧ q.mode = .merge ∧
      (∀ rows ∈ data, ∀ p ∈ rows, validateObservation digest p.val q.definition = .ok ()) ∧
      aggregate collate digest q data [] = .ok buckets ∧ b ∈ buckets ∧
      b.value = some (.histogram h) ∧ validateValue (.histogram h) ≠ .ok () := by
  have told : ((aggregate (fun a b => a ≤ b) latencyDigest mergeLatency movedRows []).toOption.map
      fun buckets => buckets.map SemanticBucket.value) = some [some (.histogram brokenHistogram)] := by
    rfl
  obtain ⟨buckets, made, values⟩ := Option.map_eq_some_iff.mp told
  have among : some (MetricValue.histogram brokenHistogram) ∈ buckets.map SemanticBucket.value :=
    values ▸ mem_singleton_self _
  obtain ⟨b, mem, value⟩ := mem_map.mp among
  refine ⟨fun a b => a ≤ b, inferInstance, latencyDigest, mergeLatency, movedRows, buckets, b,
    brokenHistogram, latency_valid, rfl, moved_accepted, ?_, mem, value, by decide⟩
  cases result : aggregate (fun a b => a ≤ b) latencyDigest mergeLatency movedRows [] with
  | error e =>
    rw [result] at made
    cases made
  | ok buckets' =>
    rw [result] at made
    exact congrArg Except.ok (some.inj made)

end Slide.Metrics
