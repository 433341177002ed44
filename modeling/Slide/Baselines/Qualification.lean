import Slide.Baselines.Calculator
import Slide.Library.Fallible

/-!
# What a qualified baseline stands on

A qualified calculation has passed every check of `calculateBaseline` on the rows of its acceptable
buckets, and its bands are read off the training rows alone: two qualified calculations over the same
acceptable training buckets have equal bands.
-/

namespace Slide.Baselines

open Quantile List

variable {Identity : Type} {hash : Identity → String} {input : BaselineInput}
  {source : BaselineSourceWindow Identity} {start result : BaselineCalculation Identity}
  {mode : Mode} {first last : Int} {rows : List Row}

/-! ## Through the checks -/

/-- The checks on measured rows, and the bands they end in. -/
structure Assessed (input : BaselineInput) (result : BaselineCalculation Identity) (first last : Int)
    (rows : List Row) : Prop where
  quality : result.quality = measure input.mode first last rows
  gap : result.quality.maxGapMs < 6 * hour
  coverage : 9 / 10 ≤ result.quality.coverage
  training : 9 / 10 ≤ result.quality.trainingCoverage
  validation : 9 / 10 ≤ result.quality.validationCoverage
  days : input.mode.expected / 24 ≤ result.quality.validDays
  bands : bandsOf input.mode (trainingOf last rows) = some result.referenceBands
  drift : ∃ entries, (validationOf last rows).mapM (referenced input.mode result.referenceBands) = .ok entries ∧
    max (entries.countP shiftsHigh) (entries.countP shiftsLow) * 2 ≤ (validationOf last rows).length

theorem refuse_unqualified {reason : String} {invalidated : Bool} :
    (result.refuse reason invalidated).state ≠ .qualified := by
  cases invalidated <;> exact nofun

theorem conclude_bands {bands : List ReferenceBand}
    (ok : conclude input source start bands = .ok result) (qualified : result.state = .qualified) :
    result.quality = start.quality ∧ result.referenceBands = bands := by
  unfold conclude at ok
  split at ok
  next =>
    cases ok
    exact absurd qualified refuse_unqualified
  next =>
    split at ok
    · cases ok
    · cases ok
      exact ⟨rfl, rfl⟩

theorem validate_qualified {bands : List ReferenceBand} {validation : List Row}
    (ok : validate input source start bands validation = .ok result)
    (qualified : result.state = .qualified) :
    result.quality = start.quality ∧ result.referenceBands = bands ∧
      ∃ entries, validation.mapM (referenced input.mode bands) = .ok entries ∧
        max (entries.countP shiftsHigh) (entries.countP shiftsLow) * 2 ≤ validation.length := by
  obtain ⟨entries, each, ok⟩ := bind_eq_ok.mp ok
  split at ok
  next =>
    cases ok
    exact absurd qualified refuse_unqualified
  next calm =>
    obtain ⟨quality, same⟩ := conclude_bands ok qualified
    refine ⟨quality, same, entries, each, ?_⟩
    rcases Nat.eq_zero_or_pos validation.length with none_ | some_
    · -- without a validation row nothing shifts
      have empty := (Except.mapM_eq_ok.mp each).length_eq
      rw [none_] at empty
      rw [length_eq_zero_iff.mp empty.symm]
      exact Nat.zero_le _
    · have positive : (0 : ℚ) < validation.length := by exact_mod_cast some_
      rw [not_lt, div_le_iff₀ positive] at calm
      have doubled : ((max (entries.countP shiftsHigh) (entries.countP shiftsLow) * 2 : Nat) : ℚ) ≤
          validation.length := by
        push_cast at calm ⊢
        linarith
      exact_mod_cast doubled

theorem assess_qualified (ok : assess input source start last rows = .ok result)
    (measured : start.quality = measure input.mode first last rows) (qualified : result.state = .qualified) : Assessed input result first last rows := by
  unfold assess at ok
  split at ok
  next =>
    cases ok
    exact absurd qualified refuse_unqualified
  next gap =>
    split at ok
    next =>
      cases ok
      exact absurd qualified refuse_unqualified
    next coverage =>
      split at ok
      next =>
        cases ok
        exact absurd qualified refuse_unqualified
      next days =>
        split at ok
        next =>
          cases ok
          exact absurd qualified refuse_unqualified
        next bands found =>
          obtain ⟨quality, rfl, drift⟩ := validate_qualified ok qualified
          simp only [not_or, not_lt] at coverage
          rw [← quality] at coverage
          exact ⟨quality.trans measured, quality ▸ not_le.mp gap, coverage.1, coverage.2.1, coverage.2.2,
            quality ▸ not_lt.mp days, found, drift⟩

theorem first?_eq_some (found : source.first? mode last = some first) :
    source.from_.instant = some first ∧ last - first = mode.expected * hour := by
  unfold BaselineSourceWindow.first? at found
  split at found
  next from_ =>
    split at found
    · cases found
    · rename_i checked
      cases found
      exact ⟨from_, not_not.mp fun other => checked (.inl other)⟩
  next => cases found

/-- A source that got as far as its rows. -/
structure Admitted (mode : Mode) (source : BaselineSourceWindow Identity) (first last : Int) : Prop where
  from_ : source.from_.instant = some first
  until_ : source.until_.instant = some last
  length : last - first = mode.expected * hour
  unstopped : source.stopped = false
  inWindow : ∀ b ∈ source.buckets, b.InWindow first last
  distinct : source.buckets.Pairwise fun b c => b.start ≠ c.start

theorem calculateBaseline_qualified (ok : calculateBaseline hash input source = .ok result)
    (qualified : result.state = .qualified) :
    ∃ first last, Admitted input.mode source first last ∧ Assessed input result first last source.rows := by
  unfold calculateBaseline at ok
  split at ok
  next => cases ok
  next last until_ =>
    obtain ⟨split, -, ok⟩ := bind_eq_ok.mp ok
    split at ok
    next =>
      cases ok
      exact absurd qualified refuse_unqualified
    next unstopped =>
      split at ok
      next =>
        cases ok
        exact absurd qualified refuse_unqualified
      next first found =>
        split at ok
        next =>
          cases ok
          exact absurd qualified refuse_unqualified
        next rows read =>
          obtain ⟨from_, length⟩ := first?_eq_some found
          obtain ⟨rfl, placed, distinct⟩ := readBuckets_eq_some read
          exact ⟨first, last, ⟨from_, until_, length, Bool.eq_false_iff.mpr unstopped,
            fun b mem => (placed b mem).1, distinct⟩, assess_qualified ok rfl qualified⟩

theorem calculateBaseline_read {split : String} (until_ : source.until_.instant = some last)
    (text : toISOString (splitOf last) = .ok split) (unstopped : source.stopped = false)
    (found : source.first? input.mode last = some first)
    (read : readBuckets first last [] source.buckets = some rows) :
    calculateBaseline hash input source = assess input source
      { initial hash input source split with
        quality := measure input.mode first last rows
        excludedHours := input.mode.expected - rows.length } last rows := by
  unfold calculateBaseline
  rw [until_]
  dsimp only
  rw [text]
  simp [unstopped, found, read, bind, Except.bind]

/-! ## What the measures say -/

theorem length_ticks (n : Nat) (width : Int) (positive : 0 < width) (length : last - first = n * width) :
    (ticks first last width).length = n := by
  unfold ticks
  rw [length_map, length_range, length,
    show (n : Int) * width + width - 1 = width - 1 + width * n by ring,
    Int.add_mul_ediv_left _ _ positive.ne', Int.ediv_eq_zero_of_lt (by omega) (by omega), zero_add,
    Int.toNat_natCast]

theorem mem_ticks {n i : Nat} {width : Int} (positive : 0 < width) (length : last - first = n * width)
    (inside : i < n) : first + i * width ∈ ticks first last width := by
  have count := length_ticks n width positive length
  unfold ticks at count ⊢
  rw [length_map, length_range] at count
  exact mem_map.mpr ⟨i, mem_range.mpr (count ▸ inside), rfl⟩

/-- Whether an hour has no acceptable bucket. -/
def Missing (rows : List Row) (at_ : Int) : Prop := ∀ row ∈ rows, row.start ≠ at_

theorem extendGap_missing {at_ : Int} (missing : Missing rows at_) (gaps : Int × Int) :
    (extendGap rows gaps at_).1 = gaps.1 + hour := by
  have absent : (rows.any fun row => decide (row.start = at_)) = false := by
    simpa only [any_eq_false, decide_eq_true_eq, Missing] using missing
  simp only [extendGap, absent, Bool.false_eq_true, if_false]

theorem extendGap_longest (gaps : Int × Int) (at_ : Int) :
    gaps.2 ≤ (extendGap rows gaps at_).2 ∧ (extendGap rows gaps at_).1 ≤ (extendGap rows gaps at_).2 :=
  ⟨le_max_left _ _, le_max_right _ _⟩

theorem extendGap_nonneg {gaps : Int × Int} (nonneg : 0 ≤ gaps.1) (at_ : Int) :
    0 ≤ (extendGap rows gaps at_).1 := by
  unfold extendGap hour
  dsimp only
  split <;> omega

theorem longest_mono (hours : List Int) (gaps : Int × Int) :
    gaps.2 ≤ (hours.foldl (extendGap rows) gaps).2 := by
  induction hours generalizing gaps with
  | nil => exact le_rfl
  | cons at_ rest ih => exact (extendGap_longest gaps at_).1.trans (ih _)

theorem longest_of_missing {n : Nat} {hours : List Int} {gaps : Int × Int}
    (missing : ∀ at_ ∈ hours.take (n + 1), Missing rows at_) (enough : n < hours.length) :
    gaps.1 + (n + 1) * hour ≤ (hours.foldl (extendGap rows) gaps).2 := by
  induction n generalizing hours gaps with
  | zero =>
    cases hours with
    | nil => cases enough
    | cons at_ rest =>
      have longer := extendGap_missing (missing at_ mem_cons_self) gaps
      have kept : (extendGap rows gaps at_).1 ≤ (rest.foldl (extendGap rows) (extendGap rows gaps at_)).2 :=
        (extendGap_longest gaps at_).2.trans (longest_mono rest _)
      rw [foldl_cons]
      push_cast
      linarith
  | succ n ih =>
    cases hours with
    | nil => cases enough
    | cons at_ rest =>
      rw [take_succ_cons] at missing
      have longer := extendGap_missing (missing at_ mem_cons_self) gaps
      have later := @ih rest (extendGap rows gaps at_)
        (fun other mem => missing other (mem_cons_of_mem _ mem)) (Nat.lt_of_succ_lt_succ enough)
      rw [foldl_cons]
      push_cast at later ⊢
      linarith

theorem gap_nonneg (hours : List Int) {gaps : Int × Int} (nonneg : 0 ≤ gaps.1) :
    0 ≤ (hours.foldl (extendGap rows) gaps).1 := by
  induction hours generalizing gaps with
  | nil => exact nonneg
  | cons at_ rest ih => exact ih (extendGap_nonneg nonneg at_)

theorem seen_of_gap {i n : Nat} (length : last - first = n * hour)
    (gap : ((ticks first last hour).foldl (extendGap rows) (0, 0)).2 < 6 * hour) (inside : i + 6 ≤ n) :
    ∃ j, i ≤ j ∧ j < i + 6 ∧ ∃ row ∈ rows, row.start = first + j * hour := by
  have count := length_ticks n hour (by decide) length
  by_contra none_
  have missing : ∀ at_ ∈ ((ticks first last hour).drop i).take (5 + 1), Missing rows at_ := by
    intro at_ mem row there same
    obtain ⟨k, bound, rfl⟩ := mem_iff_getElem.mp mem
    rw [length_take] at bound
    refine none_ ⟨i + k, by omega, by omega, row, there, ?_⟩
    rw [same]
    simp only [ticks, getElem_take, getElem_drop, getElem_map, getElem_range]
  have enough : 5 < ((ticks first last hour).drop i).length := by
    rw [length_drop, count]
    omega
  have long := @longest_of_missing _ _ _ (((ticks first last hour).take i).foldl (extendGap rows) (0, 0))
    missing enough
  rw [← foldl_append, take_append_drop] at long
  have open_ := @gap_nonneg rows ((ticks first last hour).take i) (0, 0) le_rfl
  push_cast at long
  linarith

/-! ## What the bands are -/

theorem mapM_eq_some {α β : Type} {f : α → Option β} {l : List α} {ys : List β}
    (found : l.mapM f = some ys) : List.Forall₂ (fun a b => f a = some b) l ys := by
  induction l generalizing ys with
  | nil =>
    cases found
    exact .nil
  | cons a l ih =>
    rw [mapM_cons] at found
    obtain ⟨b, here, found⟩ := Option.bind_eq_some_iff.mp found
    obtain ⟨bs, there, found⟩ := Option.bind_eq_some_iff.mp found
    cases found
    exact .cons here (ih there)

/-- The band of a slot is made of its training values, seen on enough days. -/
structure Banded (mode : Mode) (training : List Row) (key : Nat) (band : ReferenceBand) : Prop where
  slot : band.slot = key
  median : band.median = quantile ((slotRows mode training key).map Row.value) (1 / 2)
  lower : band.lower = quantile ((slotRows mode training key).map Row.value) (1 / 10)
  upper : band.upper = quantile ((slotRows mode training key).map Row.value) (9 / 10)
  ordered : band.lower ≤ band.median ∧ band.median ≤ band.upper
  days : ∃ days : Finset Int, mode.repeats ≤ days.card ∧
    ∀ d ∈ days, ∃ row ∈ slotRows mode training key, row.start / day = d

theorem card_days (rows : List Row) :
    (rows.map fun row => utcDate row.start).dedup.length ≤ (rows.map fun row => row.start / day).toFinset.card := by
  have dates : (rows.map fun row => utcDate row.start).toFinset =
      (rows.map fun row => row.start / day).toFinset.image fun since => (dateText since).take 10 := by
    ext date
    simp only [mem_toFinset, mem_map, Finset.mem_image, utcDate_eq, exists_exists_and_eq_and]
  rw [← card_toFinset, dates]
  exact Finset.card_image_le

theorem bandOf_banded {training : List Row} {key : Nat} {band : ReferenceBand}
    (found : bandOf mode training key = some band) : Banded mode training key band := by
  unfold bandOf at found
  dsimp only at found
  split at found
  next => cases found
  next enough =>
    cases found
    have seen := (not_lt.mp enough).trans (card_days (slotRows mode training key))
    have occupied : (slotRows mode training key).map Row.value ≠ [] := by
      intro empty
      rw [map_eq_nil_iff.mp empty] at enough
      apply enough
      cases mode <;> decide
    exact ⟨rfl, rfl, rfl, rfl,
      ⟨quantile_mono occupied (by norm_num) (by norm_num) (by norm_num),
        quantile_mono occupied (by norm_num) (by norm_num) (by norm_num)⟩,
      _, seen, fun d mem => mem_map.mp (mem_toFinset.mp mem)⟩

theorem bandsOf_banded {training : List Row} {bands : List ReferenceBand}
    (found : bandsOf mode training = some bands) :
    bands.length = mode.slots ∧ ∀ key band, bands[key]? = some band → Banded mode training key band := by
  have each := mapM_eq_some found
  refine ⟨each.length_eq.symm.trans List.length_range, fun key band at_ => ?_⟩
  obtain ⟨bound, rfl⟩ := List.getElem?_eq_some_iff.mp at_
  have here := each.get (i := key) (by rwa [each.length_eq]) bound
  rw [get_eq_getElem, get_eq_getElem, getElem_range] at here
  exact bandOf_banded here

theorem bandsOf_perm {training training' : List Row} (permuted : training.Perm training') :
    bandsOf mode training = bandsOf mode training' := by
  have each : bandOf mode training = bandOf mode training' := by
    funext key
    have rows : (slotRows mode training key).Perm (slotRows mode training' key) := permuted.filter _
    unfold bandOf
    simp only [(rows.map _).dedup.length_eq, quantile_of_perm (rows.map Row.value)]
  unfold bandsOf
  rw [each]

/-! ## The results -/

/-- The rows of the validation whose values shift from the bands of their slots. -/
def shifted (mode : Mode) (bands : List ReferenceBand) (shifts : Row × ReferenceBand → Bool)
    (validation : List Row) : Nat :=
  validation.countP fun row => bands[slot row.start mode]?.any fun band => shifts (row, band)

theorem countP_referenced {bands : List ReferenceBand} {shifts : Row × ReferenceBand → Bool}
    {validation : List Row} {entries : List (Row × ReferenceBand)}
    (each : List.Forall₂ (fun row entry => referenced mode bands row = .ok entry) validation entries) :
    entries.countP shifts = shifted mode bands shifts validation := by
  unfold shifted
  induction each with
  | nil => rfl
  | @cons row entry _ _ here _ ih =>
    rw [countP_cons, countP_cons, ih]
    unfold referenced at here
    split at here
    next band at_ =>
      cases here
      rw [at_, Option.any_some]
    next => cases here

/-- What a qualified calculation stands on. -/
structure Grounded (mode : Mode) (source : BaselineSourceWindow Identity) (first last : Int)
    (result : BaselineCalculation Identity) : Prop where
  admitted : Admitted mode source first last
  coverage : 9 / 10 ≤ result.quality.coverage ∧
    result.quality.coverage = coverageRatio
      (covered (trainingOf last source.rows) + covered (validationOf last source.rows)) mode.expected
  training : 9 / 10 ≤ result.quality.trainingCoverage ∧ result.quality.trainingCoverage =
    coverageRatio (covered (trainingOf last source.rows)) ((splitOf last - first : Int) / hour)
  validation : 9 / 10 ≤ result.quality.validationCoverage ∧
    result.quality.validationCoverage = coverageRatio (covered (validationOf last source.rows)) 168
  days : ∀ d < mode.days, 9 / 10 ≤ coverageRatio (dayCoverage source.rows (first + d * day)) 24
  gaps : ∀ i, i + 6 ≤ mode.expected →
    ∃ j, i ≤ j ∧ j < i + 6 ∧ ∃ row ∈ source.rows, row.start = first + j * hour
  bands : result.referenceBands.length = mode.slots ∧ ∀ key band,
    result.referenceBands[key]? = some band → Banded mode (trainingOf last source.rows) key band
  high : shifted mode result.referenceBands shiftsHigh (validationOf last source.rows) * 2 ≤
    (validationOf last source.rows).length
  low : shifted mode result.referenceBands shiftsLow (validationOf last source.rows) * 2 ≤
    (validationOf last source.rows).length

theorem Assessed.grounded (assessed : Assessed input result first last source.rows)
    (admitted : Admitted input.mode source first last) : Grounded input.mode source first last result := by
  have quality := assessed.quality
  have gap := assessed.gap
  rw [quality] at gap
  have hours := admitted.length
  have daily : last - first = input.mode.days * day := by
    rw [hours]
    cases input.mode <;> rfl
  obtain ⟨entries, each, calm⟩ := assessed.drift
  have counted := fun shifts => @countP_referenced _ _ shifts _ _ (Except.mapM_eq_ok.mp each)
  refine ⟨admitted, ⟨assessed.coverage, congrArg _ quality⟩, ⟨assessed.training, congrArg _ quality⟩,
    ⟨assessed.validation, congrArg _ quality⟩, fun d inside => ?_,
    fun i inside => seen_of_gap hours gap inside,
    bandsOf_banded assessed.bands, ?_, ?_⟩
  · -- no day falls short where as many are valid as there are
    have valid := assessed.days
    have length := length_ticks input.mode.days day (by decide) daily
    rw [quality, show input.mode.expected / 24 = input.mode.days by unfold Mode.expected; omega,
      ← length] at valid
    have all := countP_eq_length.mp (le_antisymm countP_le_length valid)
    exact of_decide_eq_true (all _ (mem_ticks (by decide) daily inside))
  · rw [← counted]
    omega
  · rw [← counted]
    omega

/-- The same acceptable training buckets over the same end: the order, the validation, the unacceptable
buckets and the latest value are free. -/
structure SameTraining (source source' : BaselineSourceWindow Identity) : Prop where
  until_ : source.until_.instant = source'.until_.instant
  trained : ∀ last, source.until_.instant = some last → ∀ b start row, b.start = some start →
    b.row start = some row → start < splitOf last → (b ∈ source.buckets ↔ b ∈ source'.buckets)

theorem mem_rows {row : Row} : row ∈ source.rows ↔
    ∃ b ∈ source.buckets, ∃ start, b.start = some start ∧ b.row start = some row := by
  simp only [BaselineSourceWindow.rows, mem_filterMap, Option.bind_eq_some_iff]

theorem Admitted.nodup (admitted : Admitted mode source first last) : source.rows.Nodup := by
  apply List.Pairwise.filterMap _ _ admitted.distinct
  intro b c apart row kept row' kept' same
  obtain ⟨start, started, kept⟩ := Option.bind_eq_some_iff.mp kept
  obtain ⟨start', started', kept'⟩ := Option.bind_eq_some_iff.mp kept'
  apply apart
  rw [started, started', ← Bucket.row_start kept, ← Bucket.row_start kept', same]

theorem SameTraining.training_perm {source' : BaselineSourceWindow Identity} {first' : Int}
    (same : SameTraining source source') (admitted : Admitted mode source first last)
    (admitted' : Admitted mode source' first' last) :
    (trainingOf last source.rows).Perm (trainingOf last source'.rows) := by
  apply (perm_ext_iff_of_nodup (admitted.nodup.filter _) (admitted'.nodup.filter _)).mpr
  intro row
  simp only [mem_filter, mem_rows, decide_eq_true_eq]
  constructor
  · rintro ⟨⟨b, mem, start, started, kept⟩, early⟩
    have before : start < splitOf last := Bucket.row_start kept ▸ early
    exact ⟨⟨b, (same.trained last admitted.until_ b start row started kept before).mp mem, start, started,
      kept⟩, early⟩
  · rintro ⟨⟨b, mem, start, started, kept⟩, early⟩
    have before : start < splitOf last := Bucket.row_start kept ▸ early
    exact ⟨⟨b, (same.trained last admitted.until_ b start row started kept before).mpr mem, start, started,
      kept⟩, early⟩

/-- A qualified baseline has enough evidence, and learns nothing from what it is tested on. -/
theorem qualified_learns_from_training (hash : Identity → String) (input : BaselineInput)
    (source : BaselineSourceWindow Identity) (result : BaselineCalculation Identity)
    (ok : calculateBaseline hash input source = .ok result) (qualified : result.state = .qualified) :
    (∃ first last, Grounded input.mode source first last result) ∧
      ∀ (input' : BaselineInput) (source' : BaselineSourceWindow Identity)
        (result' : BaselineCalculation Identity), calculateBaseline hash input' source' = .ok result' →
        result'.state = .qualified → input'.mode = input.mode → SameTraining source source' →
        result'.referenceBands = result.referenceBands := by
  obtain ⟨first, last, admitted, assessed⟩ := calculateBaseline_qualified ok qualified
  refine ⟨⟨first, last, assessed.grounded admitted⟩, ?_⟩
  intro input' source' result' ok' qualified' mode same
  obtain ⟨first', last', admitted', assessed'⟩ := calculateBaseline_qualified ok' qualified'
  obtain rfl : last = last' := by
    have ends := admitted.until_.symm.trans (same.until_.trans admitted'.until_)
    exact some.inj ends
  rw [mode] at admitted'
  have bands := assessed'.bands
  rw [mode, ← bandsOf_perm (same.training_perm admitted admitted'), assessed.bands] at bands
  exact (some.inj bands).symm

/-! ## A daily window -/

/-- An hour of fourteen days, with its value and the coverage of its bucket. -/
private def hourBucket (value : Nat → Int) (coverage : Nat → ℚ) (i : Nat) : Bucket where
  start := some (i * hour)
  stop := some ((i + 1) * hour)
  value := some (.scalar (.int64 (value i)))
  accuracy := .exact
  quality := ⟨.good, .none⟩
  coverage := some (coverage i)
  sampleCount := 60

private def fortnight (value : Nat → Int) (coverage : Nat → ℚ) : BaselineSourceWindow Unit where
  identity := some ()
  from_ := ⟨"1970-01-01T00:00:00.000Z", some 0⟩
  until_ := ⟨"1970-01-15T00:00:00.000Z", some (14 * day)⟩
  evaluatedAt := ⟨"1970-01-15T00:00:01.000Z", some (14 * day + 1000)⟩
  validUntil := ⟨"1970-01-15T01:00:00.000Z", some (14 * day + hour)⟩
  buckets := (List.range 336).map (hourBucket value coverage)
  reason := none
  latest := ⟨some 40, some "1970-01-15T00:00:00.000Z"⟩
  fence := "fixture"

/-- Two fifths of the validation far above the training, two fifths far below. -/
private def torn (i : Nat) : Int := if i < 168 then 40 else if i % 5 < 2 then 90 else if i % 5 < 4 then 0 else 40

/-- The last day lacks an hour, and the others cover a little less than makes up for it. -/
private def thin (i : Nat) : ℚ :=
  if i < 312 then 1 else if i = 312 then 0 else (216 / 10 - 1 / 10 ^ 12) / 23

private def plain : BaselineInput := ⟨.daily, some ⟨.above, 80⟩⟩

private def tornWindow : BaselineSourceWindow Unit := fortnight torn thin

private def tornRows : List Row := validationOf (14 * day) tornWindow.rows

private def tornMeasured : BaselineCalculation Unit :=
  { initial (fun _ => "") plain tornWindow (String.ofList (isoCharacters (splitOf (14 * day)))) with
    quality := measure .daily 0 (14 * day) tornWindow.rows
    excludedHours := Mode.daily.expected - tornWindow.rows.length }

private theorem torn_measures : (readBuckets 0 (14 * day) [] tornWindow.buckets).isSome ∧
    ¬ 6 * hour ≤ tornMeasured.quality.maxGapMs ∧
    ¬ (tornMeasured.quality.coverage < 9 / 10 ∨ tornMeasured.quality.trainingCoverage < 9 / 10 ∨
      tornMeasured.quality.validationCoverage < 9 / 10) ∧
    ¬ tornMeasured.quality.validDays < plain.mode.expected / 24 := by
  refine ⟨?_, ?_, ?_, ?_⟩ <;> decide +kernel

private theorem torn_shifts : (bandsOf .daily (trainingOf (14 * day) tornWindow.rows)).map (fun bands =>
    (validate plain tornWindow tornMeasured bands tornRows).map fun result => (result.state,
      shifted .daily result.referenceBands (fun entry => shiftsHigh entry || shiftsLow entry) tornRows)) =
        some (.ok (.qualified, 133)) := by decide +kernel

private theorem torn_passes : (calculateBaseline (fun _ => "") plain tornWindow).map (fun result =>
    (result.state, shifted .daily result.referenceBands (fun entry => shiftsHigh entry || shiftsLow entry)
      tornRows)) = .ok (.qualified, 133) := by
  obtain ⟨some_, gap, cover, days⟩ := torn_measures
  obtain ⟨rows, read⟩ := Option.isSome_iff_exists.mp some_
  obtain rfl : rows = tornWindow.rows := (readBuckets_eq_some read).1
  obtain ⟨bands, found, shifts⟩ := Option.map_eq_some_iff.mp torn_shifts
  rw [calculateBaseline_read rfl (if_pos (by decide)) rfl (by decide +kernel) read]
  change Except.map _ (assess plain tornWindow tornMeasured (14 * day) tornWindow.rows) = _
  rw [assess, if_neg gap, if_neg cover, if_neg days]
  rw [show bandsOf plain.mode (trainingOf (14 * day) tornWindow.rows) = some bands from found]
  exact shifts

theorem qualified_learns_from_training_daily : ∃ result,
    calculateBaseline (fun _ => "") plain tornWindow = .ok result ∧
      ∃ first last, Grounded .daily tornWindow first last result := by
  obtain ⟨result, ok, told⟩ := Except.map_eq_ok.mp torn_passes
  have qualified := (Prod.mk.inj told).1
  exact ⟨result, ok, (qualified_learns_from_training (fun _ => "") plain tornWindow result ok qualified).1⟩

/-- More than half of the validation shifts, and the last day is covered below nine tenths. -/
theorem qualified_torn : ∃ result, calculateBaseline (fun _ => "") plain tornWindow = .ok result ∧
    result.state = .qualified ∧
    tornRows.length < 2 * shifted .daily result.referenceBands
      (fun entry => shiftsHigh entry || shiftsLow entry) tornRows ∧
    dayCoverage tornWindow.rows (13 * day) / 24 < 9 / 10 := by
  obtain ⟨result, ok, told⟩ := Except.map_eq_ok.mp torn_passes
  obtain ⟨qualified, shifts⟩ := Prod.mk.inj told
  refine ⟨result, ok, qualified, ?_, by decide +kernel⟩
  rw [shifts]
  decide +kernel

end Slide.Baselines
