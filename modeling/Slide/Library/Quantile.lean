import Mathlib.Algebra.Order.Floor.Ring
import Mathlib.Data.List.GetD
import Mathlib.Data.List.Sort
import Mathlib.Tactic.Positivity

/-!
# Quantiles of a list

`quantile values q` reads the sorted list at the rank `(n - 1) * q` and interpolates linearly between
the two positions beside a fractional rank.  It does not depend on the order of the list
(`quantile_of_perm`) and grows with `q` (`quantile_mono`).
-/

namespace Quantile

open List

variable {α : Type*} [Field α] [LinearOrder α] [FloorRing α]

/-- The value at a rank: the mean of the positions beside it, each weighted by its nearness. -/
def interpolate (at_ : Nat → α) (rank : α) : α :=
  at_ ⌊rank⌋₊ * (1 - Int.fract rank) + at_ ⌈rank⌉₊ * Int.fract rank

def quantile (values : List α) (q : α) : α :=
  let sorted := values.insertionSort (· ≤ ·)
  interpolate (fun i => sorted.getD i 0) (((sorted.length : α) - 1) * q)

theorem quantile_of_perm {values values' : List α} (permuted : values.Perm values') (q : α) :
    quantile values q = quantile values' q := by
  have same : values.insertionSort (· ≤ ·) = values'.insertionSort (· ≤ ·) :=
    (perm_insertionSort _ values).trans permuted |>.trans (perm_insertionSort _ values').symm
      |>.eq_of_pairwise' (pairwise_insertionSort _ values) (pairwise_insertionSort _ values')
  unfold quantile
  rw [same]

variable [IsStrictOrderedRing α] {at_ : Nat → α} {rank rank' : α} {last : Nat}

/-- The positions up to `last` ascend. -/
def Ascends (at_ : Nat → α) (last : Nat) : Prop := ∀ i j, i ≤ j → j ≤ last → at_ i ≤ at_ j

/-- A rank lies between its two positions. -/
theorem interpolate_bounds (ascends : Ascends at_ last) (within : rank ≤ last) :
    at_ ⌊rank⌋₊ ≤ interpolate at_ rank ∧ interpolate at_ rank ≤ at_ ⌈rank⌉₊ := by
  have low : 0 ≤ Int.fract rank := Int.fract_nonneg rank
  have high : Int.fract rank < 1 := Int.fract_lt_one rank
  have step : at_ ⌊rank⌋₊ ≤ at_ ⌈rank⌉₊ :=
    ascends _ _ (Nat.floor_le_ceil rank) (Nat.ceil_le.mpr within)
  have gap : 0 ≤ at_ ⌈rank⌉₊ - at_ ⌊rank⌋₊ := sub_nonneg.mpr step
  unfold interpolate
  constructor
  · have rise := mul_nonneg gap low
    linarith
  · have rest := mul_nonneg gap (sub_nonneg.mpr high.le)
    linarith

omit [IsStrictOrderedRing α] in
/-- At a whole rank the value is the one that stands there. -/
theorem interpolate_whole (whole : Int.fract rank = 0) : interpolate at_ rank = at_ ⌊rank⌋₊ := by
  unfold interpolate
  rw [whole, sub_zero, mul_one, mul_zero, add_zero]

theorem ceil_eq_floor_add_one (nonneg : 0 ≤ rank) (between : Int.fract rank ≠ 0) :
    ⌈rank⌉₊ = ⌊rank⌋₊ + 1 := by
  apply le_antisymm (Nat.ceil_le_floor_add_one rank)
  apply Nat.succ_le_of_lt
  rw [Nat.lt_ceil]
  apply lt_of_le_of_ne (Nat.floor_le nonneg)
  intro same
  apply between
  rw [← same]
  exact Int.fract_natCast _

theorem interpolate_mono (ascends : Ascends at_ last) (nonneg : 0 ≤ rank) (below : rank ≤ rank')
    (within : rank' ≤ last) : interpolate at_ rank ≤ interpolate at_ rank' := by
  have bounds := interpolate_bounds ascends (below.trans within)
  have bounds' := interpolate_bounds ascends within
  rcases (Nat.floor_mono below).lt_or_eq with apart | together
  · -- a whole position lies between the two ranks
    have crossed : ⌈rank⌉₊ ≤ ⌊rank'⌋₊ := (Nat.ceil_le_floor_add_one rank).trans apart
    calc interpolate at_ rank ≤ at_ ⌈rank⌉₊ := bounds.2
      _ ≤ at_ ⌊rank'⌋₊ := ascends _ _ crossed (Nat.floor_le_of_le within)
      _ ≤ interpolate at_ rank' := bounds'.1
  · by_cases whole : Int.fract rank = 0
    · rw [interpolate_whole whole, together]
      exact bounds'.1
    · -- both ranks lie between the same two positions
      have nonneg' : 0 ≤ rank' := nonneg.trans below
      have further : Int.fract rank ≤ Int.fract rank' := by
        have floors : ⌊rank⌋ = ⌊rank'⌋ := by
          rw [← Int.natCast_floor_eq_floor nonneg, ← Int.natCast_floor_eq_floor nonneg', together]
        unfold Int.fract
        rw [floors]
        linarith
      have whole' : Int.fract rank' ≠ 0 := by
        have positive := lt_of_le_of_ne (Int.fract_nonneg rank) (Ne.symm whole)
        exact (positive.trans_le further).ne'
      have step : at_ ⌊rank'⌋₊ ≤ at_ (⌊rank'⌋₊ + 1) := by
        apply ascends _ (⌊rank'⌋₊ + 1) (Nat.le_succ _)
        rw [← ceil_eq_floor_add_one nonneg' whole']
        exact Nat.ceil_le.mpr within
      have gain := mul_nonneg (sub_nonneg.mpr step) (sub_nonneg.mpr further)
      unfold interpolate
      rw [ceil_eq_floor_add_one nonneg whole, ceil_eq_floor_add_one nonneg' whole', together]
      linarith

theorem quantile_mono {values : List α} (occupied : values ≠ []) {p q : α} (nonneg : 0 ≤ p)
    (below : p ≤ q) (within : q ≤ 1) : quantile values p ≤ quantile values q := by
  set sorted := values.insertionSort (· ≤ ·) with at_sorted
  have some_ : 1 ≤ sorted.length := by
    rw [at_sorted, length_insertionSort]
    exact length_pos_iff.mpr occupied
  have ranks : (0 : α) ≤ (sorted.length : α) - 1 := by
    rw [sub_nonneg]
    exact_mod_cast some_
  have ascends : Ascends (fun i => sorted.getD i 0) (sorted.length - 1) := by
    intro i j before inside
    have bound : j < sorted.length := by omega
    show sorted.getD i 0 ≤ sorted.getD j 0
    rw [getD_eq_getElem _ _ (before.trans_lt bound), getD_eq_getElem _ _ bound]
    have pairwise : sorted.Pairwise (· ≤ ·) := pairwise_insertionSort _ values
    rcases before.lt_or_eq with apart | rfl
    · exact pairwise_iff_getElem.mp pairwise i j _ bound apart
    · exact le_rfl
  apply interpolate_mono ascends (mul_nonneg ranks nonneg) (mul_le_mul_of_nonneg_left below ranks)
  rw [Nat.cast_sub some_, Nat.cast_one]
  exact mul_le_of_le_one_right ranks within

end Quantile
