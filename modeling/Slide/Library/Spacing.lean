import Mathlib.Data.List.Pairwise
import Mathlib.Tactic.Linarith

/-!
# Spaced times

A list of times that are at least an interval apart, in order, has few members in any window.
-/

namespace Spacing

open List

variable {α : Type*} {time : α → Int} {interval lo hi : Int} {l : List α}

/-- The times of the list rise by at least the interval. -/
def Spaced (time : α → Int) (interval : Int) (l : List α) : Prop :=
  l.Pairwise fun a b => time a + interval ≤ time b

theorem Spaced.span {a : α} (spaced : Spaced time interval (a :: l))
    (below : ∀ b ∈ a :: l, time b ≤ hi) : l.length * interval ≤ hi - time a := by
  induction l generalizing a with
  | nil =>
    have bound := below a (mem_cons_self ..)
    simp only [length_nil, Nat.cast_zero, Int.zero_mul]
    omega
  | cons b rest ih =>
    obtain ⟨first, later⟩ := pairwise_cons.mp spaced
    have gap := first b (mem_cons_self ..)
    have tail := ih later fun c mem => below c (mem_cons_of_mem _ mem)
    simp only [length_cons, Nat.cast_add, Nat.cast_one, Int.add_mul, Int.one_mul]
    omega

/-- The members of a window: their gaps fit into it. -/
theorem Spaced.length_le (spaced : Spaced time interval l)
    (window : ∀ a ∈ l, lo ≤ time a ∧ time a ≤ hi) (some : l ≠ []) :
    (l.length - 1) * interval ≤ hi - lo := by
  cases l with
  | nil => exact absurd rfl some
  | cons a rest =>
    have span := spaced.span fun b mem => (window b mem).2
    have start := (window a (mem_cons_self ..)).1
    simp only [length_cons, Nat.cast_add, Nat.cast_one, Int.add_sub_cancel]
    omega

end Spacing
