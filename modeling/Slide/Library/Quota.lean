import Mathlib.Algebra.GroupWithZero.Nat
import Mathlib.Algebra.Order.BigOperators.Group.List
import Mathlib.Data.Finset.Card

/-!
# Quotas

`usage p w rows` is the weight of the rows that a quota covers.  A quota that is checked when a row is
added stays kept when rows are replaced by rows that it covers no more and that weigh no more.
-/

namespace Quota

open List

variable {ρ κ : Type*} {p q : ρ → Bool} {w : ρ → ℕ} {rows : List ρ} {f : ρ → ρ} {r : ρ} {limit : ℤ}

/-- The weight of the covered rows. -/
def usage (p : ρ → Bool) (w : ρ → ℕ) (rows : List ρ) : ℕ := ((rows.filter p).map w).sum

@[simp] theorem usage_nil : usage p w [] = 0 := rfl

theorem usage_cons : usage p w (r :: rows) = (if p r then w r else 0) + usage p w rows := by
  unfold usage
  by_cases covered : p r = true
  · rw [filter_cons_of_pos covered, map_cons, sum_cons, if_pos covered]
  · rw [filter_cons_of_neg covered, if_neg covered, Nat.zero_add]

theorem usage_snoc : usage p w (rows ++ [r]) = usage p w rows + if p r then w r else 0 := by
  induction rows with
  | nil => rw [nil_append, usage_cons, usage_nil, Nat.zero_add, Nat.add_zero]
  | cons a rows ih =>
    rw [cons_append, usage_cons, usage_cons, ih]
    omega

/-- Where every row weighs one, the usage is a count. -/
theorem length_filter : (rows.filter p).length = usage p (fun _ => 1) rows := by
  unfold usage
  simp

theorem usage_mono (covered : ∀ r ∈ rows, p r → q r) : usage p w rows ≤ usage q w rows := by
  induction rows with
  | nil => exact le_rfl
  | cons r rows ih =>
    have rest := ih fun r mem => covered r (mem_cons_of_mem _ mem)
    have first := covered r mem_cons_self
    rw [usage_cons, usage_cons]
    by_cases inside : p r = true
    · rw [if_pos inside, if_pos (first inside)]
      omega
    · rw [if_neg inside]
      omega

/-- Replacing rows by lighter ones does not raise the usage. -/
theorem usage_map_le (lighter : ∀ r ∈ rows, p (f r) → p r ∧ w (f r) ≤ w r) :
    usage p w (rows.map f) ≤ usage p w rows := by
  induction rows with
  | nil => exact le_rfl
  | cons r rows ih =>
    have rest := ih fun r mem => lighter r (mem_cons_of_mem _ mem)
    have first := lighter r mem_cons_self
    rw [map_cons, usage_cons, usage_cons]
    by_cases inside : p (f r) = true
    · rw [if_pos inside, if_pos (first inside).1]
      have := (first inside).2
      omega
    · rw [if_neg inside]
      omega

/-- A quota that covers none of the rows is unused. -/
theorem usage_eq_zero (outside : ∀ r ∈ rows, ¬ p r) : usage p w rows = 0 := by
  unfold usage
  rw [filter_eq_nil_iff.mpr outside]
  rfl

/-! ## Distinct keys -/

section Distinct

variable [DecidableEq κ] {key : ρ → κ}

/-- The keys of the covered rows. -/
def keys (p : ρ → Bool) (key : ρ → κ) (rows : List ρ) : Finset κ :=
  ((rows.filter p).map key).toFinset

theorem mem_keys {k : κ} : k ∈ keys p key rows ↔ ∃ r ∈ rows, p r ∧ key r = k := by
  simp [keys, and_assoc]

theorem keys_congr (same : ∀ r ∈ rows, p r = q r) : keys p key rows = keys q key rows := by
  unfold keys
  rw [filter_congr same]

theorem card_keys_map_le (lighter : ∀ r ∈ rows, p (f r) → p r ∧ key (f r) = key r) :
    (keys p key (rows.map f)).card ≤ (keys p key rows).card := by
  refine Finset.card_le_card fun k mem => ?_
  obtain ⟨_, inside, covered, rfl⟩ := mem_keys.mp mem
  obtain ⟨r, before, rfl⟩ := mem_map.mp inside
  exact mem_keys.mpr ⟨r, before, (lighter r before covered).1, (lighter r before covered).2.symm⟩

/-- A covered row adds a key only where its own key is new, and that was checked. -/
theorem card_keys_snoc_le (kept : ((keys p key rows).card : ℤ) ≤ limit)
    (checked : p r → key r ∈ keys p key rows ∨ ((keys p key rows).card : ℤ) < limit) :
    ((keys p key (rows ++ [r])).card : ℤ) ≤ limit := by
  by_cases covered : p r = true
  · have added : keys p key (rows ++ [r]) = insert (key r) (keys p key rows) := by
      unfold keys
      rw [filter_append, filter_cons_of_pos covered, filter_nil, map_append,
        toFinset_append, map_singleton, toFinset_cons, toFinset_nil,
        Finset.union_insert, Finset.union_empty]
    rw [added]
    rcases checked covered with known | room
    · rwa [Finset.insert_eq_of_mem known]
    · have := Finset.card_insert_le (key r) (keys p key rows)
      omega
  · have same : keys p key (rows ++ [r]) = keys p key rows := by
      unfold keys
      rw [filter_append, filter_cons_of_neg covered, filter_nil, append_nil]
    rwa [same]

end Distinct

end Quota
