import Mathlib.Data.List.Induction
import Mathlib.Data.List.Nodup

/-!
# Logs whose entries answer to what precedes them

A log grows at its end.  `Justified P log` says that `P before e` held for every entry `e` when it was
added to the entries `before` it.

* `Justified.snoc`: the one way such a log grows.
* `Justified.nodup_filterMap`: keys that are new whenever they are added are never added twice.
-/

namespace Log

open List

variable {α κ : Type*} {P Q : List α → α → Prop} {log before after : List α} {a e : α}

/-- `P` holds of every entry and the entries before it. -/
def Justified (P : List α → α → Prop) (log : List α) : Prop :=
  ∀ before e after, log = before ++ e :: after → P before e

theorem justified_nil : Justified P [] := by
  intro before e after split
  exact absurd split.symm (append_ne_nil_of_right_ne_nil before (cons_ne_nil e after))

theorem Justified.snoc (justified : Justified P log) (last : P log a) : Justified P (log ++ [a]) := by
  intro before e after split
  rcases eq_nil_or_concat after with rfl | ⟨after, b, rfl⟩
  · obtain ⟨rfl, same⟩ := append_inj' split rfl
    cases same
    exact last
  · rw [concat_eq_append, ← cons_append, ← append_assoc] at split
    obtain ⟨rfl, -⟩ := append_inj' split rfl
    exact justified before e after rfl

theorem Justified.of_snoc (justified : Justified P (log ++ [a])) : Justified P log ∧ P log a := by
  refine ⟨fun before e after split => ?_, justified log a [] rfl⟩
  refine justified before e (after ++ [a]) ?_
  rw [split, append_assoc, cons_append]

theorem Justified.mono (justified : Justified P log) (weaker : ∀ before e, P before e → Q before e) :
    Justified Q log :=
  fun before e after split => weaker before e (justified before e after split)

theorem Justified.exists_of_mem (justified : Justified P log) (mem : a ∈ log) :
    ∃ before, (∀ e ∈ before, e ∈ log) ∧ P before a := by
  obtain ⟨before, after, rfl⟩ := append_of_mem mem
  exact ⟨before, fun e inside => mem_append_left _ inside, justified before a after rfl⟩

/-- Keys that no earlier entry has occur once. -/
theorem Justified.nodup_filterMap {key : α → Option κ}
    (justified : Justified (fun before e => ∀ k, key e = some k → ∀ d ∈ before, key d ≠ some k) log) :
    (log.filterMap key).Nodup := by
  induction log using List.reverseRecOn with
  | nil => exact nodup_nil
  | append_singleton log a ih =>
    obtain ⟨justified, last⟩ := justified.of_snoc
    rw [filterMap_append, nodup_append]
    refine ⟨ih justified, ?_, ?_⟩
    · cases found : key a with
      | none => simp [found]
      | some k => simp [found]
    · intro k inside j new same
      obtain ⟨d, mem, of_d⟩ := mem_filterMap.mp inside
      obtain ⟨e, only, of_e⟩ := mem_filterMap.mp new
      obtain rfl := mem_singleton.mp only
      exact last j of_e d mem (same ▸ of_d)

end Log
