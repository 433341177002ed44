import Mathlib.Data.List.Basic
import Mathlib.Data.List.Pairwise

/-!
# First-come admission

`letIn clash active waiting` lets in the longest prefix of the waiting line whose members clash with
nobody that is in by then; the first one that clashes keeps its place and blocks those behind it.
-/

namespace Admission

open List

variable {α : Type*} (clash : α → α → Prop) [DecidableRel clash]

/-- The waiting line after the admissible prefix, and that prefix. -/
def letIn (active : List α) : List α → List α × List α
  | [] => ([], [])
  | next :: rest =>
    if ∃ holder ∈ active, clash holder next then (next :: rest, [])
    else
      let (waiting, entered) := letIn (active ++ [next]) rest
      (waiting, next :: entered)

variable {clash} {active waiting : List α} {a : α}

/-- Nobody is lost and nobody overtakes. -/
theorem letIn_append :
    (letIn clash active waiting).2 ++ (letIn clash active waiting).1 = waiting := by
  induction waiting generalizing active with
  | nil => rfl
  | cons next rest ih =>
    unfold letIn
    split
    next => rfl
    next => exact congrArg (next :: ·) ih

/-- Those inside do not clash. -/
theorem letIn_pairwise (apart : active.Pairwise fun a b => ¬ clash a b) :
    (active ++ (letIn clash active waiting).2).Pairwise fun a b => ¬ clash a b := by
  induction waiting generalizing active with
  | nil => rwa [letIn, append_nil]
  | cons next rest ih =>
    unfold letIn
    split
    next => rwa [append_nil]
    next free =>
      have grown : (active ++ [next]).Pairwise fun a b => ¬ clash a b := by
        refine pairwise_append.mpr ⟨apart, pairwise_singleton _ _, ?_⟩
        intro holder inside b last clashing
        rw [mem_singleton.mp last] at clashing
        exact free ⟨holder, inside, clashing⟩
      have rest := ih grown
      rwa [append_assoc] at rest

/-- Whoever is first in line afterwards clashes with somebody inside. -/
theorem letIn_blocked (first : (letIn clash active waiting).1.head? = some a) :
    ∃ holder ∈ active ++ (letIn clash active waiting).2, clash holder a := by
  induction waiting generalizing active with
  | nil => cases first
  | cons next rest ih =>
    unfold letIn at first ⊢
    split at first
    next blocked =>
      cases first
      rw [if_pos blocked, append_nil]
      exact blocked
    next free =>
      obtain ⟨holder, inside, clashing⟩ := ih first
      rw [if_neg free]
      rw [append_assoc] at inside
      exact ⟨holder, inside, clashing⟩

end Admission
