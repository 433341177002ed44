import Mathlib.Data.List.Induction

/-!
# Runs whose events meet a condition

A step function answers every event.  `Observes step meets s events` says that each event of a run from
`s` meets the condition in the state that it finds.

* `Observes.snoc`, `Observes.append`, `Observes.of_snoc`, `Observes.of_prefix`: such a run by its last
  events and its prefixes.
* `Observes.history`: what every event that meets the condition keeps holds at the end of the run.
* `related_of_initial`: what every step relates is related along a run.
-/

namespace Guarded

open List

variable {σ ε : Type*} {step : σ → ε → σ} {meets : σ → ε → Prop} {s : σ} {events earlier : List ε}
  {e : ε}

/-- Every event meets the condition in the state that it finds. -/
def Observes (step : σ → ε → σ) (meets : σ → ε → Prop) (s : σ) (events : List ε) : Prop :=
  ∀ earlier e, earlier ++ [e] <+: events → meets (earlier.foldl step s) e

theorem observes_nil : Observes step meets s [] := by
  intro earlier e before
  exact absurd (prefix_nil.mp before) (append_ne_nil_of_right_ne_nil earlier nofun)

theorem Observes.snoc (observes : Observes step meets s events)
    (last : meets (events.foldl step s) e) : Observes step meets s (events ++ [e]) := by
  intro earlier d before
  rcases prefix_concat_iff.mp before with same | before
  · obtain ⟨rfl, only⟩ := append_inj' same rfl
    cases only
    exact last
  · exact observes earlier d before

theorem Observes.of_prefix (observes : Observes step meets s events) (before : earlier <+: events) :
    Observes step meets s earlier :=
  fun first e inside => observes first e (inside.trans before)

theorem Observes.of_snoc (observes : Observes step meets s (events ++ [e])) :
    Observes step meets s events ∧ meets (events.foldl step s) e :=
  ⟨observes.of_prefix (prefix_append ..), observes events e prefix_rfl⟩

/-- Events that meet the condition everywhere can follow. -/
theorem Observes.append {more : List ε} (observes : Observes step meets s events)
    (anywhere : ∀ e ∈ more, ∀ t, meets t e) : Observes step meets s (events ++ more) := by
  induction more using List.reverseRecOn with
  | nil => rwa [append_nil]
  | append_singleton more e ih =>
    rw [← append_assoc]
    refine (ih fun d mem => anywhere d (mem_append_left _ mem)).snoc ?_
    exact anywhere e (mem_append_right _ (mem_singleton_self e)) _

/-- A predicate of the history and the state that every event meeting the condition extends. -/
theorem Observes.history {P : List ε → σ → Prop} (start : P [] s)
    (extend : ∀ es e, P es (es.foldl step s) → meets (es.foldl step s) e →
      P (es ++ [e]) (step (es.foldl step s) e))
    (observes : Observes step meets s events) : P events (events.foldl step s) := by
  induction events using List.reverseRecOn with
  | nil => exact start
  | append_singleton events e ih =>
    obtain ⟨before, last⟩ := observes.of_snoc
    rw [foldl_append]
    exact extend events e (ih before) last

/-- A predicate of the states that every event meeting the condition keeps. -/
theorem Observes.invariant {P : σ → Prop} (start : P s)
    (keep : ∀ t e, P t → meets t e → P (step t e)) (observes : Observes step meets s events) :
    P (events.foldl step s) :=
  observes.history (P := fun _ => P) start fun _ _ => keep _ _

/-- A relation of each state to the next holds between the states of a run. -/
theorem related_of_initial {R : σ → σ → Prop} [Std.Refl R] [IsTrans σ R]
    (each : ∀ t e, R t (step t e)) (before : earlier <+: events) :
    R (earlier.foldl step s) (events.foldl step s) := by
  obtain ⟨rest, rfl⟩ := before
  induction rest using List.reverseRecOn with
  | nil =>
    rw [append_nil]
    exact refl_of R _
  | append_singleton rest e ih =>
    rw [← append_assoc, foldl_append]
    exact trans_of R ih (each _ e)

end Guarded
