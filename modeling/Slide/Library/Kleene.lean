import Mathlib.Data.List.Forall2
import Mathlib.Data.Option.Basic

/-!
# Strong Kleene connectives over lists

A truth value is `some` definite answer or `none`.  A conjunction is false once one member is
false and true once all are; a disjunction is the dual.  Both are total on lists of any length, and
both are monotone: what becomes known of the members never takes a definite answer back.
-/

namespace Kleene

/-- Conjunction: a false member decides it, else every member must be true. -/
def all (values : List (Option Bool)) : Option Bool :=
  if some false ∈ values then some false
  else if none ∈ values then none else some true

/-- Disjunction: a true member decides it, else every member must be false. -/
def any (values : List (Option Bool)) : Option Bool :=
  if some true ∈ values then some true
  else if none ∈ values then none else some false

variable {values others : List (Option Bool)}

/-- Only whether a false and an unknown member occur matters to a conjunction. -/
theorem all_congr (hasFalse : some false ∈ values ↔ some false ∈ others)
    (hasUnknown : none ∈ values ↔ none ∈ others) : all values = all others := by
  simp only [all, hasFalse, hasUnknown]

theorem any_congr (hasTrue : some true ∈ values ↔ some true ∈ others)
    (hasUnknown : none ∈ values ↔ none ∈ others) : any values = any others := by
  simp only [any, hasTrue, hasUnknown]

theorem all_eq_some_true : all values = some true ↔ ∀ value ∈ values, value = some true := by
  unfold all
  constructor
  · intro decided value mem
    split at decided
    next => cases decided
    next noFalse =>
      split at decided
      next => cases decided
      next noUnknown =>
        cases value with
        | none => exact absurd mem noUnknown
        | some truth =>
          cases truth with
          | false => exact absurd mem noFalse
          | true => rfl
  · intro holds
    have noFalse : some false ∉ values := fun mem => nomatch holds _ mem
    have noUnknown : none ∉ values := fun mem => nomatch holds _ mem
    rw [if_neg noFalse, if_neg noUnknown]

theorem all_eq_some_false : all values = some false ↔ some false ∈ values := by
  unfold all
  constructor
  · intro decided
    split at decided
    next mem => exact mem
    next => split at decided <;> cases decided
  · exact fun mem => if_pos mem

theorem any_eq_some_true : any values = some true ↔ some true ∈ values := by
  unfold any
  constructor
  · intro decided
    split at decided
    next mem => exact mem
    next => split at decided <;> cases decided
  · exact fun mem => if_pos mem

theorem any_eq_some_false : any values = some false ↔ ∀ value ∈ values, value = some false := by
  unfold any
  constructor
  · intro decided value mem
    split at decided
    next => cases decided
    next noTrue =>
      split at decided
      next => cases decided
      next noUnknown =>
        cases value with
        | none => exact absurd mem noUnknown
        | some truth =>
          cases truth with
          | true => exact absurd mem noTrue
          | false => rfl
  · intro holds
    have noTrue : some true ∉ values := fun mem => nomatch holds _ mem
    have noUnknown : none ∉ values := fun mem => nomatch holds _ mem
    rw [if_neg noTrue, if_neg noUnknown]

/-! ## Information -/

/-- The second value answers at least what the first does. -/
def Informs (value other : Option Bool) : Prop := ∀ truth, value = some truth → other = some truth

theorem mem_of_informs (informs : List.Forall₂ Informs values others) {truth : Bool}
    (mem : some truth ∈ values) : some truth ∈ others := by
  induction informs with
  | nil => cases mem
  | cons head _ ih =>
    rcases List.mem_cons.mp mem with here | there
    · rw [head truth here.symm]
      exact List.mem_cons_self
    · exact List.mem_cons_of_mem _ (ih there)

theorem forall_of_informs (informs : List.Forall₂ Informs values others) {truth : Bool}
    (holds : ∀ value ∈ values, value = some truth) : ∀ other ∈ others, other = some truth := by
  induction informs with
  | nil => exact fun _ absent => by cases absent
  | cons head _ ih =>
    obtain ⟨first, rest⟩ := List.forall_mem_cons.mp holds
    exact List.forall_mem_cons.mpr ⟨head truth first, ih rest⟩

theorem all_informs (informs : List.Forall₂ Informs values others) :
    Informs (all values) (all others) := by
  intro truth definite
  cases truth with
  | false => exact all_eq_some_false.mpr (mem_of_informs informs (all_eq_some_false.mp definite))
  | true => exact all_eq_some_true.mpr (forall_of_informs informs (all_eq_some_true.mp definite))

theorem any_informs (informs : List.Forall₂ Informs values others) :
    Informs (any values) (any others) := by
  intro truth definite
  cases truth with
  | false => exact any_eq_some_false.mpr (forall_of_informs informs (any_eq_some_false.mp definite))
  | true => exact any_eq_some_true.mpr (mem_of_informs informs (any_eq_some_true.mp definite))

end Kleene
