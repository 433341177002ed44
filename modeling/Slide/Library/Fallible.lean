import Mathlib.Data.List.Perm.Basic

/-!
# Computations that may fail

A success of a sequence is a success of each part: these peel an `Except` computation apart
without unfolding it.
-/

namespace Except

open List

universe u

variable {ε : Type*} {α β : Type u} {x : Except ε α} {f : α → Except ε β} {b : β} {e : ε}

theorem bind_eq_ok : (x >>= f) = .ok b ↔ ∃ a, x = .ok a ∧ f a = .ok b := by
  cases x with
  | error e => exact ⟨nofun, fun ⟨_, absurd, _⟩ => by cases absurd⟩
  | ok a => exact ⟨fun after => ⟨a, rfl, after⟩,
    fun ⟨_, same, after⟩ => ok.inj same ▸ after⟩

theorem bind_eq_error : (x >>= f) = .error e ↔ x = .error e ∨ ∃ a, x = .ok a ∧ f a = .error e := by
  cases x with
  | error e' =>
    refine ⟨fun failed => .inl (congrArg error (error.inj failed)), ?_⟩
    rintro (failed | ⟨_, absurd, _⟩)
    · exact congrArg error (error.inj failed)
    · cases absurd
  | ok a =>
    refine ⟨fun after => .inr ⟨a, rfl, after⟩, ?_⟩
    rintro (absurd | ⟨_, same, after⟩)
    · cases absurd
    · exact ok.inj same ▸ after

theorem map_eq_ok {g : α → β} : x.map g = .ok b ↔ ∃ a, x = .ok a ∧ g a = b := by
  cases x with
  | error e => exact ⟨nofun, fun ⟨_, absurd, _⟩ => by cases absurd⟩
  | ok a => exact ⟨fun same => ⟨a, rfl, ok.inj same⟩,
    fun ⟨_, same, after⟩ => ok.inj same ▸ congrArg ok after⟩

theorem mapError_eq_ok {ε' : Type*} {g : ε → ε'} {a : α} : x.mapError g = .ok a ↔ x = .ok a := by
  cases x with
  | error e => exact ⟨nofun, nofun⟩
  | ok b => exact ⟨fun same => congrArg ok (ok.inj same),
    fun same => congrArg ok (ok.inj same)⟩

/-- A sequence does not fail with an error that none of its parts fails with. -/
theorem bind_ne_error (first : x ≠ .error e) (rest : ∀ a, x = .ok a → f a ≠ .error e) :
    x >>= f ≠ .error e := by
  cases x with
  | error e' =>
    intro same
    exact first (congrArg error (error.inj same))
  | ok a => exact rest a rfl

theorem guard_ne_error {e' : ε} {c : Prop} [Decidable c] {rest : Except ε β} (thrown : c → e' ≠ e)
    (after : ¬ c → rest ≠ .error e) :
    (if c then throw e' >>= fun _ : PUnit => rest else rest) ≠ .error e := by
  by_cases fails : c
  · rw [if_pos fails]
    intro same
    exact thrown fails (error.inj same)
  · rw [if_neg fails]
    exact after fails

/-- A guard that throws has passed. -/
theorem guard_eq_ok {c : Prop} [Decidable c] {rest : Except ε β} :
    (if c then throw e >>= fun _ : PUnit => rest else rest) = .ok b ↔ ¬ c ∧ rest = .ok b := by
  by_cases fails : c
  · rw [if_pos fails]
    exact ⟨nofun, fun passed => absurd fails passed.1⟩
  · rw [if_neg fails]
    exact ⟨fun after => ⟨fails, after⟩, And.right⟩

/-- A success is its own value. -/
theorem eq_ok_get (succeeds : x.toOption.isSome = true) : x = .ok (x.toOption.get succeeds) := by
  cases x with
  | error e => cases succeeds
  | ok a => rfl

section Lists

variable {l l' : List α} {f : α → Except ε β} {ys : List β}

/-- What a related list has, the other has a source of. -/
theorem exists_of_forall₂ {β : Type*} {R : α → β → Prop} {l : List α} {l' : List β}
    (related : List.Forall₂ R l l') {b : β} (mem : b ∈ l') : ∃ a ∈ l, R a b := by
  induction related with
  | nil => cases mem
  | cons first _ ih =>
    rcases mem_cons.mp mem with rfl | later
    · exact ⟨_, mem_cons_self, first⟩
    · obtain ⟨a, inside, holds⟩ := ih later
      exact ⟨a, mem_cons_of_mem _ inside, holds⟩

theorem mapM_eq_ok : l.mapM f = .ok ys ↔ List.Forall₂ (fun a b => f a = .ok b) l ys := by
  induction l generalizing ys with
  | nil =>
    rw [mapM_nil, forall₂_nil_left_iff]
    exact ⟨fun same => (ok.inj same).symm, fun same => same ▸ rfl⟩
  | cons a l ih =>
    rw [mapM_cons, bind_eq_ok, forall₂_cons_left_iff]
    constructor
    · rintro ⟨b, first, after⟩
      obtain ⟨bs, rest, same⟩ := bind_eq_ok.mp after
      exact ⟨b, bs, first, ih.mp rest, (ok.inj same).symm⟩
    · rintro ⟨b, bs, first, rest, rfl⟩
      exact ⟨b, first, bind_eq_ok.mpr ⟨bs, ih.mpr rest, rfl⟩⟩

/-- A state that no element moves is not moved by a loop over them. -/
theorem foldlM_fixed {σ : Type u} {step : σ → α → Except ε σ} {s : σ}
    (fixed : ∀ a ∈ l, step s a = .ok s) : l.foldlM step s = .ok s := by
  induction l with
  | nil => rfl
  | cons a l ih =>
    obtain ⟨here, there⟩ := forall_mem_cons.mp fixed
    rw [foldlM_cons, here]
    exact ih there

/-- A fallible map that fails nowhere has results. -/
theorem mapM_ok_of_each (each : ∀ a ∈ l, ∃ b, f a = .ok b) : ∃ ys, l.mapM f = .ok ys := by
  induction l with
  | nil => exact ⟨[], rfl⟩
  | cons a l ih =>
    obtain ⟨⟨b, here⟩, there⟩ := forall_mem_cons.mp each
    obtain ⟨bs, rest⟩ := ih there
    exact ⟨b :: bs, mapM_eq_ok.mpr (.cons here (mapM_eq_ok.mp rest))⟩

/-- A fallible map over a permuted list gives the permuted results. -/
theorem mapM_ok_of_perm (permuted : l.Perm l') (ok : l.mapM f = .ok ys) :
    ∃ ys', l'.mapM f = .ok ys' ∧ ys.Perm ys' := by
  obtain ⟨ys', each, same⟩ :=
    perm_comp_forall₂ permuted.symm (mapM_eq_ok.mp ok)
  exact ⟨ys', mapM_eq_ok.mpr each, same.symm⟩

end Lists

/-! ## Two computations side by side -/

section Related

variable {γ δ : Type u} {R : α → β → Prop} {S : γ → δ → Prop} {x : Except ε α} {y : Except ε β}

end Related

end Except

export Except (bind_eq_ok bind_eq_error guard_eq_ok)
export Option (some.inj)
