import Mathlib.Data.List.Basic

/-!
# Records in the order of their keys

An object of the source lists its keys in the order in which they were first set.  Setting a key that
is there replaces its value in place; one that is not there comes last.
-/

/-- The keys of an object with their values. -/
abbrev Record (κ α : Type*) := List (κ × α)

namespace Record

open List

variable {κ α : Type*} [DecidableEq κ] {r r' : Record κ α} {k l : κ} {v : α}

/-- `r[k]`. -/
def get : Record κ α → κ → Option α
  | [], _ => none
  | (key, value) :: rest, k => if key = k then some value else get rest k

/-- `r[k] = v`. -/
def set : Record κ α → κ → α → Record κ α
  | [], k, v => [(k, v)]
  | (key, value) :: rest, k, v =>
    if key = k then (k, v) :: rest else (key, value) :: set rest k v

/-- `{ ...r, ...more }`. -/
def spread (r more : Record κ α) : Record κ α :=
  more.foldl (fun r field => r.set field.1 field.2) r

/-- `r` without one of its keys. -/
def erase (r : Record κ α) (k : κ) : Record κ α := r.filter fun field => decide (field.1 ≠ k)

@[simp] theorem get_set_self : (r.set k v).get k = some v := by
  induction r with
  | nil => exact if_pos rfl
  | cons field rest ih =>
    obtain ⟨key, value⟩ := field
    unfold set
    by_cases same : key = k
    · rw [if_pos same]
      exact if_pos rfl
    · rw [if_neg same]
      exact (if_neg same).trans ih

theorem get_set_ne (different : l ≠ k) : (r.set k v).get l = r.get l := by
  induction r with
  | nil => exact if_neg fun same => different same.symm
  | cons field rest ih =>
    obtain ⟨key, value⟩ := field
    unfold set
    by_cases same : key = k
    · subst same
      rw [if_pos rfl]
      exact (if_neg fun same => different same.symm).trans
        (if_neg fun same => different same.symm).symm
    · rw [if_neg same]
      change (if key = l then some value else get (set rest k v) l) =
        if key = l then some value else get rest l
      rw [ih]

theorem get_erase_ne (different : l ≠ k) : (r.erase k).get l = r.get l := by
  induction r with
  | nil => rfl
  | cons field rest ih =>
    obtain ⟨key, value⟩ := field
    unfold erase at ih ⊢
    by_cases gone : key = k
    · have not_read : key ≠ l := fun same => different (same.symm.trans gone)
      rw [filter_cons_of_neg (by simp [gone]), ih]
      exact (if_neg not_read).symm
    · rw [filter_cons_of_pos (by simpa using gone)]
      change (if key = l then some value else get (rest.filter _) l) =
        if key = l then some value else get rest l
      rw [ih]

@[simp] theorem erase_set_self : (r.set k v).erase k = r.erase k := by
  induction r with
  | nil => simp [set, erase]
  | cons field rest ih =>
    obtain ⟨key, value⟩ := field
    unfold set
    by_cases same : key = k
    · rw [if_pos same]
      unfold erase
      rw [filter_cons_of_neg (by simp), filter_cons_of_neg (by simp [same])]
    · rw [if_neg same]
      unfold erase at ih ⊢
      rw [filter_cons_of_pos (by simpa using same),
        filter_cons_of_pos (by simpa using same), ih]

/-- Records that agree without a key agree on all the others. -/
theorem get_of_erase (same : r.erase k = r'.erase k) (different : l ≠ k) : r.get l = r'.get l := by
  rw [← get_erase_ne different, same, get_erase_ne different]

end Record
