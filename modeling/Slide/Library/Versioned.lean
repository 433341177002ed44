import Mathlib.Data.List.MinMax
import Mathlib.Data.List.Nodup

/-!
# Numbered versions

A table to which the versions of records are appended, each record numbered from one.

* `Numbered`: the versions in a list are 1 to n; `Numbered.latest`: the latest is then the last.
* `head`: the latest version of one record; `NumberedEach`: each record is numbered.
* `NumberedEach.snoc`, `head_snoc_self`, `head_snoc_of_ne`: what appending a next version changes.
-/

namespace Versioned

open List

variable {α κ : Type*} {version : α → Nat} {rows : List α} {r : α}

/-! ## One record -/

/-- The row of the highest version. -/
def latest (version : α → Nat) (rows : List α) : Option α := rows.argmax version

/-- The versions are 1 to n. -/
def Numbered (version : α → Nat) (rows : List α) : Prop :=
  rows.map version = range' 1 rows.length

theorem Numbered.nil : Numbered version [] := rfl

theorem Numbered.snoc (numbered : Numbered version rows) (next : version r = rows.length + 1) :
    Numbered version (rows ++ [r]) := by
  unfold Numbered at *
  rw [map_append, numbered, length_append, length_singleton, range'_concat]
  rw [map_singleton, next]
  congr 2
  omega

theorem Numbered.mem (numbered : Numbered version rows) (inside : r ∈ rows) :
    1 ≤ version r ∧ version r ≤ rows.length := by
  have listed : version r ∈ range' 1 rows.length := numbered ▸ mem_map_of_mem inside
  rw [mem_range'_1] at listed
  omega

theorem Numbered.nodup (numbered : Numbered version rows) : (rows.map version).Nodup := by
  rw [numbered]
  exact nodup_range'

theorem Numbered.inj {r' : α} (numbered : Numbered version rows) (inside : r ∈ rows) (inside' : r' ∈ rows)
    (same : version r = version r') : r = r' :=
  inj_on_of_nodup_map numbered.nodup inside inside' same

theorem Numbered.last {before : List α} (numbered : Numbered version (before ++ [r])) :
    version r = before.length + 1 := by
  have ends := congrArg getLast? numbered
  rw [map_append, map_singleton, getLast?_concat, length_append,
    length_singleton, range'_concat, getLast?_concat] at ends
  have same := Option.some.inj ends
  omega

theorem latest_eq_none : latest version rows = none ↔ rows = [] := argmax_eq_none

theorem mem_of_latest (found : latest version rows = some r) : r ∈ rows := argmax_mem found

/-- The latest version is the last. -/
theorem Numbered.latest (numbered : Numbered version rows) (found : latest version rows = some r) :
    ∃ before, rows = before ++ [r] ∧ version r = rows.length := by
  have inside := mem_of_latest found
  rcases eq_nil_or_concat' rows with rfl | ⟨before, last, rfl⟩
  · cases inside
  · have lastVersion := numbered.last
    have most := le_of_mem_argmax (mem_append_right before (mem_singleton.mpr rfl)) found
    have bound := (numbered.mem inside).2
    rw [length_append, length_singleton] at bound ⊢
    have equal : r = last := numbered.inj inside
      (mem_append_right _ (mem_singleton.mpr rfl)) (by omega)
    exact ⟨before, by rw [equal], equal ▸ lastVersion⟩

theorem Numbered.latest_snoc {before : List α} (numbered : Numbered version (before ++ [r])) :
    Versioned.latest version (before ++ [r]) = some r := by
  cases found : Versioned.latest version (before ++ [r]) with
  | none => exact absurd (latest_eq_none.mp found) (by simp)
  | some r' =>
    obtain ⟨before', split, -⟩ := numbered.latest found
    rw [singleton_inj.mp (append_inj' split rfl).2]

/-! ## Many records -/

section Keyed

variable [DecidableEq κ] {key : α → κ} {k : κ}

/-- The rows of one record. -/
def versionsOf (key : α → κ) (rows : List α) (k : κ) : List α := rows.filter (key · = k)

/-- The latest version of a record. -/
def head (key : α → κ) (version : α → Nat) (rows : List α) (k : κ) : Option α :=
  latest version (versionsOf key rows k)

def NumberedEach (key : α → κ) (version : α → Nat) (rows : List α) : Prop :=
  ∀ k, Numbered version (versionsOf key rows k)

theorem mem_versionsOf : r ∈ versionsOf key rows k ↔ r ∈ rows ∧ key r = k := by
  rw [versionsOf, mem_filter, decide_eq_true_eq]

theorem versionsOf_snoc_self : versionsOf key (rows ++ [r]) (key r) = versionsOf key rows (key r) ++ [r] := by
  simp [versionsOf]

theorem versionsOf_snoc_of_ne (other : key r ≠ k) :
    versionsOf key (rows ++ [r]) k = versionsOf key rows k := by
  simp [versionsOf, other]

theorem mem_of_head (found : head key version rows k = some r) : r ∈ rows ∧ key r = k :=
  mem_versionsOf.mp (mem_of_latest found)

theorem head_eq_none : head key version rows k = none ↔ versionsOf key rows k = [] := latest_eq_none

theorem NumberedEach.nil : NumberedEach key version [] := fun _ => .nil

theorem NumberedEach.snoc (numbered : NumberedEach key version rows)
    (next : version r = (versionsOf key rows (key r)).length + 1) :
    NumberedEach key version (rows ++ [r]) := by
  intro k
  by_cases same : key r = k
  · subst same
    rw [versionsOf_snoc_self]
    exact (numbered _).snoc next
  · rw [versionsOf_snoc_of_ne same]
    exact numbered k

theorem NumberedEach.head_version (numbered : NumberedEach key version rows)
    (found : head key version rows k = some r) : version r = (versionsOf key rows k).length :=
  ((numbered k).latest found).choose_spec.2

theorem NumberedEach.head_elim (numbered : NumberedEach key version rows) :
    (head key version rows k).elim 0 version = (versionsOf key rows k).length := by
  cases found : head key version rows k with
  | none =>
    rw [head_eq_none.mp found]
    rfl
  | some r => exact numbered.head_version found

theorem NumberedEach.head_of_getLast (numbered : NumberedEach key version rows)
    (last : (versionsOf key rows k).getLast? = some r) : head key version rows k = some r := by
  obtain ⟨before, split⟩ := getLast?_eq_some_iff.mp last
  have each := numbered k
  rw [split] at each
  rw [head, split]
  exact each.latest_snoc

theorem head_snoc_of_ne (other : key r ≠ k) :
    head key version (rows ++ [r]) k = head key version rows k := by
  rw [head, versionsOf_snoc_of_ne other]
  rfl

theorem NumberedEach.head_snoc_self (numbered : NumberedEach key version rows)
    (next : version r = (versionsOf key rows (key r)).length + 1) :
    head key version (rows ++ [r]) (key r) = some r := by
  have after := numbered.snoc next (key r)
  rw [versionsOf_snoc_self] at after
  rw [head, versionsOf_snoc_self]
  exact after.latest_snoc

/-- The next versions of several records, appended together. -/
theorem NumberedEach.append {new : List α} (numbered : NumberedEach key version rows)
    (distinct : (new.map key).Nodup)
    (next : ∀ r ∈ new, version r = (versionsOf key rows (key r)).length + 1) :
    NumberedEach key version (rows ++ new) ∧
      (∀ r ∈ new, head key version (rows ++ new) (key r) = some r) ∧
      ∀ k, k ∉ new.map key → head key version (rows ++ new) k = head key version rows k := by
  induction new generalizing rows with
  | nil =>
    rw [append_nil]
    exact ⟨numbered, nofun, fun _ _ => rfl⟩
  | cons r new ih =>
    rw [map_cons, nodup_cons] at distinct
    have first := next r mem_cons_self
    have other (r' : α) (mem : r' ∈ new) : key r ≠ key r' :=
      fun same => distinct.1 (same ▸ mem_map_of_mem mem)
    obtain ⟨numbered', heads, rest⟩ := ih (numbered.snoc first) distinct.2 fun r' mem => by
      rw [versionsOf_snoc_of_ne (other r' mem)]
      exact next r' (mem_cons_of_mem _ mem)
    rw [← append_cons] at numbered' heads rest
    refine ⟨numbered', fun r' mem => ?_, fun k out => ?_⟩
    · rcases mem_cons.mp mem with rfl | mem
      · rw [rest _ distinct.1]
        exact numbered.head_snoc_self first
      · exact heads r' mem
    · rw [map_cons, mem_cons, not_or] at out
      rw [rest k out.2, head_snoc_of_ne fun same => out.1 same.symm]

/-- A version that is not in the table, after one that is, is the next. -/
theorem NumberedEach.next_of_absent {n : Nat} (numbered : NumberedEach key version rows)
    (reached : n ≤ (versionsOf key rows k).length)
    (absent : ∀ r ∈ rows, ¬ (key r = k ∧ version r = n + 1)) : n = (versionsOf key rows k).length := by
  by_contra short
  have listed : n + 1 ∈ (versionsOf key rows k).map version := by
    rw [numbered k, mem_range'_1]
    omega
  obtain ⟨r, inside, at_⟩ := mem_map.mp listed
  obtain ⟨inside, key_⟩ := mem_versionsOf.mp inside
  exact absent r inside ⟨key_, at_⟩

end Keyed

end Versioned
