import Mathlib.Data.List.AList
import Slide.Library.Keyed

/-!
# Rows under a primary key

A `Table κ ρ` holds at most one row per key.  `updateWhere` is a keyed, guarded update
together with its count of affected rows; `insertNew` keeps an existing row.  The simp
lemmas read both through `get`, so that later proofs never unfold the row list.
-/

/-- Rows of one table under their primary key, at most one for each key. -/
structure Table (κ ρ : Type*) where
  rows : AList fun _ : κ => ρ

namespace Table

open List

variable {κ ρ : Type*} [DecidableEq κ]

/-- The table without rows. -/
def empty : Table κ ρ := ⟨∅⟩

/-- The row stored under a key. -/
def get (t : Table κ ρ) (k : κ) : Option ρ := t.rows.lookup k

/-- All rows, in no particular order. -/
def toList (t : Table κ ρ) : List ρ := t.rows.entries.map Sigma.snd

/-- All rows with their keys, in no particular order. -/
def entries (t : Table κ ρ) : List (κ × ρ) := t.rows.entries.map fun e => (e.1, e.2)

/-- Store a row under a key, replacing the row that is there. -/
def put (t : Table κ ρ) (k : κ) (r : ρ) : Table κ ρ := ⟨t.rows.insert k r⟩

/-- Store a row only under a key that has none. -/
def insertNew (t : Table κ ρ) (k : κ) (r : ρ) : Table κ ρ :=
  if (t.get k).isSome then t else t.put k r

/-- Remove the rows of some keys. -/
def deleteAll (t : Table κ ρ) (ks : List κ) : Table κ ρ := ⟨ks.foldl (fun rows k => rows.erase k) t.rows⟩

/-- Remove the rows that satisfy the guard of their key, and count them. -/
def deleteWhere (t : Table κ ρ) (guard : κ → ρ → Bool) : Table κ ρ × Nat :=
  let keys := (t.entries.filter fun e => guard e.1 e.2).map Prod.fst
  (t.deleteAll keys, keys.length)

/-- `INSERT … ON DUPLICATE KEY UPDATE` and its count under `FOUND_ROWS`: a row that is set to what it
holds counts as a new one does. -/
def insertOrUpdate [DecidableEq ρ] (t : Table κ ρ) (k : κ) (r : ρ) (set : ρ → ρ) : Table κ ρ × Nat :=
  match t.get k with
  | none => (t.put k r, 1)
  | some old => if set old = old then (t, 1) else (t.put k (set old), 2)

/-- Rewrite the row of `k` when it satisfies the guard, and count the affected rows. -/
def updateWhere (t : Table κ ρ) (k : κ) (guard : ρ → Bool) (set : ρ → ρ) : Table κ ρ × Nat :=
  match t.get k with
  | some r => if guard r then (t.put k (set r), 1) else (t, 0)
  | none => (t, 0)

/-- Rewrite every row that satisfies the guard of its key. -/
def updateAll (t : Table κ ρ) (guard : κ → ρ → Bool) (set : ρ → ρ) : Table κ ρ :=
  (t.entries.map Prod.fst).foldl (fun s k => (s.updateWhere k (guard k) set).1) t

variable {t : Table κ ρ} {k j : κ} {r r' : ρ} {guard : ρ → Bool} {set : ρ → ρ}

@[simp] theorem get_empty (k : κ) : (empty : Table κ ρ).get k = none := rfl

@[simp] theorem get_put_self : (t.put k r).get k = some r := AList.lookup_insert t.rows

theorem get_put_ne (ne : j ≠ k) : (t.put k r).get j = t.get j := AList.lookup_insert_ne ne

theorem get_put : (t.put k r).get j = if j = k then some r else t.get j := by
  split
  next same => rw [same, get_put_self]
  next differ => exact get_put_ne differ

theorem get_insertNew : (t.insertNew k r).get j =
    if j = k ∧ t.get k = none then some r else t.get j := by
  unfold insertNew
  cases found : t.get k with
  | none => simp [get_put]
  | some old => simp

theorem get_deleteAll {ks : List κ} : (t.deleteAll ks).get k = if k ∈ ks then none else t.get k := by
  induction ks generalizing t with
  | nil => simp [deleteAll]
  | cons j ks ih =>
    change (deleteAll ⟨t.rows.erase j⟩ ks).get k = _
    rw [ih]
    by_cases later : k ∈ ks
    · rw [if_pos later, if_pos (mem_cons_of_mem j later)]
    · rw [if_neg later]
      by_cases same : k = j
      · rw [if_pos (same ▸ mem_cons_self), same]
        exact AList.lookup_erase j t.rows
      · rw [if_neg (not_mem_cons_of_ne_of_not_mem same later)]
        exact AList.lookup_erase_ne same

/-- The count of an update that sets nothing does not tell a new row from one that is there. -/
theorem insertOrUpdate_id [DecidableEq ρ] : t.insertOrUpdate k r id = (t.insertNew k r, 1) := by
  unfold insertOrUpdate insertNew
  cases found : t.get k with
  | none => rfl
  | some old => exact if_pos rfl

theorem mem_toList : r ∈ t.toList ↔ ∃ k, t.get k = some r := by
  simp only [toList, get, mem_map, Sigma.exists, AList.mem_lookup_iff, ← Option.mem_def]
  exact ⟨fun ⟨k, v, mem, eq⟩ => ⟨k, by rw [← eq]; exact mem⟩, fun ⟨k, mem⟩ => ⟨k, r, mem, rfl⟩⟩

theorem mem_entries : (k, r) ∈ t.entries ↔ t.get k = some r := by
  simp only [entries, get, mem_map, Sigma.exists, Prod.mk.injEq, AList.mem_lookup_iff,
    ← Option.mem_def]
  exact ⟨fun ⟨_, _, mem, key, row⟩ => key ▸ row ▸ mem, fun mem => ⟨k, r, mem, rfl, rfl⟩⟩

/-- The update affected a row exactly when the key's row satisfies the guard. -/
theorem affected_iff : (t.updateWhere k guard set).2 = 1 ↔
    ∃ r, t.get k = some r ∧ guard r = true := by
  unfold updateWhere
  cases found : t.get k with
  | none => simp
  | some r => by_cases pass : guard r = true <;> simp [pass]

theorem updateWhere_of_pass (found : t.get k = some r) (pass : guard r = true) :
    t.updateWhere k guard set = (t.put k (set r), 1) := by
  simp [updateWhere, found, pass]

/-- An update that affects no row changes nothing. -/
theorem updateWhere_of_not_affected (miss : (t.updateWhere k guard set).2 ≠ 1) :
    (t.updateWhere k guard set).1 = t := by
  revert miss
  unfold updateWhere
  cases found : t.get k with
  | none => simp
  | some r => by_cases pass : guard r = true <;> simp [pass]

/-- Reading after an update: the rewritten row, or the row as it was. -/
theorem get_updateWhere : (t.updateWhere k guard set).1.get j =
    if j = k then (t.get k).map fun r => if guard r then set r else r else t.get j := by
  by_cases same : j = k
  · subst same
    rw [if_pos rfl]
    cases found : t.get j with
    | none => simp [updateWhere, found]
    | some r => by_cases pass : guard r = true <;> simp [updateWhere, found, pass]
  · rw [if_neg same]
    cases found : t.get k with
    | none => simp [updateWhere, found]
    | some r =>
      by_cases pass : guard r = true <;> simp [updateWhere, found, pass, get_put_ne same]

theorem get_updateWhere_ne (ne : j ≠ k) :
    (t.updateWhere k guard set).1.get j = t.get j := by
  rw [get_updateWhere, if_neg ne]

/-- Storing a list under distinct keys, read back. -/
theorem get_foldl_put {key : ρ → κ} {l : List ρ} (nodup : (l.map key).Nodup) :
    (l.foldl (fun t a => t.put (key a) a) t).get k =
      (l.find? fun a => decide (key a = k)).or (t.get k) := by
  induction l generalizing t with
  | nil => rfl
  | cons a l ih =>
    obtain ⟨new, nodup⟩ := nodup_cons.mp nodup
    rw [foldl_cons, ih nodup, find?_cons]
    by_cases same : key a = k
    · have absent : l.find? (fun a => decide (key a = k)) = none :=
        Keyed.find?_eq_none_iff.mpr (same ▸ new)
      rw [absent, ← same, get_put_self, decide_eq_true rfl]
      rfl
    · rw [get_put_ne (Ne.symm same), decide_eq_false same]

theorem key_notMem_entries (absent : t.get k = none) : k ∉ t.entries.map Prod.fst := by
  intro mem
  obtain ⟨⟨j, r⟩, stored, same⟩ := mem_map.mp mem
  subst same
  rw [mem_entries.mp stored] at absent
  cases absent

omit [DecidableEq κ] in
theorem nodup_entries : (t.entries.map Prod.fst).Nodup := by
  have keys : t.entries.map Prod.fst = t.rows.keys := by
    simp [entries, AList.keys, List.keys]
  rw [keys]
  exact t.rows.keys_nodup

/-- The rows of a table that has got one more. -/
theorem toList_perm_cons {t' : Table κ ρ} (absent : t.get k = none)
    (more : ∀ j, t'.get j = if j = k then some r else t.get j) : t'.toList.Perm (r :: t.toList) := by
  have rows (s : Table κ ρ) : s.toList = s.entries.map Prod.snd := by
    simp [toList, entries]
  have fresh : ((k, r) :: t.entries).Nodup :=
    (nodup_entries.of_map _).cons fun mem => key_notMem_entries absent (mem_map_of_mem mem)
  have entries : t'.entries.Perm ((k, r) :: t.entries) := by
    refine (perm_ext_iff_of_nodup (nodup_entries.of_map _) fresh).mpr ?_
    rintro ⟨j, r'⟩
    rw [mem_entries, more, mem_cons, mem_entries, Prod.mk.injEq]
    by_cases same : j = k
    · rw [if_pos same, same, absent]
      simp [eq_comm]
    · simp [same]
  rw [rows, rows]
  exact entries.map Prod.snd

section DeleteWhere

variable {each : κ → ρ → Bool}

/-- Reading after a deletion: what the guard spares. -/
theorem get_deleteWhere : (t.deleteWhere each).1.get k = (t.get k).filter fun r => !each k r := by
  have deleted : k ∈ (t.entries.filter fun e => each e.1 e.2).map Prod.fst ↔
      ∃ r, t.get k = some r ∧ each k r = true := by
    simp only [mem_map, mem_filter, Prod.exists]
    constructor
    · rintro ⟨j, r, ⟨stored, pass⟩, rfl⟩
      exact ⟨r, mem_entries.mp stored, pass⟩
    · rintro ⟨r, stored, pass⟩
      exact ⟨k, r, ⟨mem_entries.mpr stored, pass⟩, rfl⟩
  change (t.deleteAll _).get k = _
  rw [get_deleteAll]
  cases found : t.get k with
  | none => simp
  | some r => by_cases pass : each k r = true <;> simp [deleted, found, pass, Option.filter]

/-- A deletion by the key only. -/
theorem get_deleteWhere_key (gone : κ → Prop) [DecidablePred gone] :
    (t.deleteWhere fun k _ => decide (gone k)).1.get k = if gone k then none else t.get k := by
  rw [get_deleteWhere]
  by_cases removed : gone k
  · rw [if_pos removed, decide_eq_true removed]
    cases t.get k <;> rfl
  · rw [if_neg removed, decide_eq_false removed]
    cases t.get k <;> rfl

/-- A deletion that removes no row has found none. -/
theorem not_of_deleteWhere_zero (miss : (t.deleteWhere each).2 = 0) (stored : t.get k = some r) :
    each k r = false := by
  have empty := map_eq_nil_iff.mp (length_eq_zero_iff.mp miss)
  have spared := filter_eq_nil_iff.mp empty (k, r) (mem_entries.mpr stored)
  exact Bool.eq_false_iff.mpr spared

theorem deleteWhere_of_zero (miss : (t.deleteWhere each).2 = 0) : (t.deleteWhere each).1 = t := by
  change t.deleteAll _ = t
  rw [length_eq_zero_iff.mp miss]
  rfl

end DeleteWhere

section Fold

variable {α : Type*} {step : Table κ ρ → α → Table κ ρ} {f : α → κ} {l : List α} {a : α}

/-- A fold whose steps rewrite one f each leaves the other keys. -/
theorem get_foldl_of_notMem (only : ∀ t a j, j ≠ f a → (step t a).get j = t.get j)
    (absent : k ∉ l.map f) : (l.foldl step t).get k = t.get k := by
  induction l generalizing t with
  | nil => rfl
  | cons e l ih =>
    rw [map_cons, mem_cons, not_or] at absent
    rw [foldl_cons, ih absent.2, only t e k absent.1]

/-- Under distinct keys a key's own step decides it. -/
theorem get_foldl_of_mem (only : ∀ t a j, j ≠ f a → (step t a).get j = t.get j)
    (nodup : (l.map f).Nodup) (mem : a ∈ l) :
    ∃ t' : Table κ ρ, t'.get (f a) = t.get (f a) ∧
      (l.foldl step t).get (f a) = (step t' a).get (f a) := by
  induction l generalizing t with
  | nil => cases mem
  | cons e l ih =>
    rw [map_cons, nodup_cons] at nodup
    rw [foldl_cons]
    rcases mem_cons.mp mem with rfl | later
    · exact ⟨t, rfl, get_foldl_of_notMem only nodup.1⟩
    · obtain ⟨t', same, result⟩ := ih nodup.2 later (t := step t e)
      have differ : f a ≠ f e := by
        intro same
        exact nodup.1 (mem_map.mpr ⟨_, later, same⟩)
      exact ⟨t', same.trans (only t e _ differ), result⟩

end Fold

/-- Reading after an update of every row. -/
theorem get_updateAll {each : κ → ρ → Bool} : (t.updateAll each set).get k =
    (t.get k).map fun r => if each k r then set r else r := by
  have only (s : Table κ ρ) (a j : κ) (differ : j ≠ a) :
      (s.updateWhere a (each a) set).1.get j = s.get j := get_updateWhere_ne differ
  have nodup : ((t.entries.map Prod.fst).map id).Nodup := by
    rw [map_id]
    exact nodup_entries
  unfold updateAll
  cases found : t.get k with
  | none =>
    have absent : k ∉ (t.entries.map Prod.fst).map id := by
      rw [map_id]
      exact key_notMem_entries found
    rw [get_foldl_of_notMem only absent, found]
    rfl
  | some r =>
    have mem : k ∈ t.entries.map Prod.fst := mem_map.mpr ⟨(k, r), mem_entries.mpr found, rfl⟩
    obtain ⟨s, same, result⟩ := get_foldl_of_mem (t := t) only nodup mem
    change s.get k = t.get k at same
    refine result.trans ?_
    rw [get_updateWhere, if_pos rfl, same, found]

end Table
