import Mathlib.Data.List.Sort

/-!
# Lists of distinct keys

Finding by a key in a list whose elements have distinct keys does not depend on its order; where the
keys rise, the last element of a filter is the highest one.
-/

namespace Keyed

open List

variable {α κ : Type*} [DecidableEq κ] {key : α → κ} {l l' : List α} {a : α} {k : κ}

theorem find?_eq_some_iff (nodup : (l.map key).Nodup) :
    l.find? (fun b => decide (key b = k)) = some a ↔ a ∈ l ∧ key a = k := by
  have of_found {b : α} (found : l.find? (fun b => decide (key b = k)) = some b) : key b = k := by
    have holds := find?_some found
    exact of_decide_eq_true holds
  refine ⟨fun found => ?_, fun ⟨mem, same⟩ => ?_⟩
  · exact ⟨mem_of_find?_eq_some found, of_found found⟩
  · cases found : l.find? (fun b => decide (key b = k)) with
    | none => exact absurd same (of_decide_eq_false
        (Bool.eq_false_iff.mpr (find?_eq_none.mp found a mem)))
    | some b =>
      rw [inj_on_of_nodup_map nodup (mem_of_find?_eq_some found) mem
        ((of_found found).trans same.symm)]

theorem find?_of_mem (nodup : (l.map key).Nodup) (mem : a ∈ l) :
    l.find? (fun b => decide (key b = key a)) = some a :=
  (find?_eq_some_iff nodup).mpr ⟨mem, rfl⟩

theorem find?_eq_none_iff :
    l.find? (fun b => decide (key b = k)) = none ↔ k ∉ l.map key := by
  simp [find?_eq_none]

theorem find?_eq_of_perm (nodup : (l.map key).Nodup) (permuted : l.Perm l') :
    l'.find? (fun b => decide (key b = k)) = l.find? (fun b => decide (key b = k)) := by
  have nodup' : (l'.map key).Nodup := (permuted.map key).nodup_iff.mp nodup
  refine Option.ext fun a => ?_
  rw [find?_eq_some_iff nodup, find?_eq_some_iff nodup', permuted.mem_iff]

section Sorting

variable {r : κ → κ → Prop} [DecidableRel r]

/-- Inserting by its key does not hide an element from a search by key. -/
theorem find?_orderedInsert (refl : ∀ k, r k k) :
    (l.orderedInsert (fun a b => r (key a) (key b)) a).find? (fun b => decide (key b = k)) =
      (a :: l).find? fun b => decide (key b = k) := by
  induction l with
  | nil => rfl
  | cons b l ih =>
    rw [orderedInsert_cons]
    split
    next before => rfl
    next after =>
      rw [find?_cons, ih, find?_cons, find?_cons, find?_cons]
      by_cases first : key a = k
      · have differ : key b ≠ k := by
          intro same
          exact after (same ▸ first ▸ refl k)
        rw [decide_eq_true first, decide_eq_false differ]
      · rw [decide_eq_false first]

/-- Sorting by the key keeps what a search by key finds. -/
theorem find?_insertionSort (refl : ∀ k, r k k) :
    (l.insertionSort fun a b => r (key a) (key b)).find? (fun b => decide (key b = k)) =
      l.find? fun b => decide (key b = k) := by
  induction l with
  | nil => rfl
  | cons b l ih => rw [insertionSort_cons, find?_orderedInsert refl, find?_cons,
      find?_cons, ih]

end Sorting

/-- In a list with rising ranks the last element of a filter is the highest that passes. -/
theorem getLast?_filter_eq_some_iff {β : Type*} [LinearOrder β] {rank : α → β} {p : α → Bool}
    (rising : l.Pairwise fun a b => rank a < rank b) :
    (l.filter p).getLast? = some a ↔ a ∈ l ∧ p a ∧ ∀ b ∈ l, p b → rank b ≤ rank a := by
  have passing := rising.filter p
  constructor
  · intro last
    obtain ⟨before, split⟩ := getLast?_eq_some_iff.mp last
    have mem : a ∈ l.filter p := mem_of_getLast? last
    refine ⟨(mem_filter.mp mem).1, (mem_filter.mp mem).2, fun b inside passes => ?_⟩
    have mem' : b ∈ before ++ [a] := split ▸ mem_filter.mpr ⟨inside, passes⟩
    rw [split] at passing
    rcases mem_append.mp mem' with earlier | same
    · exact le_of_lt ((pairwise_append.mp passing).2.2 b earlier a mem_cons_self)
    · rw [mem_singleton.mp same]
  · rintro ⟨inside, passes, highest⟩
    have mem : a ∈ l.filter p := mem_filter.mpr ⟨inside, passes⟩
    obtain ⟨z, last⟩ := Option.isSome_iff_exists.mp
      (getLast?_isSome.mpr (ne_nil_of_mem mem))
    obtain ⟨before, split⟩ := getLast?_eq_some_iff.mp last
    have below := highest z (mem_filter.mp (mem_of_getLast? last)).1
      (mem_filter.mp (mem_of_getLast? last)).2
    rw [split] at mem passing
    rcases mem_append.mp mem with earlier | same
    · exact absurd ((pairwise_append.mp passing).2.2 a earlier z mem_cons_self)
        (not_lt.mpr below)
    · rw [last, mem_singleton.mp same]

/-! ## Insertion under a key -/

/-- Puts an element where its key stands, and last when the key is new. -/
def upsert (key : α → κ) (a : α) (l : List α) : List α :=
  if l.any fun b => key b = key a then l.map fun b => if key b = key a then a else b else l ++ [a]

theorem mem_upsert_self : a ∈ upsert key a l := by
  unfold upsert
  split
  next there =>
    obtain ⟨b, mem, same⟩ := any_eq_true.mp there
    exact mem_map.mpr ⟨b, mem, if_pos (of_decide_eq_true same)⟩
  next => exact mem_append_right l (mem_singleton.mpr rfl)

theorem mem_upsert {b : α} : b ∈ upsert key a l ↔ b = a ∨ b ∈ l ∧ key b ≠ key a := by
  constructor
  · intro mem
    unfold upsert at mem
    split at mem
    next =>
      obtain ⟨c, inside, rfl⟩ := mem_map.mp mem
      by_cases same : key c = key a
      · exact .inl (if_pos same)
      · rw [if_neg same]
        exact .inr ⟨inside, same⟩
    next new =>
      rcases mem_append.mp mem with inside | last
      · refine .inr ⟨inside, fun same => new ?_⟩
        exact any_eq_true.mpr ⟨b, inside, decide_eq_true same⟩
      · exact .inl (mem_singleton.mp last)
  · rintro (rfl | ⟨inside, differ⟩)
    · exact mem_upsert_self
    · unfold upsert
      split
      next => exact mem_map.mpr ⟨b, inside, if_neg differ⟩
      next => exact mem_append_left _ inside

/-- The keys stay where they are. -/
theorem map_key_upsert : (upsert key a l).map key =
    if key a ∈ l.map key then l.map key else l.map key ++ [key a] := by
  have there : (l.any fun b => decide (key b = key a)) = true ↔ key a ∈ l.map key := by
    simp [any_eq_true]
  unfold upsert
  by_cases mem : key a ∈ l.map key
  · rw [if_pos (there.mpr mem), if_pos mem, map_map]
    refine map_congr_left fun b _ => ?_
    by_cases same : key b = key a
    · simp [same]
    · simp [same]
  · rw [if_neg (mt there.mp mem), if_neg mem, map_append, map_singleton]

theorem nodup_upsert (nodup : (l.map key).Nodup) : ((upsert key a l).map key).Nodup := by
  rw [map_key_upsert]
  split
  next => exact nodup
  next new =>
    refine nodup_append'.mpr ⟨nodup, nodup_singleton _, fun k old last => new ?_⟩
    exact mem_singleton.mp last ▸ old

/-- In a list numbered from `n + 1` on, those past the number `n + k` follow the first `k`. -/
theorem filter_eq_drop {number : α → ℕ} {n k size : ℕ}
    (numbered : l.map number = range' (n + 1) size) :
    l.filter (fun a => n + k < number a) = l.drop k := by
  induction l generalizing n k size with
  | nil => rw [drop_nil, filter_nil]
  | cons a l ih =>
    obtain _ | size := size
    · cases numbered
    rw [map_cons, range'_succ] at numbered
    obtain ⟨first, rest⟩ := cons.inj numbered
    cases k with
    | zero =>
      have above : ∀ b ∈ a :: l, n + 0 < number b := by
        intro b mem
        have inside : number b ∈ range' (n + 1) (size + 1) := by
          rw [range'_succ, ← numbered]
          exact mem_map_of_mem mem
        have low := (mem_range'_1.mp inside).1
        omega
      exact filter_eq_self.mpr (by simpa using above)
    | succ k =>
      rw [filter_cons_of_neg (by simp [first]), drop_succ_cons, ← ih rest]
      refine filter_congr fun b _ => decide_eq_decide.mpr ?_
      omega

end Keyed

export Option (some.inj)
