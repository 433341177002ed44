import Mathlib.Data.Finset.Card

/-!
# Grouping in insertion order

`groupBy key l` walks `l` and files each element under its key, the way a program fills an insertion
ordered map of arrays.  `mem_groupBy` reads the groups off the list: one group for each key that
occurs, holding the elements with that key in their order.
-/

namespace GroupBy

open List

variable {α κ : Type*} [DecidableEq κ]

/-- File `a` under `k`, behind the groups that exist. -/
def insertGroup (k : κ) (a : α) : List (κ × List α) → List (κ × List α)
  | [] => [(k, [a])]
  | (j, group) :: rest =>
    if j = k then (j, group ++ [a]) :: rest else (j, group) :: insertGroup k a rest

def groupBy (key : α → κ) (l : List α) : List (κ × List α) :=
  l.foldl (fun groups a => insertGroup (key a) a groups) []

variable {key : α → κ} {groups : List (κ × List α)} {j k : κ} {a : α} {l group : List α}

theorem mem_keys_insertGroup :
    j ∈ (insertGroup k a groups).map Prod.fst ↔ j = k ∨ j ∈ groups.map Prod.fst := by
  induction groups with
  | nil => simp [insertGroup]
  | cons head rest ih =>
    obtain ⟨i, group⟩ := head
    unfold insertGroup
    split
    next same =>
      simp only [map_cons, mem_cons, same]
      tauto
    next =>
      simp only [map_cons, mem_cons, ih]
      tauto

theorem nodup_insertGroup (nodup : (groups.map Prod.fst).Nodup) :
    ((insertGroup k a groups).map Prod.fst).Nodup := by
  induction groups with
  | nil => simp [insertGroup]
  | cons head rest ih =>
    obtain ⟨i, group⟩ := head
    rw [map_cons, nodup_cons] at nodup
    unfold insertGroup
    split
    next => exact nodup_cons.mpr nodup
    next other =>
      refine nodup_cons.mpr ⟨fun mem => ?_, ih nodup.2⟩
      rcases mem_keys_insertGroup.mp mem with same | old
      · exact other same
      · exact nodup.1 old

/-- The group of `k` gains `a`; the other groups stay. -/
theorem mem_insertGroup (nodup : (groups.map Prod.fst).Nodup) :
    (j, group) ∈ insertGroup k a groups ↔
      j ≠ k ∧ (j, group) ∈ groups ∨
        j = k ∧ ((∃ old, (k, old) ∈ groups ∧ group = old ++ [a]) ∨
          k ∉ groups.map Prod.fst ∧ group = [a]) := by
  induction groups with
  | nil =>
    simp [insertGroup]
  | cons head rest ih =>
    obtain ⟨i, first⟩ := head
    rw [map_cons, nodup_cons] at nodup
    obtain ⟨fresh, nodup⟩ := nodup
    have absent : ∀ g, (i, g) ∉ rest := fun g mem => fresh (mem_map.mpr ⟨(i, g), mem, rfl⟩)
    unfold insertGroup
    split
    next same =>
      subst same
      by_cases here : j = i
      · subst here
        simp [absent]
      · simp [here]
    next other =>
      simp only [mem_cons, Prod.mk.injEq, ih nodup, map_cons, Ne.symm other, false_and,
        false_or]
      by_cases here : j = k
      · simp [here, Ne.symm other]
      · simp [here]

/-- The groups after each prefix: distinct keys, each with the elements filed under it. -/
private theorem groupBy_spec (key : α → κ) (l : List α) :
    ((groupBy key l).map Prod.fst).Nodup ∧
      ∀ j group, (j, group) ∈ groupBy key l ↔
        group = l.filter (fun a => key a = j) ∧ group ≠ [] := by
  induction l using reverseRecOn with
  | nil => exact ⟨nodup_nil, fun j group => by simp [groupBy]⟩
  | append_singleton l a ih =>
    obtain ⟨nodup, spec⟩ := ih
    have unfold_last : groupBy key (l ++ [a]) = insertGroup (key a) a (groupBy key l) := by
      simp [groupBy]
    have occurs : key a ∈ (groupBy key l).map Prod.fst ↔
        l.filter (fun b => key b = key a) ≠ [] := by
      simp only [mem_map, Prod.exists, exists_and_right, exists_eq_right, spec]
      exact ⟨fun ⟨_, eq, filled⟩ => eq ▸ filled, fun filled => ⟨_, rfl, filled⟩⟩
    rw [unfold_last]
    refine ⟨nodup_insertGroup nodup, fun j group => ?_⟩
    rw [mem_insertGroup nodup, filter_append]
    by_cases here : j = key a
    · subst here
      simp only [ne_eq, not_true, false_and, false_or, true_and, spec, occurs, not_not,
        filter_cons, decide_true, if_true, filter_nil]
      constructor
      · rintro (⟨old, ⟨rfl, -⟩, rfl⟩ | ⟨empty, rfl⟩)
        · exact ⟨rfl, by simp⟩
        · exact ⟨by rw [empty, nil_append], by simp⟩
      · rintro ⟨rfl, -⟩
        by_cases empty : l.filter (fun b => key b = key a) = []
        · exact .inr ⟨empty, by rw [empty, nil_append]⟩
        · exact .inl ⟨_, ⟨rfl, empty⟩, rfl⟩
    · have miss : ([a].filter fun b => key b = j) = [] := by simp [Ne.symm here]
      simp [here, spec, miss]

theorem nodup_groupBy : ((groupBy key l).map Prod.fst).Nodup := (groupBy_spec key l).1

theorem mem_groupBy : (j, group) ∈ groupBy key l ↔
    group = l.filter (fun a => key a = j) ∧ group ≠ [] := (groupBy_spec key l).2 j group

/-- The keys of the groups are the keys that occur. -/
theorem mem_keys_groupBy : j ∈ (groupBy key l).map Prod.fst ↔ ∃ a ∈ l, key a = j := by
  simp only [mem_map, Prod.exists, exists_and_right, exists_eq_right, mem_groupBy]
  constructor
  · rintro ⟨group, rfl, filled⟩
    obtain ⟨a, mem⟩ := exists_mem_of_ne_nil _ filled
    simp only [mem_filter, decide_eq_true_eq] at mem
    exact ⟨a, mem⟩
  · rintro ⟨a, mem, same⟩
    exact ⟨_, rfl, ne_nil_of_mem (mem_filter.mpr ⟨mem, decide_eq_true same⟩)⟩

/-- Each group is filtered out of the list. -/
theorem groupBy_eq_map : groupBy key l =
    ((groupBy key l).map Prod.fst).map fun k => (k, l.filter fun a => key a = k) := by
  rw [map_map]
  refine (map_id _).symm.trans (map_congr_left fun entry mem => ?_)
  exact Prod.ext rfl (mem_groupBy.mp mem).1

/-- The keys of a permuted list are the same. -/
theorem keys_perm {l' : List α} (permuted : l.Perm l') :
    ((groupBy key l).map Prod.fst).Perm ((groupBy key l').map Prod.fst) := by
  rw [perm_ext_iff_of_nodup nodup_groupBy nodup_groupBy]
  intro k
  simp only [mem_keys_groupBy, permuted.mem_iff]

theorem insertGroup_perm : ((insertGroup k a groups).flatMap Prod.snd).Perm
    (groups.flatMap Prod.snd ++ [a]) := by
  induction groups with
  | nil => exact Perm.refl _
  | cons head rest ih =>
    obtain ⟨i, group⟩ := head
    unfold insertGroup
    split
    next =>
      simp only [flatMap_cons, append_assoc]
      exact Perm.append_left group perm_append_comm
    next =>
      simp only [flatMap_cons, append_assoc]
      exact Perm.append_left group ih

/-- The groups hold the elements of the list and no others. -/
theorem groupBy_perm (key : α → κ) (l : List α) : ((groupBy key l).flatMap Prod.snd).Perm l := by
  induction l using reverseRecOn with
  | nil => exact Perm.refl _
  | append_singleton l a ih =>
    have last : groupBy key (l ++ [a]) = insertGroup (key a) a (groupBy key l) := by
      simp [groupBy]
    rw [last]
    exact insertGroup_perm.trans (ih.append_right [a])

theorem insertGroup_of_not_mem (fresh : k ∉ groups.map Prod.fst) :
    insertGroup k a groups = groups ++ [(k, [a])] := by
  induction groups with
  | nil => rfl
  | cons head rest ih =>
    obtain ⟨i, group⟩ := head
    rw [map_cons, mem_cons, not_or] at fresh
    unfold insertGroup
    rw [if_neg fun same => fresh.1 same.symm, ih fresh.2]
    rfl

/-- Distinct keys make a group of each element, in their order. -/
theorem groupBy_of_nodup (nodup : (l.map key).Nodup) : groupBy key l = l.map fun a => (key a, [a]) := by
  induction l using reverseRecOn with
  | nil => rfl
  | append_singleton l a ih =>
    have last : groupBy key (l ++ [a]) = insertGroup (key a) a (groupBy key l) := by
      simp [groupBy]
    rw [map_append, nodup_append'] at nodup
    obtain ⟨before, -, apart⟩ := nodup
    have fresh : key a ∉ (groupBy key l).map Prod.fst := by
      rw [mem_keys_groupBy]
      rintro ⟨b, mem, same⟩
      exact apart (mem_map.mpr ⟨b, mem, same⟩) mem_cons_self
    rw [last, insertGroup_of_not_mem fresh, ih before, map_append]
    rfl

/-- There are as many groups as distinct keys. -/
theorem length_groupBy : (groupBy key l).length = (l.map key).toFinset.card := by
  have keys : ((groupBy key l).map Prod.fst).toFinset = (l.map key).toFinset := by
    ext j
    rw [mem_toFinset, mem_toFinset, mem_keys_groupBy, mem_map]
  rw [← keys, toFinset_card_of_nodup nodup_groupBy, length_map]

end GroupBy
