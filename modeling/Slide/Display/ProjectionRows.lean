import Mathlib.Data.List.InsertIdx
import Slide.Display.MessageProjection
import Slide.Library.Keyed

/-!
# Rows of the projection

What the list operations of the reducer do to rows with distinct ids: which rows stay, which are
rewritten, and that the ids stay distinct.
-/

namespace Slide.Display

open List

/-- The ids of the rows are distinct. -/
def Distinct (parts : List ProjectedPart) : Prop := (parts.map ProjectedPart.id).Nodup

section Rows

variable {parts kept original anchor : List ProjectedPart} {p q row : ProjectedPart} {id : String}
  {set : MessagePart → MessagePart}

theorem Distinct.eq_of_id (distinct : Distinct parts) (left : p ∈ parts) (right : q ∈ parts)
    (same : p.id = q.id) : p = q := inj_on_of_nodup_map distinct left right same

theorem Distinct.sublist (distinct : Distinct parts) (sub : kept.Sublist parts) : Distinct kept :=
  List.Nodup.sublist (sub.map _) distinct

theorem Distinct.snoc (distinct : Distinct parts) (fresh : ¬ hasPart parts p.id) :
    Distinct (parts ++ [p]) := by
  unfold Distinct
  rw [map_append, nodup_append]
  refine ⟨distinct, nodup_singleton _, fun a old b new same => ?_⟩
  obtain ⟨q, mem, rfl⟩ := mem_map.mp old
  rw [map_singleton, mem_singleton] at new
  exact fresh ⟨q, mem, same.trans new⟩

/-! ### Looking up -/

theorem mem_of_findPart (found : findPart parts id = some p) : p ∈ parts ∧ p.id = id :=
  ⟨mem_of_find?_eq_some found, by simpa using find?_some found⟩

theorem findPart_eq_none_iff : findPart parts id = none ↔ ¬ hasPart parts id := by
  simp [findPart, hasPart]

/-! ### Rewriting one row -/

theorem map_id_updateFirst (keep : ∀ part, (set part).id = part.id) :
    (updateFirst id set parts).map ProjectedPart.id = parts.map ProjectedPart.id := by
  induction parts with
  | nil => rfl
  | cons p rest ih =>
    unfold updateFirst
    split
    next => exact congrArg (· :: _) (keep p.part)
    next => exact congrArg (_ :: ·) ih

variable (id set) in
theorem mem_updateFirst (distinct : Distinct parts) (mem : q ∈ parts) :
    (if q.id = id then { q with part := set q.part } else q) ∈ updateFirst id set parts := by
  induction parts with
  | nil => cases mem
  | cons p rest ih =>
    obtain ⟨new, distinct⟩ := nodup_cons.mp distinct
    unfold updateFirst
    rcases mem_cons.mp mem with rfl | later
    · split <;> exact mem_cons_self
    · split
      next hit =>
        have other : q.id ≠ id := fun same =>
          new (hit.trans same.symm ▸ mem_map_of_mem later)
        rw [if_neg other]
        exact mem_cons_of_mem _ later
      next => exact mem_cons_of_mem _ (ih distinct later)

theorem map_id_replaceFirst :
    (replaceFirst row parts).map ProjectedPart.id = parts.map ProjectedPart.id := by
  induction parts with
  | nil => rfl
  | cons p rest ih =>
    unfold replaceFirst
    split
    next hit => exact congrArg (· :: _) hit.symm
    next => exact congrArg (_ :: ·) ih

variable (row) in
theorem mem_replaceFirst (mem : q ∈ parts) :
    if q.id = row.id then row ∈ replaceFirst row parts else q ∈ replaceFirst row parts := by
  induction parts with
  | nil => cases mem
  | cons p rest ih =>
    unfold replaceFirst
    rcases mem_cons.mp mem with rfl | later
    · split <;> exact mem_cons_self
    · have rest := ih later
      by_cases same : q.id = row.id
      · rw [if_pos same] at rest ⊢
        split
        next => exact mem_cons_self
        next => exact mem_cons_of_mem _ rest
      · rw [if_neg same] at rest ⊢
        split
        next => exact mem_cons_of_mem _ later
        next => exact mem_cons_of_mem _ rest

/-! ### Anchors and snapshots -/

variable (original) in
theorem mergeKept_perm (fresh : ¬ hasPart parts p.id) :
    (mergeKept original parts p).Perm (p :: parts) := by
  unfold mergeKept
  rw [if_neg fresh]
  have within : ∀ a : ProjectedPart, hasPart parts a.id →
      parts.findIdx (fun b => b.id = a.id) < parts.length := fun a known => by
    obtain ⟨b, mem, same⟩ := known
    exact findIdx_lt_length_of_exists ⟨b, mem, decide_eq_true same⟩
  apply perm_insertIdx
  split
  next before found => exact within _ (by simpa using find?_some found)
  next after found => exact (within _ (by simpa using find?_some found)).le
  next => exact Nat.zero_le _

theorem mergeKept_of_hasPart (present : hasPart parts p.id) :
    mergeKept original parts p = parts := if_pos present

theorem Distinct.mergeKept (distinct : Distinct parts) :
    Distinct (mergeKept original parts p) := by
  by_cases present : hasPart parts p.id
  · rwa [mergeKept_of_hasPart present]
  · have perm := (mergeKept_perm original present).map ProjectedPart.id
    unfold Distinct
    rw [perm.nodup_iff, map_cons, nodup_cons]
    refine ⟨fun old => present ?_, distinct⟩
    obtain ⟨q, mem, same⟩ := mem_map.mp old
    exact ⟨q, mem, same⟩

/-- The rows agree with the kept parts on the ids they share. -/
def Agrees (kept parts : List ProjectedPart) : Prop := ∀ r ∈ parts, ∀ k ∈ kept, r.id = k.id → r = k

theorem Agrees.foldl_mergeKept {merging : List ProjectedPart} (distinct : Distinct kept)
    (sub : merging ⊆ kept) (agrees : Agrees kept parts) :
    (∀ r ∈ parts, r ∈ merging.foldl (mergeKept original) parts) ∧
      ∀ k ∈ merging, k ∈ merging.foldl (mergeKept original) parts := by
  induction merging generalizing parts with
  | nil => exact ⟨fun _ mem => mem, forall_mem_nil _⟩
  | cons p rest ih =>
    have inside : p ∈ kept := sub mem_cons_self
    have grown : (∀ r ∈ parts, r ∈ mergeKept original parts p) ∧ p ∈ mergeKept original parts p ∧
        Agrees kept (mergeKept original parts p) := by
      by_cases present : hasPart parts p.id
      · obtain ⟨q, mem, same⟩ := present
        rw [mergeKept_of_hasPart ⟨q, mem, same⟩]
        exact ⟨fun _ mem => mem, agrees q mem p inside same ▸ mem, agrees⟩
      · have perm := mergeKept_perm original present
        refine ⟨fun r mem => perm.mem_iff.mpr (mem_cons_of_mem _ mem),
          perm.mem_iff.mpr mem_cons_self, fun r mem k there same => ?_⟩
        rcases mem_cons.mp (perm.mem_iff.mp mem) with rfl | old
        · exact distinct.eq_of_id inside there same
        · exact agrees r old k there same
    obtain ⟨stay, merged⟩ := ih (fun k mem => sub (mem_cons_of_mem _ mem)) grown.2.2
    refine ⟨fun r mem => stay r (grown.1 r mem), fun k mem => ?_⟩
    rcases mem_cons.mp mem with rfl | later
    · exact stay k grown.2.1
    · exact merged k later

theorem mem_resetParts (distinct : Distinct kept) (mem : p ∈ kept) :
    p ∈ resetParts original kept anchor := by
  have agrees : Agrees kept (anchor.map fun a => (findPart kept a.id).getD a) := by
    intro r inside k there same
    obtain ⟨a, -, rfl⟩ := mem_map.mp inside
    cases found : findPart kept a.id with
    | none =>
      rw [found] at same
      exact absurd ⟨k, there, same.symm⟩ (findPart_eq_none_iff.mp found)
    | some k' =>
      rw [found] at same
      exact distinct.eq_of_id (mem_of_findPart found).1 there same
  exact (agrees.foldl_mergeKept distinct (List.Subset.refl _)).2 p mem

theorem Distinct.resetParts (distinct : Distinct anchor) :
    Distinct (resetParts original kept anchor) := by
  have base : Distinct (anchor.map fun a => (findPart kept a.id).getD a) := by
    unfold Distinct
    rw [map_map]
    have same : ∀ a ∈ anchor,
        (ProjectedPart.id ∘ fun a => (findPart kept a.id).getD a) a = a.id := by
      intro a _
      cases found : findPart kept a.id with
      | none => simp [found]
      | some k => simpa [found] using (mem_of_findPart found).2
    rwa [map_congr_left same]
  unfold Display.resetParts
  generalize (anchor.map fun a => (findPart kept a.id).getD a) = rows at base ⊢
  generalize kept = merging
  induction merging generalizing rows with
  | nil => exact base
  | cons p rest ih => exact ih _ base.mergeKept

theorem Distinct.overlay (distinct : Distinct parts) : Distinct (overlay parts p) := by
  unfold Display.overlay
  split
  next =>
    unfold Distinct
    rwa [map_id_replaceFirst]
  next fresh => exact distinct.snoc fresh

theorem Distinct.foldl_overlay (distinct : Distinct parts) :
    Distinct (kept.foldl Display.overlay parts) := by
  induction kept generalizing parts with
  | nil => exact distinct
  | cons p rest ih => exact ih distinct.overlay

theorem mem_overlay_self : p ∈ overlay parts p := by
  unfold overlay
  split
  next present =>
    obtain ⟨q, mem, same⟩ := present
    have here := mem_replaceFirst p mem
    rwa [if_pos same] at here
  next => exact mem_append_right _ mem_cons_self

theorem mem_overlay_of_ne (mem : q ∈ parts) (other : q.id ≠ p.id) : q ∈ overlay parts p := by
  unfold overlay
  split
  next =>
    have here := mem_replaceFirst p mem
    rwa [if_neg other] at here
  next => exact mem_append_left _ mem

theorem mem_foldl_overlay (distinct : Distinct kept) (mem : p ∈ kept) :
    p ∈ kept.foldl overlay parts := by
  have stays : ∀ {later rows : List ProjectedPart}, p ∈ rows → (∀ k ∈ later, p.id ≠ k.id) →
      p ∈ later.foldl overlay rows := by
    intro later
    induction later with
    | nil => exact fun here _ => here
    | cons k rest ih =>
      exact fun here others => ih (mem_overlay_of_ne here (others k mem_cons_self))
        fun k mem => others k (mem_cons_of_mem _ mem)
  induction kept generalizing parts with
  | nil => cases mem
  | cons k rest ih =>
    obtain ⟨new, distinct⟩ := nodup_cons.mp distinct
    rw [foldl_cons]
    rcases mem_cons.mp mem with rfl | later
    · exact stays mem_overlay_self fun k inside same => new (same ▸ mem_map_of_mem inside)
    · exact ih distinct later

end Rows

end Slide.Display
