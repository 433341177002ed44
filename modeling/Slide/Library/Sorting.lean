import Mathlib.Data.List.Pairwise
import Mathlib.Data.List.Sort

/-!
# Lists without two elements of one key

Where no two elements share a key, what is read off a list by its keys does not depend on the order the
elements came in.

* `insertionSort_eq_of_perm`: neither does the list sorted by the key, nor by any order that tells its
  elements apart (`sort_eq_of_perm`).
* `largest_eq_of_perm`: nor does the element of the largest key.
-/

namespace Sorting

open List

variable {α β : Type*} {key : α → β} {l l' : List α} {a b : α}

/-- No two elements share a key. -/
def Distinct (key : α → β) (l : List α) : Prop := l.Pairwise fun a b => key a ≠ key b

theorem Distinct.filter (distinct : Distinct key l) (p : α → Bool) : Distinct key (l.filter p) :=
  Pairwise.filter p distinct

theorem Distinct.eq_of_key (distinct : Distinct key l) (mem : a ∈ l) (mem' : b ∈ l)
    (same : key a = key b) : a = b := by
  have : Std.Symm fun a b : α => key a ≠ key b := ⟨fun _ _ => Ne.symm⟩
  by_contra other
  exact Pairwise.forall distinct mem mem' other same

/-- What a list has, a related list has a counterpart of. -/
theorem exists_of_mem_left {γ : Type*} {R : α → γ → Prop} {m : List γ} (related : Forall₂ R l m)
    (mem : a ∈ l) : ∃ c ∈ m, R a c := by
  induction related with
  | nil => cases mem
  | cons first _ ih =>
    rcases mem_cons.mp mem with rfl | later
    · exact ⟨_, mem_cons_self, first⟩
    · obtain ⟨c, inside, holds⟩ := ih later
      exact ⟨c, mem_cons_of_mem _ inside, holds⟩

/-- An order that holds along a list holds along a related one. -/
theorem pairwise_of_forall₂ {γ : Type*} {R : α → γ → Prop} {S : γ → γ → Prop} {T : α → α → Prop}
    {m : List γ} (related : Forall₂ R l m) (ordered : m.Pairwise S)
    (carries : ∀ a b c d, R a c → R b d → S c d → T a b) : l.Pairwise T := by
  induction related with
  | nil => exact .nil
  | @cons a c l m first rest ih =>
    obtain ⟨before, ordered⟩ := pairwise_cons.mp ordered
    refine pairwise_cons.mpr ⟨fun b mem => ?_, ih ordered⟩
    obtain ⟨d, mem', second⟩ := exists_of_mem_left rest mem
    exact carries a b c d first second (before d mem')

/-- A list sorted by an order in which no two of its elements are equivalent. -/
theorem sort_eq_of_perm {R : α → α → Prop} [DecidableRel R] (total : ∀ a b, R a b ∨ R b a)
    (trans : ∀ a b c, R a b → R b c → R a c)
    (apart : ∀ a ∈ l, ∀ b ∈ l, R a b → R b a → a = b) (permuted : l.Perm l') :
    l.insertionSort R = l'.insertionSort R := by
  have : Std.Total R := ⟨total⟩
  have : IsTrans α R := ⟨trans⟩
  have sorted := perm_insertionSort R l
  have sorted' := perm_insertionSort R l'
  refine ((sorted.trans permuted).trans sorted'.symm).eq_of_pairwise ?_
    (pairwise_insertionSort _ l) (pairwise_insertionSort _ l')
  intro a b mem mem' before after
  have inside : b ∈ l := permuted.mem_iff.mpr (sorted'.mem_iff.mp mem')
  exact apart a (sorted.mem_iff.mp mem) b inside before after

variable [LinearOrder β]

theorem insertionSort_eq_of_perm (distinct : Distinct key l) (permuted : l.Perm l') :
    l.insertionSort (fun a b => key a ≤ key b) = l'.insertionSort fun a b => key a ≤ key b :=
  sort_eq_of_perm (fun a b => le_total (key a) (key b)) (fun _ _ _ => le_trans)
    (fun _ mem _ mem' before after => distinct.eq_of_key mem mem' (le_antisymm before after)) permuted

/-- The element of the largest key; the earliest in the list among equal ones. -/
def largest (key : α → β) (first : α) (rest : List α) : α :=
  rest.foldl (fun left right => if key left < key right then right else left) first

theorem largest_spec (key : α → β) (first : α) (rest : List α) :
    largest key first rest ∈ first :: rest ∧
      ∀ a ∈ first :: rest, key a ≤ key (largest key first rest) := by
  induction rest generalizing first with
  | nil => exact ⟨mem_cons_self, fun a mem => by rw [mem_singleton.mp mem]; exact le_rfl⟩
  | cons second rest ih =>
    have step : largest key first (second :: rest) =
        largest key (if key first < key second then second else first) rest := rfl
    obtain ⟨mem, above⟩ := ih (if key first < key second then second else first)
    obtain ⟨best, all⟩ := forall_mem_cons.mp above
    rw [step]
    split at mem
    next rises =>
      rw [if_pos rises] at best all ⊢
      refine ⟨mem_cons_of_mem _ mem, ?_⟩
      simp only [forall_mem_cons]
      exact ⟨rises.le.trans best, best, all⟩
    next falls =>
      rw [if_neg falls] at best all ⊢
      refine ⟨?_, ?_⟩
      · rcases mem_cons.mp mem with here | there
        · rw [here]
          exact mem_cons_self
        · exact mem_cons_of_mem _ (mem_cons_of_mem _ there)
      · simp only [forall_mem_cons]
        exact ⟨best, (not_lt.mp falls).trans best, all⟩

theorem largest_eq_of_perm {rest rest' : List α} (distinct : Distinct key (a :: rest))
    (permuted : (a :: rest).Perm (b :: rest')) : largest key a rest = largest key b rest' := by
  obtain ⟨mem, above⟩ := largest_spec key a rest
  obtain ⟨mem', above'⟩ := largest_spec key b rest'
  have inside := permuted.mem_iff.mpr mem'
  apply distinct.eq_of_key mem inside
  exact le_antisymm (above' _ (permuted.mem_iff.mp mem)) (above _ inside)

end Sorting
