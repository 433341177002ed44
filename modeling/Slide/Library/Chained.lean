import Mathlib.Data.List.Pairwise

/-!
# Snapshots on their way to a store

A writer saves snapshots of its memory one after another.  `Chained R stored due memory` says that `R` relates
what is stored, the snapshots that are due, and the memory, in this order.

* `Chained.advance`: the memory moves on.
* `Chained.push`: a snapshot of the memory becomes due.
* `Chained.pop`: the first snapshot that is due is stored.
-/

variable {σ : Type*} {R : σ → σ → Prop} {stored memory memory' first : σ} {due : List σ}

def Chained (R : σ → σ → Prop) (stored : σ) (due : List σ) (memory : σ) : Prop :=
  (stored :: (due ++ [memory])).Pairwise R

theorem chained_iff : Chained R stored due memory ↔
    R stored memory ∧ due.Pairwise R ∧ ∀ s ∈ due, R stored s ∧ R s memory := by
  unfold Chained
  rw [List.pairwise_cons, List.pairwise_append]
  constructor
  · rintro ⟨after, ordered, -, before⟩
    refine ⟨after memory (List.mem_append_right _ (List.mem_singleton_self _)), ordered, fun s mem => ?_⟩
    exact ⟨after s (List.mem_append_left _ mem), before s mem memory (List.mem_singleton_self _)⟩
  · rintro ⟨ends, ordered, each⟩
    refine ⟨fun s mem => ?_, ordered, List.pairwise_singleton _ _, fun s mem t same => ?_⟩
    · rcases List.mem_append.mp mem with inside | last
      · exact (each s inside).1
      · exact List.mem_singleton.mp last ▸ ends
    · exact List.mem_singleton.mp same ▸ (each s mem).2

theorem Chained.ends (chained : Chained R stored due memory) : R stored memory := (chained_iff.mp chained).1

theorem Chained.before (chained : Chained R stored due memory) {s : σ} (mem : s ∈ due) : R s memory :=
  ((chained_iff.mp chained).2.2 s mem).2

theorem Chained.after (chained : Chained R stored due memory) {s : σ} (mem : s ∈ due) : R stored s :=
  ((chained_iff.mp chained).2.2 s mem).1

/-- Nothing is due of what has just been read. -/
theorem chained_refl [Std.Refl R] : Chained R stored [] stored :=
  chained_iff.mpr ⟨refl_of R stored, List.Pairwise.nil, fun _ none => nomatch none⟩

theorem Chained.advance [IsTrans σ R] (chained : Chained R stored due memory) (moves : R memory memory') :
    Chained R stored due memory' := by
  obtain ⟨ends, ordered, each⟩ := chained_iff.mp chained
  exact chained_iff.mpr ⟨trans_of R ends moves, ordered,
    fun s mem => ⟨(each s mem).1, trans_of R (each s mem).2 moves⟩⟩

theorem Chained.push [Std.Refl R] (chained : Chained R stored due memory) :
    Chained R stored (due ++ [memory]) memory := by
  obtain ⟨ends, ordered, each⟩ := chained_iff.mp chained
  refine chained_iff.mpr ⟨ends, List.pairwise_append.mpr ⟨ordered, List.pairwise_singleton _ _, ?_⟩, fun s mem => ?_⟩
  · intro s mem t same
    exact List.mem_singleton.mp same ▸ (each s mem).2
  · rcases List.mem_append.mp mem with inside | last
    · exact each s inside
    · rw [List.mem_singleton.mp last]
      exact ⟨ends, refl_of R memory⟩

theorem Chained.pop (chained : Chained R stored (first :: due) memory) : Chained R first due memory :=
  (List.pairwise_cons.mp chained).2

/-- When nothing is saved any more, what is due does not matter. -/
theorem Chained.drop (chained : Chained R stored due memory) : Chained R stored [] memory :=
  chained_iff.mpr ⟨chained.ends, List.Pairwise.nil, fun _ none => nomatch none⟩
