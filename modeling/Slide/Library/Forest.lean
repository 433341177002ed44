import Mathlib.Data.List.Count
import Mathlib.Data.List.Nodup
import Mathlib.Logic.Relation

/-!
# Classes joined by a forest

Vertices carry labels, and the vertices of one label are a class.  `merge` gives one class the label of
another.  `Spans` is what a search keeps that joins two classes by one edge at a time: the edges connect
the vertices of a class, and there is one edge less than the class has vertices.
-/

namespace Forest

open List

variable {α κ : Type*} [DecidableEq κ]

/-- The labels after the class of `j` has joined the class of `i`. -/
def merge (label : α → κ) (i j : κ) (x : α) : κ := if label x = j then i else label x

/-- An edge of `edges`, in either direction. -/
def Adjacent (edges : List (α × α)) (x y : α) : Prop := (x, y) ∈ edges ∨ (y, x) ∈ edges

/-- The edges are a spanning tree of every class. -/
structure Spans (vertices : List α) (label : α → κ) (edges : List (α × α)) : Prop where
  inside : ∀ e ∈ edges, e.1 ∈ vertices ∧ e.2 ∈ vertices ∧ label e.1 = label e.2
  chained : ∀ x ∈ vertices, ∀ y ∈ vertices, label x = label y →
    Relation.ReflTransGen (Adjacent edges) x y
  count : ∀ x ∈ vertices, edges.countP (fun e => label e.1 = label x) + 1 =
    vertices.countP fun y => label y = label x

variable {vertices : List α} {label label' : α → κ} {edges : List (α × α)} {a b x y : α} {i j : κ}

theorem merge_congr (same : label x = label y) : merge label i j x = merge label i j y := by
  unfold merge
  rw [same]

theorem merge_of_eq (same : label x = j) : merge label i j x = i := if_pos same

theorem merge_of_ne (other : label x ≠ j) : merge label i j x = label x := if_neg other

/-- Two vertices share a class after the merge if they did before, or the merge is of their classes. -/
theorem merge_eq_iff : merge label (label a) (label b) x = merge label (label a) (label b) y ↔
    label x = label y ∨ label x = label a ∧ label y = label b ∨
      label x = label b ∧ label y = label a := by
  by_cases left : label x = label b
  · rw [merge_of_eq left]
    by_cases right : label y = label b
    · rw [merge_of_eq right]
      simp [left, right]
    · rw [merge_of_ne right]
      constructor
      · exact fun same => .inr (.inr ⟨left, same.symm⟩)
      · rintro (same | ⟨-, same⟩ | ⟨-, same⟩)
        · exact (right (same.symm.trans left)).elim
        · exact (right same).elim
        · exact same.symm
  · rw [merge_of_ne left]
    by_cases right : label y = label b
    · rw [merge_of_eq right]
      constructor
      · exact fun same => .inr (.inl ⟨same, right⟩)
      · rintro (same | ⟨same, -⟩ | ⟨same, -⟩)
        · exact (left (same.trans right)).elim
        · exact same
        · exact (left same).elim
    · rw [merge_of_ne right]
      simp [left, right]

theorem Adjacent.mono {more : List (α × α)} (sub : ∀ e ∈ edges, e ∈ more) (step : Adjacent edges x y) :
    Adjacent more x y :=
  step.imp (sub _) (sub _)

theorem Adjacent.symm (step : Adjacent edges x y) : Adjacent edges y x := Or.symm step

/-- A class on its own has no edge. -/
theorem Spans.of_nodup (nodup : (vertices.map label).Nodup) : Spans vertices label [] where
  inside := by
    intro e mem
    cases mem
  chained := by
    intro x memX y memY same
    rw [inj_on_of_nodup_map nodup memX memY same]
  count := by
    intro x mem
    have once := count_eq_one_of_mem nodup (mem_map_of_mem mem)
    rw [count_eq_countP, countP_map] at once
    rw [countP_nil, Nat.zero_add, ← once]
    refine countP_congr fun y _ => ?_
    simp

/-- Only the labels of the vertices count. -/
theorem Spans.congr (spans : Spans vertices label edges)
    (agree : ∀ x ∈ vertices, label x = label' x) : Spans vertices label' edges where
  inside e mem := by
    obtain ⟨first, second, same⟩ := spans.inside e mem
    exact ⟨first, second, by rw [← agree _ first, ← agree _ second, same]⟩
  chained x memX y memY same := by
    rw [← agree x memX, ← agree y memY] at same
    exact spans.chained x memX y memY same
  count x mem := by
    have counted := spans.count x mem
    rw [agree x mem] at counted
    rw [← countP_congr (p := fun y => label y = label' x)
      (fun y inside => by rw [agree y inside]), ← counted]
    refine congrArg (· + 1) (countP_congr fun e inside => ?_)
    rw [agree _ (spans.inside e inside).1]

theorem countP_or {β : Type*} {p q : β → Prop} [DecidablePred p] [DecidablePred q] (l : List β)
    (disjoint : ∀ x, p x → ¬ q x) :
    l.countP (fun x => p x ∨ q x) = l.countP (fun x => p x) + l.countP fun x => q x := by
  induction l with
  | nil => rfl
  | cons x rest ih =>
    have apart := disjoint x
    by_cases first : p x <;> by_cases second : q x <;> simp_all <;> omega

theorem Spans.merge (spans : Spans vertices label edges) (first : a ∈ vertices)
    (second : b ∈ vertices) (apart : label a ≠ label b) :
    Spans vertices (merge label (label a) (label b)) (edges ++ [(a, b)]) where
  inside e mem := by
    rcases mem_append.mp mem with old | new
    · obtain ⟨left, right, same⟩ := spans.inside e old
      exact ⟨left, right, merge_congr same⟩
    · obtain rfl := mem_singleton.mp new
      exact ⟨first, second, by rw [merge_of_ne apart, merge_of_eq rfl]⟩
  chained x memX y memY same := by
    have old {u v : α} (memU : u ∈ vertices) (memV : v ∈ vertices) (same : label u = label v) :
        Relation.ReflTransGen (Adjacent (edges ++ [(a, b)])) u v := by
      have wider : ∀ u v, Adjacent edges u v → Adjacent (edges ++ [(a, b)]) u v :=
        fun _ _ step => step.mono fun _ mem => mem_append_left _ mem
      exact Relation.ReflTransGen.mono wider u v (spans.chained u memU v memV same)
    have new : Adjacent (edges ++ [(a, b)]) a b :=
      .inl (mem_append_right _ (mem_singleton.mpr rfl))
    rcases merge_eq_iff.mp same with same | ⟨left, right⟩ | ⟨left, right⟩
    · exact old memX memY same
    · exact ((old memX first left).tail new).trans (old second memY right.symm)
    · exact ((old memX second left).tail new.symm).trans (old first memY right.symm)
  count x mem := by
    have both (z : α) : label z = label a → ¬ label z = label b :=
      fun same other => apart (same.symm.trans other)
    have added : [(a, b)].countP (fun e => Forest.merge label (label a) (label b) e.1 =
        Forest.merge label (label a) (label b) x) =
          if label x = label a ∨ label x = label b then 1 else 0 := by
      rw [countP_singleton]
      simp only [merge_eq_iff, decide_eq_true_eq]
      refine if_congr ?_ rfl rfl
      have := apart
      grind
    rw [countP_append, added]
    by_cases touched : label x = label a ∨ label x = label b
    · -- the class of `x` is that of `a` and that of `b` together
      have whole (z : α) : Forest.merge label (label a) (label b) z =
          Forest.merge label (label a) (label b) x ↔ label z = label a ∨ label z = label b := by
        rw [merge_eq_iff]
        grind
      have countEdges := countP_or edges fun e => both e.1
      have countVertices := countP_or vertices both
      have countA := spans.count a first
      have countB := spans.count b second
      simp only [whole, if_pos touched]
      omega
    · have whole (z : α) : Forest.merge label (label a) (label b) z =
          Forest.merge label (label a) (label b) x ↔ label z = label x := by
        rw [merge_eq_iff]
        grind
      simp only [whole, if_neg touched]
      exact spans.count x mem

end Forest
