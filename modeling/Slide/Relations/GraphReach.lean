import Slide.Relations.GraphWalk

/-!
# What hangs together with the root

`spread` retains the edges at the resources within fewer than `hops` steps of the root, so that the
response holds together by its own edges.
-/

namespace Slide.Relations

open Slide.Resources List

/-- The edge joins two resources, in either direction. -/
def RelationProjection.Joins (edge : RelationProjection) (x y : ResourceRef) : Prop :=
  edge.source = x ∧ edge.target = y ∨ edge.source = y ∧ edge.target = x

/-- A resource is so many steps over the edges from the root. -/
inductive Within (edges : List RelationProjection) (root : ResourceRef) : Nat → ResourceRef → Prop
  | root : Within edges root 0 root
  | step {k : Nat} {x y : ResourceRef} {edge : RelationProjection} (within : Within edges root k x)
    (mem : edge ∈ edges) (joins : edge.Joins x y) : Within edges root (k + 1) y

variable {edges : List RelationProjection} {edge : RelationProjection} {root ref x y : ResourceRef}
  {s s' s'' : Spread} {k hops : Nat}

theorem RelationProjection.Joins.touches (joins : edge.Joins x y) : edge.touches x = true := by
  unfold RelationProjection.touches
  rw [Bool.or_eq_true, decide_eq_true_eq, decide_eq_true_eq]
  exact joins.imp And.left And.right

theorem RelationProjection.joins_iff : edge.Joins x y ↔
    edge.touches x = true ∧ (if edge.source = x then edge.target else edge.source) = y := by
  unfold RelationProjection.Joins RelationProjection.touches
  rw [Bool.or_eq_true, decide_eq_true_eq, decide_eq_true_eq]
  split <;> grind

/-! ## One level -/

/-- What has been tried since a state: the resources come to, and the ids of the edges passed. -/
structure Tried (ends : ResourceRef → Prop) (ids : Nat → Prop) (s s' : Spread) : Prop where
  reachable : ∀ y, y ∈ s'.reachable ↔ y ∈ s.reachable ∨ ends y
  retained : ∀ id, id ∈ s'.retained ↔ id ∈ s.retained ∨ ids id
  next : ∀ y, y ∈ s'.next ↔ y ∈ s.next ∨ y ∈ s'.reachable ∧ y ∉ s.reachable
  nodup : s.retained.Nodup → s'.retained.Nodup

theorem Tried.refl (s : Spread) : Tried (fun _ => False) (fun _ => False) s s where
  reachable y := by rw [or_false]
  retained id := by rw [or_false]
  next y := by simp
  nodup := id

theorem Tried.trans {ends more : ResourceRef → Prop} {ids others : Nat → Prop}
    (first : Tried ends ids s s') (second : Tried more others s' s'') :
    Tried (fun y => ends y ∨ more y) (fun id => ids id ∨ others id) s s'' where
  reachable y := by rw [second.reachable, first.reachable, or_assoc]
  retained id := by rw [second.retained, first.retained, or_assoc]
  next y := by
    rw [second.next, first.next, second.reachable, first.reachable]
    tauto
  nodup nodup := second.nodup (first.nodup nodup)

theorem Tried.congr {ends more : ResourceRef → Prop} {ids others : Nat → Prop}
    (tried : Tried ends ids s s') (sameEnds : ∀ y, ends y ↔ more y)
    (sameIds : ∀ id, ids id ↔ others id) : Tried more others s s' := by
  obtain rfl : ends = more := funext fun y => propext (sameEnds y)
  obtain rfl : ids = others := funext fun id => propext (sameIds id)
  exact tried

theorem try_tried (ref : ResourceRef) (edge : RelationProjection) (s : Spread) :
    Tried (edge.Joins ref) (fun id => edge.touches ref = true ∧ edge.relationId = id) s
      (s.try_ ref edge) := by
  unfold Spread.try_
  by_cases away : edge.touches ref = false
  · rw [if_pos away]
    refine (Tried.refl s).congr (fun y => ?_) fun id => ?_
    · simp [RelationProjection.joins_iff, away]
    · simp [away]
  · have here := Bool.eq_true_of_not_eq_false away
    have joins (y : ResourceRef) : edge.Joins ref y ↔
        y = if edge.source = ref then edge.target else edge.source := by
      rw [RelationProjection.joins_iff, and_iff_right here, eq_comm]
    have inserted (id : Nat) : id ∈ s.retained.insert edge.relationId ↔
        id ∈ s.retained ∨ edge.touches ref = true ∧ edge.relationId = id := by
      rw [mem_insert_iff, or_comm, and_iff_right here, eq_comm]
    rw [if_neg away]
    dsimp only
    generalize (if edge.source = ref then edge.target else edge.source) = other at joins ⊢
    split
    next old =>
      refine ⟨fun y => ?_, inserted, fun y => ?_, List.Nodup.insert⟩
      · rw [joins]
        exact ⟨.inl, fun new => new.elim id fun same => same ▸ old⟩
      · simp
    next new =>
      refine ⟨fun y => ?_, inserted, fun y => ?_, List.Nodup.insert⟩
      · rw [joins, mem_append, mem_singleton]
      · dsimp only
        rw [mem_append, mem_append, mem_singleton]
        grind

theorem foldl_tried {ι : Type} {items : List ι} {round : Spread → ι → Spread}
    {ends : ι → ResourceRef → Prop} {ids : ι → Nat → Prop}
    (each : ∀ item s, Tried (ends item) (ids item) s (round s item)) (s : Spread) :
    Tried (fun y => ∃ item ∈ items, ends item y) (fun id => ∃ item ∈ items, ids item id) s
      (items.foldl round s) := by
  induction items generalizing s with
  | nil => exact (Tried.refl s).congr (fun y => by simp) fun id => by simp
  | cons item rest ih =>
    exact ((each item s).trans (ih (round s item))).congr (fun y => by simp) fun id => by simp

theorem level_tried (edges : List RelationProjection) (s : Spread) :
    Tried (fun y => ∃ x ∈ s.next, ∃ edge ∈ edges, edge.Joins x y)
      (fun id => ∃ x ∈ s.next, ∃ edge ∈ edges, edge.touches x = true ∧ edge.relationId = id)
      { s with next := [] } (s.level edges) :=
  foldl_tried (fun ref s => foldl_tried (try_tried ref) s) _

/-! ## All levels -/

/-- The state after so many levels. -/
structure Levels (edges : List RelationProjection) (root : ResourceRef) (depth : Nat) (s : Spread) :
    Prop where
  reachable : ∀ x, x ∈ s.reachable ↔ ∃ k ≤ depth, Within edges root k x
  next : ∀ x, x ∈ s.next ↔ x ∈ s.reachable ∧ ¬ ∃ k < depth, Within edges root k x
  retained : ∀ id, id ∈ s.retained ↔ ∃ k < depth, ∃ x, Within edges root k x ∧
    ∃ edge ∈ edges, edge.touches x = true ∧ edge.relationId = id
  nodup : s.retained.Nodup

theorem within_zero : Within edges root 0 x ↔ x = root := by
  constructor
  · intro within
    cases within
    rfl
  · rintro rfl
    exact .root

theorem within_succ : Within edges root (k + 1) y ↔
    ∃ x, Within edges root k x ∧ ∃ edge ∈ edges, edge.Joins x y := by
  constructor
  · rintro (_ | ⟨within, mem, joins⟩)
    exact ⟨_, within, _, mem, joins⟩
  · rintro ⟨x, within, edge, mem, joins⟩
    exact .step within mem joins

theorem Levels.start (edges : List RelationProjection) (root : ResourceRef) :
    Levels edges root 0 ⟨[root], [], [root]⟩ where
  reachable x := by
    rw [mem_singleton]
    constructor
    · rintro rfl
      exact ⟨0, le_rfl, .root⟩
    · rintro ⟨k, low, within⟩
      obtain rfl := Nat.le_zero.mp low
      exact within_zero.mp within
  next x := by simp
  retained id := by simp
  nodup := .nil

theorem Levels.level {depth : Nat} (levels : Levels edges root depth s) :
    Levels edges root (depth + 1) (s.level edges) := by
  have tried := level_tried edges s
  -- a resource at the depth is in the frontier, or was come to before
  have frontier (x : ResourceRef) (within : Within edges root depth x) :
      x ∈ s.next ∨ ∃ k < depth, Within edges root k x := by
    rw [levels.next, levels.reachable]
    by_cases before : ∃ k < depth, Within edges root k x
    · exact .inr before
    · exact .inl ⟨⟨depth, le_rfl, within⟩, before⟩
  have at_depth (x : ResourceRef) (mem : x ∈ s.next) : Within edges root depth x := by
    obtain ⟨inside, late⟩ := (levels.next x).mp mem
    obtain ⟨k, low, within⟩ := (levels.reachable x).mp inside
    obtain rfl | less := low.eq_or_lt
    · exact within
    · exact (late ⟨k, less, within⟩).elim
  have reachable (y : ResourceRef) :
      y ∈ (s.level edges).reachable ↔ ∃ k ≤ depth + 1, Within edges root k y := by
    rw [tried.reachable]
    constructor
    · rintro (old | ⟨x, mem, edge, inside, joins⟩)
      · obtain ⟨k, low, within⟩ := (levels.reachable y).mp old
        exact ⟨k, by omega, within⟩
      · exact ⟨depth + 1, le_rfl, .step (at_depth x mem) inside joins⟩
    · rintro ⟨k, low, within⟩
      obtain rfl | less := low.eq_or_lt
      · obtain ⟨x, before, edge, inside, joins⟩ := within_succ.mp within
        rcases frontier x before with here | ⟨k, less, earlier⟩
        · exact .inr ⟨x, here, edge, inside, joins⟩
        · exact .inl ((levels.reachable y).mpr ⟨k + 1, by omega, .step earlier inside joins⟩)
      · exact .inl ((levels.reachable y).mpr ⟨k, by omega, within⟩)
  refine ⟨reachable, fun y => ?_, fun id => ?_, tried.nodup levels.nodup⟩
  · rw [tried.next]
    have old : y ∈ s.reachable ↔ ∃ k < depth + 1, Within edges root k y := by
      rw [levels.reachable]
      simp only [Nat.lt_succ_iff]
    simp only [not_mem_nil, false_or, old]
  · rw [tried.retained, levels.retained]
    constructor
    · rintro (⟨k, less, old⟩ | ⟨x, mem, edge, passed⟩)
      · exact ⟨k, by omega, old⟩
      · exact ⟨depth, by omega, x, at_depth x mem, edge, passed⟩
    · rintro ⟨k, less, x, within, passed⟩
      obtain rfl | earlier := (Nat.lt_succ_iff.mp less).eq_or_lt
      · rcases frontier x within with here | ⟨k, less, before⟩
        · exact .inr ⟨x, here, passed⟩
        · exact .inl ⟨k, less, x, before, passed⟩
      · exact .inl ⟨k, earlier, x, within, passed⟩

theorem Levels.spread {depth : Nat} (levels : Levels edges root depth s) (hops : Nat) :
    Levels edges root (depth + hops) (spread edges hops s) := by
  induction hops generalizing depth s with
  | zero => exact levels
  | succ hops ih =>
    have more := ih levels.level
    rwa [Nat.add_assoc, Nat.add_comm 1] at more

theorem spread_levels (edges : List RelationProjection) (root : ResourceRef) (hops : Nat) :
    Levels edges root hops (spread edges hops ⟨[root], [], [root]⟩) := by
  have levels := (Levels.start edges root).spread hops
  rwa [Nat.zero_add] at levels

theorem Within.retained {ids : List Nat} (levels : Levels edges root hops s) (ids_ : s.retained = ids)
    (within : Within edges root k x) (low : k ≤ hops) :
    Within (edges.filter (·.relationId ∈ ids)) root k x := by
  subst ids_
  induction within with
  | root => exact .root
  | @step k x y edge within mem joins ih =>
    refine .step (ih (by omega)) (mem_filter.mpr ⟨mem, decide_eq_true ?_⟩) joins
    exact (levels.retained _).mpr ⟨k, low, x, within, edge, mem, joins.touches, rfl⟩

end Slide.Relations
