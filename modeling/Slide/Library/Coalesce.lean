import Mathlib.Data.List.Forall2

/-!
# Lists whose neighbours may have been merged

`Coalesces merge groups values`: each value is the merge, from left to right, of one group of
neighbours, in order.  The concatenation of the groups is the list before any merge.
-/

namespace Coalesce

variable {α : Type*} {merge : α → α → Option α}

/-- The value is the merge of the group from left to right. -/
inductive Merged (merge : α → α → Option α) : List α → α → Prop
  | single (a : α) : Merged merge [a] a
  | snoc {group : List α} {a b m : α} :
    Merged merge group a → merge a b = some m → Merged merge (group ++ [b]) m

/-- The values, in order, are the merges of the groups. -/
def Coalesces (merge : α → α → Option α) (groups : List (List α)) (values : List α) : Prop :=
  List.Forall₂ (Merged merge) groups values

/-- Put an element into the last group. -/
def absorb (b : α) : List (List α) → List (List α)
  | [] => [[b]]
  | [group] => [group ++ [b]]
  | group :: next :: rest => group :: absorb b (next :: rest)

variable {groups : List (List α)} {values : List α} {a b m : α}

theorem absorb_flatten : (absorb b groups).flatten = groups.flatten ++ [b] := by
  induction groups with
  | nil => rfl
  | cons group rest ih =>
    cases rest with
    | nil => simp [absorb]
    | cons next rest => simp [absorb, ih]

theorem Coalesces.length (merged : Coalesces merge groups values) :
    groups.length = values.length :=
  List.Forall₂.length_eq merged

theorem Coalesces.push (merged : Coalesces merge groups values) (b : α) :
    Coalesces merge (groups ++ [[b]]) (values ++ [b]) :=
  List.rel_append merged (.cons (.single b) .nil)

theorem Coalesces.absorb (merged : Coalesces merge groups (values ++ [a]))
    (joined : merge a b = some m) : Coalesces merge (absorb b groups) (values ++ [m]) := by
  induction values generalizing groups with
  | nil =>
    cases merged with
    | cons last rest =>
      cases rest
      exact .cons (last.snoc joined) .nil
  | cons v values ih =>
    cases merged with
    | @cons group _ later _ first rest =>
      have tail := ih rest
      cases later with
      | nil =>
        have same := List.Forall₂.length_eq rest
        simp at same
      | cons next later => exact .cons first tail

end Coalesce
