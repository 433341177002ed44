import Mathlib.Data.List.Nodup

/-!
# Pages behind a key

A cursor names the last item of the page before.  `page_at` says what a page holds once the position
of its cursor is known, and `follow_all` that among distinct keys the cursors lead through all items,
each of them once, and end.
-/

namespace Paging

open List

variable {α κ γ : Type*} [DecidableEq κ]

/-- Where the page behind a cursor starts. -/
def start (key : α → κ) (items : List α) : Option κ → Option Nat
  | none => some 0
  | some after =>
    let index := items.findIdx fun a => decide (key a = after)
    if index < items.length then some (index + 1) else none

/-- A page from a position on, and the cursor of the next one. -/
def slice (key : α → κ) (items : List α) (limit first : Nat) : List α × Option κ :=
  let selected := (items.drop first).take limit
  (selected, if first + selected.length < items.length then selected.getLast?.map key else none)

/-- The page behind a cursor. -/
def page (key : α → κ) (items : List α) (limit : Nat) (cursor : Option κ) :
    Option (List α × Option κ) :=
  (start key items cursor).map (slice key items limit)

/-- The pages from a cursor on, up to the first without a next one. -/
def follow (page : Option γ → Option (List α × Option γ)) : (fuel : Nat) → Option γ →
    Option (List (List α))
  | 0, _ => none
  | fuel + 1, cursor => (page cursor).bind fun answer =>
    match answer.2 with
    | none => some [answer.1]
    | some next => (follow page fuel (some next)).map (answer.1 :: ·)

variable {key : α → κ} {items : List α} {limit first fuel : Nat}

theorem start_key (nodup : (items.map key).Nodup) {a : α} (at_first : items[first]? = some a) :
    start key items (some (key a)) = some (first + 1) := by
  obtain ⟨inside, rfl⟩ := List.getElem?_eq_some_iff.mp at_first
  have found : (items.findIdx fun b => decide (key b = key items[first])) = first := by
    refine (findIdx_eq inside).mpr ⟨decide_eq_true rfl, fun j before => ?_⟩
    refine decide_eq_false fun same => ?_
    have equal : items[j] = items[first] :=
      inj_on_of_nodup_map nodup (getElem_mem _) (getElem_mem _) same
    have index : j = first := (List.Nodup.of_map key nodup).getElem_inj_iff.mp equal
    omega
  unfold start
  simp only [found]
  rw [if_pos inside]

/-- A page that starts at a position ends the walk or leads to the position behind it. -/
theorem slice_next (nodup : (items.map key).Nodup) (positive : 0 < limit)
    (inside : first ≤ items.length) :
    ((slice key items limit first).2 = none ∧ (slice key items limit first).1 = items.drop first) ∨
      ∃ after, (slice key items limit first).2 = some after ∧
        start key items (some after) = some (first + limit) ∧ first + limit < items.length ∧
        (slice key items limit first).1 = (items.drop first).take limit := by
  have length : ((items.drop first).take limit).length = min limit (items.length - first) := by
    rw [length_take, length_drop]
  unfold slice
  dsimp only
  rw [length]
  by_cases more : first + limit < items.length
  · have full : min limit (items.length - first) = limit := by omega
    have last : ((items.drop first).take limit).getLast? = some items[first + limit - 1] := by
      rw [getLast?_eq_getElem?, length, full, getElem?_take, if_pos (by omega),
        getElem?_drop, ← getElem?_eq_getElem]
      congr 1
      omega
    rw [full, if_pos more, last]
    refine .inr ⟨_, rfl, ?_, more, rfl⟩
    rw [start_key nodup (getElem?_eq_getElem _)]
    congr 1
    omega
  · rw [if_neg (by omega)]
    refine .inl ⟨rfl, take_of_length_le ?_⟩
    rw [length_drop]
    omega

omit [DecidableEq κ] in
/-- A page knows from its limit alone whether another one follows. -/
theorem slice_eq : slice key items limit first = ((items.drop first).take limit,
    if first + limit < items.length then ((items.drop first).take limit).getLast?.map key
    else none) := by
  have length : ((items.drop first).take limit).length = min limit (items.length - first) := by
    rw [length_take, length_drop]
  unfold slice
  dsimp only
  rw [length]
  by_cases more : first + limit < items.length
  · rw [if_pos more, if_pos (by omega)]
  · rw [if_neg more]
    by_cases inside : first < items.length
    · rw [if_neg (by omega)]
    · rw [if_neg (by omega)]

theorem start_le {cursor : Option κ} (at_first : start key items cursor = some first) :
    first ≤ items.length := by
  cases cursor with
  | none =>
    cases at_first
    exact Nat.zero_le _
  | some after =>
    unfold start at at_first
    dsimp only at at_first
    split at at_first
    next found =>
      cases at_first
      exact found
    next => cases at_first

/-- A cursor keeps its position where items are added behind the others. -/
theorem start_append {cursor : Option κ} (at_first : start key items cursor = some first)
    (more : List α) : start key (items ++ more) cursor = some first := by
  cases cursor with
  | none => exact at_first
  | some after =>
    unfold start at at_first ⊢
    dsimp only at at_first ⊢
    split at at_first
    next found =>
      rw [findIdx_append, if_pos found, if_pos (by rw [length_append]; omega)]
      exact at_first
    next => cases at_first

/-- A cursor has the same position in a list with the same keys. -/
theorem start_map {f : α → α} (same : ∀ a, key (f a) = key a) (cursor : Option κ) :
    start key (items.map f) cursor = start key items cursor := by
  cases cursor with
  | none => rfl
  | some after =>
    unfold start
    dsimp only
    rw [findIdx_map, length_map]
    have tests : (fun a => decide (key a = after)) ∘ f = fun a => decide (key a = after) :=
      funext fun a => by rw [Function.comp_apply, same]
    rw [tests]

section Follow

variable {serve : Option γ → Option (List α × Option γ)} {name : κ → γ}

/-- The pages from a position on hold the rest of the items. -/
theorem follow_from (nodup : (items.map key).Nodup) (positive : 0 < limit)
    (serves : ∀ cursor, serve (cursor.map name) =
      (page key items limit cursor).map fun answer => (answer.1, answer.2.map name))
    (inside : first ≤ items.length) (enough : items.length < first + fuel) {cursor : Option κ}
    (at_first : start key items cursor = some first) :
    ∃ pages, follow serve fuel (cursor.map name) = some pages ∧ pages.flatten = items.drop first := by
  induction fuel generalizing first cursor with
  | zero => omega
  | succ fuel ih =>
    have answer : serve (cursor.map name) = some ((slice key items limit first).1,
        (slice key items limit first).2.map name) := by
      rw [serves, page, at_first]
      rfl
    unfold follow
    rw [answer, Option.bind_some]
    rcases slice_next nodup positive inside with ⟨last, rest⟩ | ⟨after, next, position, more, part⟩
    · rw [last, rest]
      exact ⟨_, rfl, by simp⟩
    · obtain ⟨pages, followed, rest⟩ := ih (by omega) (by omega) position
      rw [next, part]
      refine ⟨((items.drop first).take limit) :: pages, ?_, ?_⟩
      · change (follow serve fuel ((some after).map name)).map _ = _
        rw [followed]
        rfl
      · rw [flatten_cons, rest, ← drop_drop, take_append_drop]

/-- The pages from the first one on hold every item once, in their order. -/
theorem follow_all (nodup : (items.map key).Nodup) (positive : 0 < limit)
    (serves : ∀ cursor, serve (cursor.map name) =
      (page key items limit cursor).map fun answer => (answer.1, answer.2.map name)) :
    ∃ pages, follow serve (items.length + 1) none = some pages ∧ pages.flatten = items := by
  have first : start key items none = some 0 := rfl
  exact follow_from nodup positive serves (Nat.zero_le _) (by omega) first

end Follow

end Paging
