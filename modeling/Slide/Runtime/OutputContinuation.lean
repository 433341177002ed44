import Mathlib.Data.List.GetD
import Mathlib.Data.List.Infix
import Slide.Library.Fallible

/-!
# Continued output

`OutputContinuation.append` over UTF-16 code units of any type.  The loops read the fragment through
`fetch`, so that they can be run with JavaScript's reads (`charAt`) and with reads that fail outside the
fragment (`charInside`); a `while` has one turn more than the fragment has characters.

* `fallBack_spec`: the `while` ends at the longest match that the next character extends, or at 0.
* `advance_spec`, `failureTable_spec`: both loops keep the longest match, over the fragment's own tail and
  over the content.
-/

namespace Slide.Runtime.OutputContinuation

open List

inductive Fault
  | outside | turns
deriving DecidableEq

variable {α : Type}

/-- The longest start of `f` that `s` ends with has `k` characters. -/
structure Longest (f s : List α) (k : Nat) : Prop where
  fits : k ≤ f.length
  meets : f.take k <:+ s
  most : ∀ j ≤ f.length, f.take j <:+ s → j ≤ k

variable {f s : List α} {x : α} {k o : Nat} {table : List Nat}

theorem take_succ_suffix {i : Nat} (inside : i < f.length) :
    f.take (i + 1) <:+ s ++ [x] ↔ f.take i <:+ s ∧ f[i]? = some x := by
  rw [take_succ_eq_append_getElem inside, List.getElem?_eq_getElem inside, Option.some.injEq]
  constructor
  · rintro ⟨rest, same⟩
    rw [← append_assoc] at same
    obtain ⟨left, right⟩ := append_inj' same rfl
    exact ⟨⟨rest, left⟩, singleton_inj.mp right⟩
  · rintro ⟨⟨rest, rfl⟩, rfl⟩
    exact ⟨rest, (append_assoc ..).symm⟩

theorem suffix_tail {l : List α} (ends : l <:+ s) (shorter : l.length < s.length) : l <:+ s.tail := by
  cases s with
  | nil => cases shorter
  | cons a s =>
    rcases suffix_cons_iff.mp ends with same | inner
    · rw [same] at shorter
      exact absurd shorter (lt_irrefl _)
    · exact inner

theorem Longest.le_length (longest : Longest f s k) : k ≤ s.length := by
  have le := longest.meets.length_le
  rw [length_take, min_eq_left longest.fits] at le
  exact le

theorem Longest.nil : Longest f [] 0 := by
  refine ⟨Nat.zero_le _, nil_suffix, fun j fits ends => ?_⟩
  have short := ends.length_le
  rw [length_take, min_eq_left fits] at short
  exact short

/-- The entries of the failure table: the longest start that ends each start, but for itself. -/
def Bordered (f : List α) (table : List Nat) : Prop :=
  ∀ n < table.length, Longest f (f.take (n + 1)).tail (table.getD n 0)

/-- The overlap with the end of the content is the one with the content. -/
theorem Longest.of_last {c : List α} (longest : Longest f
    (if f.length = 0 then c else c.drop (c.length - f.length)) k) : Longest f c k := by
  split at longest
  next => exact longest
  next =>
    refine ⟨longest.fits, longest.meets.trans (drop_suffix _ _), fun j fits meets => ?_⟩
    apply longest.most j fits
    apply suffix_of_suffix_length_le meets (drop_suffix _ _)
    have short := meets.length_le
    rw [length_take_of_le fits] at short ⊢
    rw [length_drop]
    omega

/-- What the `while` keeps: a match that no longer match with the next character passes over. -/
structure Kept (f s : List α) (x : α) (n : Nat) : Prop where
  fits : n ≤ f.length
  meets : f.take n <:+ s
  most : ∀ j ≤ f.length, f.take j <:+ s → f[j]? = some x → j ≤ n

theorem Kept.fallBack {m : Nat} (kept : Kept f s x (m + 1)) (bordered : Bordered f table)
    (known : m < table.length) (differs : f[m + 1]? ≠ some x) :
    table.getD m 0 ≤ m ∧ Kept f s x (table.getD m 0) := by
  have border := bordered m known
  have length : (f.take (m + 1)).length = m + 1 := length_take_of_le kept.fits
  have le : table.getD m 0 ≤ m := by
    have le := border.le_length
    rw [length_tail, length] at le
    exact le
  refine ⟨le, border.fits, (border.meets.trans (tail_suffix _)).trans kept.meets, ?_⟩
  intro j fits ends extends_
  have shorter : j < m + 1 := by
    apply (kept.most j fits ends extends_).lt_of_ne
    rintro rfl
    exact differs extends_
  have short : (f.take j).length < (f.take (m + 1)).length := by
    rw [length, length_take_of_le fits]
    exact shorter
  have inner := suffix_of_suffix_length_le ends kept.meets short.le
  exact border.most j fits (suffix_tail inner short)

/-- `fragment[i]`. -/
def charAt (fragment : List α) (i : Nat) : Except Fault (Option α) := .ok fragment[i]?

def charInside (fragment : List α) (i : Nat) : Except Fault (Option α) :=
  fragment[i]?.elim (.error .outside) (.ok ∘ some)

/-- `fetch` reads the fragment; at 0 also an empty one. -/
def Reads (fetch : Nat → Except Fault (Option α)) (f : List α) : Prop :=
  ∀ i, i = 0 ∨ i < f.length → fetch i = .ok f[i]?

theorem reads_inside (some_ : f ≠ []) : Reads (charInside f) f := by
  intro i bound
  have inside : i < f.length := by
    rcases bound with rfl | inside
    · exact length_pos_iff.mpr some_
    · exact inside
  unfold charInside
  rw [List.getElem?_eq_getElem inside]
  rfl

variable [DecidableEq α]

section Loops

variable (fetch : Nat → Except Fault (Option α))

/-- `while (n && …) n = prefix[n - 1]`. -/
def fallBack (table : List Nat) (differs : Nat → Except Fault Bool) : Nat → Nat → Except Fault Nat
  | 0, _ => .error .turns
  | turns + 1, n =>
    if n = 0 then pure 0 else do
      if ← differs n then fallBack table differs turns (table.getD (n - 1) 0) else pure n

/-- One turn of either loop; only the second asks whether the whole fragment is matched. -/
def advance (turns : Nat) (atEnd : Nat → Bool) (table : List Nat) (matched : Nat) (char : Option α) :
    Except Fault Nat := do
  let matched ← fallBack table
    (fun n => if atEnd n then pure true else return decide (char ≠ (← fetch n))) turns matched
  return if char = (← fetch matched) then matched + 1 else matched

/-- The first loop, up to the index `i`. -/
def failureTable (turns : Nat) : (i : Nat) → Except Fault (List Nat × Nat)
  | 0 => pure ([0], 0)
  | i + 1 => do
    let (table, matched) ← failureTable turns i
    let matched ← advance fetch turns (fun _ => false) table matched (← fetch (i + 1))
    pure (table ++ [matched], matched)

def append (content fragment : List α) : Except Fault (List α) := do
  let turns := fragment.length + 1
  let (table, _) ← failureTable fetch turns (fragment.length - 1)
  let last := if fragment.length = 0 then content else content.drop (content.length - fragment.length)
  let overlap ← last.foldlM (fun overlap char =>
    advance fetch turns (fun n => n = fragment.length) table overlap (some char)) 0
  pure (content ++ fragment.drop overlap)

end Loops

variable {fetch : Nat → Except Fault (Option α)}

theorem fallBack_spec (bordered : Bordered f table) (differs : Nat → Except Fault Bool) (turns : Nat) :
    ∀ n < turns, n ≤ table.length → Kept f s x n →
      (∀ m ≤ n, differs m = .ok (decide (some x ≠ f[m]?))) →
        ∃ k, fallBack table differs turns n = .ok k ∧ Kept f s x k ∧
          (k = 0 ∨ f[k]? = some x) := by
  induction turns with
  | zero => exact fun n few => absurd few (Nat.not_lt_zero n)
  | succ turns ih =>
    intro n few known kept reads
    cases n with
    | zero => exact ⟨0, rfl, kept, .inl rfl⟩
    | succ m =>
      unfold fallBack
      rw [if_neg (Nat.succ_ne_zero m), reads _ le_rfl]
      by_cases same : some x = f[m + 1]?
      · exact ⟨m + 1, by simp [same, bind, Except.bind, pure, Except.pure], kept, .inr same.symm⟩
      · obtain ⟨le, next⟩ := kept.fallBack bordered known fun equal => same equal.symm
        obtain ⟨k, ran, rest⟩ := ih _ (by omega) (by omega) next
          fun i early => reads i (by omega)
        refine ⟨k, ?_, rest⟩
        simpa [same, bind, Except.bind] using ran

theorem advance_spec (reads : Reads fetch f) (bordered : Bordered f table) (turns : Nat)
    (atEnd : Nat → Bool) (longest : Longest f s o) (few : o < turns) (known : o ≤ table.length)
    (ends : ∀ n ≤ o, if atEnd n then f.length ≤ n else n < f.length) :
    ∃ k, advance fetch turns atEnd table o (some x) = .ok k ∧ Longest f (s ++ [x]) k := by
  have kept : Kept f s x o := ⟨longest.fits, longest.meets, fun j fits meets _ => longest.most j fits meets⟩
  obtain ⟨k, ran, kept, stopped⟩ := fallBack_spec bordered
    (fun n => if atEnd n then pure true else return decide (some x ≠ (← fetch n)))
    turns o few known kept <| by
      intro m early
      have ends := ends m early
      split at ends
      next whole =>
        rw [if_pos whole, List.getElem?_eq_none ends]
        rfl
      next inner =>
        rw [if_neg inner, reads m (.inr ends)]
        rfl
  have here : fetch k = .ok f[k]? := by
    apply reads
    rcases stopped with zero | same
    · exact .inl zero
    · exact .inr (List.getElem?_eq_some_iff.mp same).1
  unfold advance
  rw [ran]
  simp only [bind, Except.bind, here]
  by_cases same : some x = f[k]?
  · have inside : k < f.length := (List.getElem?_eq_some_iff.mp same.symm).1
    refine ⟨k + 1, by simp [same, pure, Except.pure], inside, ?_, fun j fits meets => ?_⟩
    · exact (take_succ_suffix inside).mpr ⟨kept.meets, same.symm⟩
    · cases j with
      | zero => exact Nat.zero_le _
      | succ i =>
        obtain ⟨shorter, next⟩ := (take_succ_suffix fits).mp meets
        exact Nat.succ_le_succ (kept.most i (Nat.le_of_succ_le fits) shorter next)
  · refine ⟨k, by simp [same, pure, Except.pure], ?_⟩
    obtain rfl := stopped.resolve_right fun equal => same equal.symm
    refine ⟨Nat.zero_le _, nil_suffix, fun j fits meets => ?_⟩
    cases j with
    | zero => exact le_rfl
    | succ i =>
      obtain ⟨shorter, next⟩ := (take_succ_suffix fits).mp meets
      obtain rfl := Nat.le_zero.mp (kept.most i (Nat.le_of_succ_le fits) shorter next)
      exact absurd next.symm same

theorem failureTable_spec (reads : Reads fetch f) (i : Nat) (inside : i < f.length ∨ i = 0) :
    ∃ table matched, failureTable fetch (f.length + 1) i = .ok (table, matched) ∧
      table.length = i + 1 ∧ Bordered f table ∧ Longest f (f.take (i + 1)).tail matched := by
  induction i with
  | zero =>
    have first : (f.take 1).tail = [] := by cases f <;> rfl
    refine ⟨[0], 0, rfl, rfl, fun n one => ?_, first ▸ .nil⟩
    obtain rfl := Nat.lt_one_iff.mp one
    exact first ▸ .nil
  | succ i ih =>
    have inside : i + 1 < f.length := inside.resolve_right (Nat.succ_ne_zero i)
    obtain ⟨table, matched, built, length, bordered, longest⟩ := ih (.inl (Nat.lt_of_succ_lt inside))
    have short := longest.le_length
    rw [length_tail, length_take_of_le inside.le] at short
    obtain ⟨k, ran, next⟩ := advance_spec (x := f[i + 1]) reads bordered (f.length + 1)
      (fun _ => false) longest (by omega) (by omega) fun n early => by
        rw [if_neg Bool.false_ne_true]
        omega
    have grown : (f.take (i + 1)).tail ++ [f[i + 1]] = (f.take (i + 2)).tail := by
      rw [take_succ_eq_append_getElem inside, tail_append_of_ne_nil]
      exact ne_nil_of_length_pos (by rw [length_take_of_le inside.le]; omega)
    rw [grown] at next
    refine ⟨table ++ [k], k, ?_, by simp [length], fun n few => ?_, next⟩
    · rw [failureTable, built]
      simp only [bind, Except.bind, reads (i + 1) (.inr inside), List.getElem?_eq_getElem inside, ran]
      rfl
    · rcases Nat.lt_or_ge n table.length with old | new
      · rw [getD_append _ _ _ _ old]
        exact bordered n old
      · obtain rfl : n = i + 1 := by
          rw [length_append, length_singleton] at few
          omega
        rw [getD_append_right _ _ _ _ new, length, Nat.sub_self]
        exact next

theorem scan_spec (reads : Reads fetch f) (bordered : Bordered f table) (known : f.length ≤ table.length)
    (rest : List α) : ∀ {s : List α} {o : Nat}, Longest f s o → ∃ k,
      rest.foldlM (fun overlap char => advance fetch (f.length + 1) (fun n => n = f.length) table overlap
        (some char)) o = .ok k ∧ Longest f (s ++ rest) k := by
  induction rest with
  | nil => exact fun {s o} longest => ⟨o, rfl, (append_nil s).symm ▸ longest⟩
  | cons x rest ih =>
    intro s o longest
    have fits := longest.fits
    obtain ⟨k, ran, next⟩ := advance_spec (x := x) reads bordered (f.length + 1)
      (fun n => n = f.length) longest (by omega) (by omega) fun n early => by
        split
        next whole => exact (of_decide_eq_true whole).ge
        next inner => exact (early.trans fits).lt_of_ne fun same => inner (decide_eq_true same)
    obtain ⟨k', ran', last⟩ := ih next
    rw [append_assoc] at last
    refine ⟨k', ?_, last⟩
    rw [foldlM_cons, ran]
    exact ran'

theorem append_reads (reads : Reads fetch f) (c : List α) :
    ∃ k, Longest f c k ∧ append fetch c f = .ok (c ++ f.drop k) := by
  obtain ⟨table, matched, built, length, bordered, -⟩ := failureTable_spec reads (f.length - 1) (by omega)
  obtain ⟨k, ran, longest⟩ := scan_spec reads bordered (by omega)
    (if f.length = 0 then c else c.drop (c.length - f.length)) .nil
  rw [nil_append] at longest
  refine ⟨k, longest.of_last, ?_⟩
  unfold append
  simp only [built, bind, Except.bind, ran]
  rfl

/-- `append` removes the longest overlap, and reads inside a fragment that is not empty. -/
theorem append_exact (c f : List α) : ∃ k, Longest f c k ∧ append (charAt f) c f = .ok (c ++ f.drop k) ∧
    (f ≠ [] → append (charInside f) c f = .ok (c ++ f.drop k)) := by
  obtain ⟨k, longest, ran⟩ := append_reads (fun i _ => rfl : Reads (charAt f) f) c
  refine ⟨k, longest, ran, fun some_ => ?_⟩
  obtain ⟨k', longest', ran'⟩ := append_reads (reads_inside some_) c
  obtain rfl : k' = k := (longest.most k' longest'.fits longest'.meets).antisymm
    (longest'.most k longest.fits longest.meets)
  exact ran'

/-- With an empty fragment, the second loop reads `fragment[0]`. -/
theorem reads_empty_fragment : append (charInside []) [(97 : UInt16)] [] = .error .outside := rfl

end Slide.Runtime.OutputContinuation
