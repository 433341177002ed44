import Mathlib.Data.List.Sort
import Slide.Library.Fallible

/-!
# Deliveries of a numbered log

A reader with a cursor takes the event after its cursor, passes over the events it has, and stops at a
gap.  It is fed batches, each sorted by number first.  What the reader does with an event is open: a
`Reader` only says how the cursor moves.

* `Reader.batch_ok_iff`: a batch goes through exactly when every event is acceptable and no number
  between the cursor and an event of the batch is missing.
* `Reader.deliver`: any way of delivering a log in batches without a gap ends where the log read at
  once ends.
-/

namespace Delivery

open List

variable {σ ε τ : Type}

/-- A reader of numbered events, with the states it may be in. -/
structure Reader (σ ε τ : Type) where
  cursor : σ → ℤ
  number : ε → ℤ
  accepts : ε → Prop
  sound : σ → Prop
  step : σ → ε → Except τ σ
  refuses : ∀ {s e}, sound s → ¬ accepts e → ∃ x, step s e = .error x
  skips : ∀ {s e}, sound s → accepts e → number e ≤ cursor s → step s e = .ok s
  stops : ∀ {s e}, sound s → accepts e → cursor s + 1 < number e → ∃ x, step s e = .error x
  takes : ∀ {s e}, sound s → accepts e → number e = cursor s + 1 →
    ∃ s', step s e = .ok s' ∧ cursor s' = number e ∧ sound s'

namespace Reader

variable (r : Reader σ ε τ)

/-- The events of a batch by rising number. -/
def sorted (b : List ε) : List ε := b.insertionSort fun d e => r.number d ≤ r.number e

/-- Read a batch. -/
def batch (s : σ) (b : List ε) : Except τ σ := (r.sorted b).foldlM r.step s

/-- No number between a cursor and an event is missing. -/
def Gapless (from_ : ℤ) (b : List ε) : Prop :=
  ∀ e ∈ b, ∀ q, from_ < q → q < r.number e → ∃ d ∈ b, r.number d = q

/-- Numbers do not fall along the list. -/
def Rising (b : List ε) : Prop := b.Pairwise fun d e => r.number d ≤ r.number e

/-- The highest number after a batch. -/
def reach (from_ : ℤ) (b : List ε) : ℤ := b.foldl (fun c e => max c (r.number e)) from_

/-- The events are numbered one after the other. -/
def Consecutive (from_ : ℤ) : List ε → Prop
  | [] => True
  | e :: rest => r.number e = from_ + 1 ∧ Consecutive (from_ + 1) rest

/-- Batches that deliver a log past a cursor: their new events are events of the log, none of them
skips a number, and the last one has been reached. -/
def Delivers (log : List ε) : ℤ → List (List ε) → Prop
  | c, [] => ∀ e ∈ log, r.number e ≤ c
  | c, b :: rest => (∀ e ∈ b, r.accepts e ∧ (c < r.number e → e ∈ log)) ∧ r.Gapless c b ∧
      Delivers log (r.reach c b) rest

variable {r} {s s' : σ} {b log done rest : List ε} {batches : List (List ε)} {e : ε} {c : ℤ}

instance : Std.Total fun d e : ε => r.number d ≤ r.number e where
  total d e := le_total (r.number d) (r.number e)

instance : IsTrans ε fun d e => r.number d ≤ r.number e where
  trans _ _ _ := le_trans

theorem perm_sorted : (r.sorted b).Perm b := perm_insertionSort _ b

theorem rising_sorted : r.Rising (r.sorted b) := pairwise_insertionSort _ b

theorem sorted_of_rising (rising : r.Rising b) : r.sorted b = b :=
  List.Pairwise.insertionSort_eq rising

theorem gapless_sorted : r.Gapless c (r.sorted b) ↔ r.Gapless c b := by
  unfold Gapless
  simp only [perm_sorted.mem_iff]

theorem reach_sorted : r.reach c (r.sorted b) = r.reach c b := by
  refine perm_sorted.foldl_eq' (fun d _ e _ c => ?_) c
  omega

theorem le_reach : c ≤ r.reach c b := by
  induction b generalizing c with
  | nil => exact le_rfl
  | cons e b ih => exact (le_max_left c _).trans ih

theorem Consecutive.of_prefix {before : List ε} (numbered : r.Consecutive c log)
    (within : before <+: log) : r.Consecutive c before := by
  induction log generalizing c before with
  | nil =>
    obtain rfl := prefix_nil.mp within
    trivial
  | cons d log ih =>
    rcases prefix_cons_iff.mp within with rfl | ⟨rest, rfl, inner⟩
    · trivial
    · exact ⟨numbered.1, ih numbered.2 inner⟩

theorem Consecutive.above (numbered : r.Consecutive c log) (mem : e ∈ log) : c < r.number e := by
  induction log generalizing c with
  | nil => cases mem
  | cons d log ih =>
    rcases mem_cons.mp mem with rfl | later
    · have first := numbered.1
      omega
    · have above := ih numbered.2 later
      omega

theorem Consecutive.rising (numbered : r.Consecutive c log) : r.Rising log := by
  induction log generalizing c with
  | nil => exact List.Pairwise.nil
  | cons d log ih =>
    refine pairwise_cons.mpr ⟨fun e mem => ?_, ih numbered.2⟩
    have above := numbered.2.above mem
    have first := numbered.1
    omega

/-- The lowest event of a gapless list is the next one or an old one. -/
theorem Gapless.first (gapless : r.Gapless c (e :: b)) (rising : r.Rising (e :: b)) :
    r.number e ≤ c + 1 := by
  by_contra far
  obtain ⟨d, mem, same⟩ := gapless e mem_cons_self (c + 1) (by omega) (by omega)
  rcases mem_cons.mp mem with rfl | later
  · omega
  · have above := (pairwise_cons.mp rising).1 d later
    omega

theorem Gapless.tail (gapless : r.Gapless c (e :: b)) :
    r.Gapless (max c (r.number e)) b := by
  intro d mem q past before
  obtain ⟨found, inside, same⟩ := gapless d (mem_cons_of_mem _ mem) q (by omega) before
  rcases mem_cons.mp inside with rfl | later
  · omega
  · exact ⟨found, later, same⟩

/-! ## One batch -/

theorem step_sound (sound : r.sound s) (ok : r.step s e = .ok s') : r.sound s' := by
  by_cases accepted : r.accepts e
  · rcases lt_trichotomy (r.number e) (r.cursor s + 1) with old | next | far
    · rw [r.skips sound accepted (by omega)] at ok
      cases ok
      exact sound
    · obtain ⟨s₁, taken, -, sound₁⟩ := r.takes sound accepted next
      rw [taken] at ok
      cases ok
      exact sound₁
    · obtain ⟨x, failed⟩ := r.stops sound accepted far
      rw [failed] at ok
      cases ok
  · obtain ⟨x, failed⟩ := r.refuses sound accepted
    rw [failed] at ok
    cases ok

theorem batch_sound (sound : r.sound s) (ok : r.batch s b = .ok s') : r.sound s' := by
  unfold batch at ok
  generalize r.sorted b = l at ok
  induction l generalizing s with
  | nil =>
    cases ok
    exact sound
  | cons e l ih =>
    rw [foldlM_cons] at ok
    obtain ⟨mid, first, rest⟩ := bind_eq_ok.mp ok
    exact ih (step_sound sound first) rest

/-- What goes through has no gap. -/
theorem gapless_of_ok (sound : r.sound s) (ok : b.foldlM r.step s = .ok s') :
    (∀ e ∈ b, r.accepts e) ∧ r.Gapless (r.cursor s) b := by
  induction b generalizing s with
  | nil => exact ⟨nofun, nofun⟩
  | cons e b ih =>
    rw [foldlM_cons] at ok
    obtain ⟨mid, taken, ok⟩ := bind_eq_ok.mp ok
    have accepted : r.accepts e := by
      by_contra refused
      obtain ⟨x, failed⟩ := r.refuses sound refused
      rw [failed] at taken
      cases taken
    rcases le_or_gt (r.number e) (r.cursor s) with old | new
    · rw [r.skips sound accepted old] at taken
      cases taken
      obtain ⟨accepts, gapless⟩ := ih sound ok
      refine ⟨forall_mem_cons.mpr ⟨accepted, accepts⟩, fun d mem q past before => ?_⟩
      rcases mem_cons.mp mem with rfl | later
      · omega
      · obtain ⟨found, inside, same⟩ := gapless d later q past before
        exact ⟨found, mem_cons_of_mem _ inside, same⟩
    · have next : r.number e = r.cursor s + 1 := by
        by_contra far
        obtain ⟨x, failed⟩ := r.stops sound accepted (by omega)
        rw [failed] at taken
        cases taken
      obtain ⟨s₁, taken', cursor, sound₁⟩ := r.takes sound accepted next
      rw [taken'] at taken
      cases taken
      obtain ⟨accepts, gapless⟩ := ih sound₁ ok
      refine ⟨forall_mem_cons.mpr ⟨accepted, accepts⟩, fun d mem q past before => ?_⟩
      rcases eq_or_ne q (r.number e) with rfl | differ
      · exact ⟨e, mem_cons_self, rfl⟩
      · rcases mem_cons.mp mem with rfl | later
        · omega
        · obtain ⟨found, inside, same⟩ := gapless d later q (by omega) before
          exact ⟨found, mem_cons_of_mem _ inside, same⟩

theorem ok_of_gapless (sound : r.sound s) (rising : r.Rising b) (gapless : r.Gapless (r.cursor s) b)
    (accepts : ∀ e ∈ b, r.accepts e) : ∃ s', b.foldlM r.step s = .ok s' := by
  induction b generalizing s with
  | nil => exact ⟨s, rfl⟩
  | cons e b ih =>
    obtain ⟨accepted, accepts⟩ := forall_mem_cons.mp accepts
    have rising' := (pairwise_cons.mp rising).2
    have first := gapless.first rising
    have tail := gapless.tail
    rw [foldlM_cons]
    rcases le_or_gt (r.number e) (r.cursor s) with old | past
    · rw [max_eq_left old] at tail
      rw [r.skips sound accepted old]
      exact ih sound rising' tail accepts
    · obtain ⟨mid, taken, cursor, sound'⟩ := r.takes sound accepted (by omega)
      rw [max_eq_right past.le, ← cursor] at tail
      rw [taken]
      exact ih sound' rising' tail accepts

/-- A gapless rising list whose new events are events of the log reads a part of the log. -/
theorem read_part (sound : r.sound s) (rising : r.Rising b) (gapless : r.Gapless (r.cursor s) b)
    (own : ∀ e ∈ b, r.accepts e ∧ (r.cursor s < r.number e → e ∈ rest))
    (numbered : r.Consecutive (r.cursor s) rest) :
    ∃ part left s', rest = part ++ left ∧ part.foldlM r.step s = .ok s' ∧
      b.foldlM r.step s = .ok s' ∧ r.sound s' ∧ r.cursor s' = r.reach (r.cursor s) b ∧
      r.Consecutive (r.cursor s') left ∧ ∀ e ∈ part, r.number e ≤ r.cursor s' := by
  induction b generalizing s rest with
  | nil => exact ⟨[], rest, s, rfl, rfl, rfl, sound, rfl, numbered, nofun⟩
  | cons e b ih =>
    have rising' := (pairwise_cons.mp rising).2
    obtain ⟨accepted, new⟩ := own e mem_cons_self
    have first := gapless.first rising
    have tail := gapless.tail
    rcases le_or_gt (r.number e) (r.cursor s) with old | past
    · have skipped := r.skips sound accepted old
      rw [max_eq_left old] at tail
      obtain ⟨part, left, s', split, read, read', facts⟩ := ih sound rising' tail
        (fun d mem => own d (mem_cons_of_mem _ mem)) numbered
      refine ⟨part, left, s', split, read, ?_, ?_⟩
      · rw [foldlM_cons, skipped]
        exact read'
      · rw [reach, foldl_cons, max_eq_left old]
        exact facts
    · have next : r.number e = r.cursor s + 1 := by omega
      obtain ⟨s₁, taken, cursor, sound₁⟩ := r.takes sound accepted next
      cases rest with
      | nil => cases new past
      | cons d rest =>
        obtain rfl : e = d := by
          rcases mem_cons.mp (new past) with same | later
          · exact same
          · have above := numbered.2.above later
            omega
        have numbered' : r.Consecutive (r.cursor s₁) rest := by
          rw [cursor, next]
          exact numbered.2
        rw [max_eq_right past.le, ← cursor] at tail
        obtain ⟨part, left, s', split, read, read', sound', reached, more, below⟩ :=
          ih sound₁ rising' tail (fun d mem => ⟨(own d (mem_cons_of_mem _ mem)).1, fun above =>
            (mem_cons.mp ((own d (mem_cons_of_mem _ mem)).2 (by omega))).resolve_left
              fun same => by rw [same, cursor] at above; omega⟩) numbered'
        refine ⟨e :: part, left, s', by rw [split, cons_append], ?_, ?_, sound', ?_, more, ?_⟩
        · rw [foldlM_cons, taken]
          exact read
        · rw [foldlM_cons, taken]
          exact read'
        · rw [reached, reach, reach, foldl_cons, max_eq_right past.le, cursor]
        · refine forall_mem_cons.mpr ⟨?_, below⟩
          rw [reached, next, ← cursor.trans next]
          exact le_reach

/-- A batch of acceptable events without a gap goes through, and no other. -/
theorem batch_ok_iff (sound : r.sound s) : (∃ s', r.batch s b = .ok s') ↔
    (∀ e ∈ b, r.accepts e) ∧ r.Gapless (r.cursor s) b := by
  constructor
  · rintro ⟨s', ok⟩
    obtain ⟨accepts, gapless⟩ := gapless_of_ok sound ok
    exact ⟨fun e mem => accepts e (perm_sorted.mem_iff.mpr mem), gapless_sorted.mp gapless⟩
  · rintro ⟨accepts, gapless⟩
    exact ok_of_gapless sound rising_sorted (gapless_sorted.mpr gapless)
      fun e mem => accepts e (perm_sorted.mem_iff.mp mem)

/-! ## All batches -/

theorem deliver_from (sound : r.sound s) (old : ∀ e ∈ done, r.number e ≤ r.cursor s)
    (numbered : r.Consecutive (r.cursor s) rest)
    (delivers : r.Delivers (done ++ rest) (r.cursor s) batches) :
    ∃ s', batches.foldlM r.batch s = .ok s' ∧ rest.foldlM r.step s = .ok s' := by
  induction batches generalizing s done rest with
  | nil =>
    cases rest with
    | nil => exact ⟨s, rfl, rfl⟩
    | cons e rest =>
      have reached := delivers e (mem_append_right _ mem_cons_self)
      have first := numbered.1
      omega
  | cons b batches ih =>
    obtain ⟨own, gapless, delivers⟩ := delivers
    have own' : ∀ e ∈ r.sorted b, r.accepts e ∧ (r.cursor s < r.number e → e ∈ rest) := by
      intro e mem
      obtain ⟨accepted, new⟩ := own e (perm_sorted.mem_iff.mp mem)
      refine ⟨accepted, fun past => (mem_append.mp (new past)).resolve_left fun seen => ?_⟩
      have below := old e seen
      omega
    obtain ⟨part, left, mid, rfl, read, read', sound', reached, numbered', below⟩ :=
      read_part sound rising_sorted (gapless_sorted.mpr gapless) own' numbered
    rw [reach_sorted] at reached
    rw [← reached, ← append_assoc] at delivers
    have old' : ∀ e ∈ done ++ part, r.number e ≤ r.cursor mid := by
      refine forall_mem_append.mpr ⟨fun e mem => ?_, below⟩
      rw [reached]
      exact (old e mem).trans le_reach
    obtain ⟨s', rest, whole⟩ := ih sound' old' numbered' delivers
    refine ⟨s', ?_, ?_⟩
    · rw [foldlM_cons, batch, read']
      exact rest
    · rw [foldlM_append, read]
      exact whole

/-- Any delivery of a log ends where the log read in one batch ends. -/
theorem deliver (sound : r.sound s) (numbered : r.Consecutive (r.cursor s) log)
    (delivers : r.Delivers log (r.cursor s) batches) :
    ∃ s', batches.foldlM r.batch s = .ok s' ∧ r.batch s log = .ok s' := by
  rw [batch, sorted_of_rising numbered.rising]
  exact deliver_from sound (forall_mem_nil _) numbered delivers

end Reader

end Delivery
