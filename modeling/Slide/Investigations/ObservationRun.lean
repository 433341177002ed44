import Slide.Investigations.Observations
import Slide.Library.Fallible
import Slide.Library.Run

/-!
# Runs of the observation log

The calls of one investigation in any order, with a journal beside the log: every event that was ever
written, and every capture that went through with the event it wrote or found.  The journal says what
"the newest event of a source" is when its row may be pruned.

* `Journal.Sound`: what holds in every state: the sequences have no gap, the log is what retention
  left of the journal, and a checkpoint holds the hash of the last capture.
* `observation_log_converges`: after the last capture of a source the newest event carries its
  payload, as long as no capture returns to an event that a newer one has replaced.
* `returned_payload_lost`: such a return changes the checkpoint and leaves the log as it is.
-/

namespace Slide.Investigations

open Transition List

/-- What a transaction does to the log of an investigation. -/
inductive LogCall
  | capture (source : String) (input : EventInput)
  | append (source : String) (input : EventInput)
  | prune (now : Int) (before : Option Int)

/-- A capture that went through, with the event it wrote or found; an unchanged payload looks for
none. -/
structure Captured where
  source : String
  input : EventInput
  sequence : Option Nat

/-- The log, all events ever written, and all captures, oldest first. -/
structure Journal where
  log : ObservationLog
  recorded : List StreamRow
  captures : List Captured

def Journal.start : Journal := ⟨.empty, [], []⟩

/-- The payload a source was captured with last. -/
def Journal.lastInput (j : Journal) (source : String) : Option EventInput :=
  (j.captures.filter fun c => c.source = source).getLast?.map Captured.input

/-- A capture of the source wrote or found the event. -/
def Journal.observed (j : Journal) (source : String) (row : StreamRow) : Prop :=
  ∃ c ∈ j.captures, c.source = source ∧ c.sequence = some row.sequence

instance (j : Journal) (source : String) : DecidablePred (j.observed source) := fun _ =>
  inferInstanceAs (Decidable (∃ c ∈ _, _))

/-- The event is recorded for the source, pruned or not. -/
def Journal.seen (j : Journal) (source : String) (row : StreamRow) : Prop :=
  row ∈ j.recorded ∧ j.observed source row

/-- The newest event recorded for a source, pruned or not. -/
def Journal.newest (j : Journal) (source : String) : Option StreamRow :=
  (j.recorded.filter fun row => j.observed source row).getLast?

section Calls

variable (digest : Digest) (id : String)

def ObservationLog.perform (log : ObservationLog) :
    LogCall → Except ObservationError ObservationLog
  | .capture source input => captureObservation digest id source input log
  | .append source input => (appendObservation digest id source input log).map Prod.snd
  | .prune now before => prune now before log

/-- What the journal notes of a call that goes through. -/
def LogCall.noted (log : ObservationLog) : LogCall → List Captured
  | .capture source input =>
    [⟨source, input,
      if log.sources.get source = some (digest.evidenceHash (.input input)) then none
      else (appendObservation digest id (captureKey digest source input) input log).toOption.map
        Prod.fst⟩]
  | .append _ _ | .prune _ _ => []

/-- A transaction: a call that throws leaves everything as it was. -/
def Journal.next (j : Journal) (call : LogCall) : Journal :=
  match j.log.perform digest id call with
  | .error _ => j
  | .ok log =>
    ⟨log, j.recorded ++ log.events.filter fun row => j.log.watermark < row.sequence,
      j.captures ++ call.noted digest id j.log⟩

/-- The text whose hash identifies the content of an event. -/
def Digest.content (event : InvestigationStreamEvent) : String :=
  digest.canonical (.identity (observationIdentity event))

/-- The event has the content of an input that is the same JSON value. -/
def Digest.Carries (row : StreamRow) (input : EventInput) : Prop :=
  ∃ same : EventInput, digest.canonical (.input same) = digest.canonical (.input input) ∧
    digest.content row.event = digest.content (same.envelope id 0)

/-- The texts a call hashes for its own input. -/
def LogCall.texts : LogCall → List String
  | .capture _ input | .append _ input =>
    [digest.canonical (.input input), digest.content (input.envelope id 0)]
  | .prune _ _ => []

/-- No two different texts that the calls hash have one hash. -/
def Digest.Distinguishes (calls : List LogCall) : Prop :=
  ∀ text ∈ calls.flatMap (LogCall.texts digest id), ∀ other ∈ calls.flatMap (LogCall.texts digest id),
    digest.sha256 text = digest.sha256 other → text = other

/-- A stored event that a capture would find in place of a new one. -/
def ObservationLog.finds (log : ObservationLog) (source : String) (input : EventInput)
    (row : StreamRow) : Prop :=
  row ∈ log.events ∧ row.sourceKey = captureKey digest source input ∧
    digest.sha256 (digest.content row.event) = digest.sha256 (digest.content (input.envelope id 0))

/-- A capture of a changed payload does not find an event that a newer one of the source, with
another content, has replaced. -/
def Journal.KeepsUp (j : Journal) : LogCall → Prop
  | .capture source input =>
    j.log.sources.get source ≠ some (digest.evidenceHash (.input input)) →
    ∀ row, j.log.finds digest id source input row → ∀ newer ∈ j.newest source,
      row.sequence < newer.sequence →
      digest.sha256 (digest.content newer.event) =
        digest.sha256 (digest.content (input.envelope id 0))
  | .append _ _ | .prune _ _ => True

/-- A transaction that keeps up. -/
def Journal.Step (j : Journal) (call : LogCall) (j' : Journal) : Prop :=
  j.KeepsUp digest id call ∧ j' = j.next digest id call

end Calls

variable {digest : Digest} {id source : String} {input : EventInput} {log log' : ObservationLog}
  {n : ℕ} {j : Journal} {call : LogCall} {calls : List LogCall}

/-! ## What a call does to the log -/

/-- The row an append writes. -/
def EventInput.row (input : EventInput) (id source : String) (n : ℕ) : StreamRow :=
  ⟨n, source, input.numbered id n, input.occurredAt.instant.getD 0⟩

/-- The log with its head row. -/
def ObservationLog.withHead (log : ObservationLog) : ObservationLog :=
  { log with head := some (log.head.getD {}) }

/-- The log after an append has written a row. -/
def ObservationLog.write (log : ObservationLog) (row : StreamRow) : ObservationLog :=
  { log with
    head := some { log.head.getD {} with sequence := row.sequence }
    events := log.events.orderedInsert (·.sequence ≤ ·.sequence) row }

/-- The log after retention up to a sequence. -/
def ObservationLog.cut (log : ObservationLog) (floor : ℕ) : ObservationLog :=
  { log with
    events := log.events.filter fun row => floor < row.sequence
    head := log.head.map fun head => { head with retainedAfter := max head.retainedAfter floor } }

/-- A key that a new event may have. -/
def ObservationLog.fits (log : ObservationLog) (source : String) : Prop :=
  source.utf8ByteSize ≤ 255 ∧ ∀ row ∈ log.events, row.sourceKey ≠ source

/-- An append that goes through finds an event of the same content or writes the next one. -/
inductive Appended (digest : Digest) (id source : String) (input : EventInput)
    (log : ObservationLog) : ℕ → ObservationLog → Prop
  | found {row : StreamRow} : row ∈ log.events → row.sourceKey = source →
    digest.sha256 (digest.content row.event) = digest.sha256 (digest.content (input.envelope id 0)) →
    Appended digest id source input log row.sequence log.withHead
  | written : log.fits source →
    Appended digest id source input log (log.watermark + 1)
      (log.write (input.row id source (log.watermark + 1)))

theorem appended_of_ok (ok : appendObservation digest id source input log = .ok (n, log')) :
    Appended digest id source input log n log' := by
  unfold appendObservation at ok
  obtain ⟨short, ok⟩ := guard_eq_ok.mp ok
  dsimp only at ok
  split at ok
  next row found =>
    obtain ⟨same, ok⟩ := guard_eq_ok.mp ok
    cases ok
    have mem := mem_of_find?_eq_some found
    have named := find?_some found
    exact .found mem (by simpa using named) (not_not.mp same)
  next none =>
    obtain ⟨-, ok⟩ := guard_eq_ok.mp ok
    obtain ⟨mid, inserted, ok⟩ := bind_eq_ok.mp ok
    cases ok
    unfold ObservationLog.insertEvent at inserted
    split at inserted
    next => cases inserted
    next =>
      cases inserted
      exact .written ⟨not_lt.mp short, fun row mem => by simpa using find?_eq_none.mp none row mem⟩

theorem captured_of_ok (ok : captureObservation digest id source input log = .ok log') :
    (log.sources.get source = some (digest.evidenceHash (.input input)) ∧ log' = log) ∨
    (log.sources.get source ≠ some (digest.evidenceHash (.input input)) ∧
      ∃ n mid, appendObservation digest id (captureKey digest source input) input log = .ok (n, mid) ∧
        log' = { mid with
          sources := mid.sources.put source (digest.evidenceHash (.input input)) }) := by
  unfold captureObservation at ok
  dsimp only at ok
  split at ok
  next unchanged =>
    cases ok
    exact .inl ⟨unchanged, rfl⟩
  next changed =>
    obtain ⟨⟨n, mid⟩, appended, ok⟩ := bind_eq_ok.mp ok
    cases ok
    exact .inr ⟨changed, n, mid, appended, rfl⟩

theorem expiredPrefix_mem {before : ℤ} {floor : ℕ} {rows : List StreamRow} :
    expiredPrefix before floor rows = floor ∨
      ∃ row ∈ rows, row.sequence = expiredPrefix before floor rows := by
  induction rows generalizing floor with
  | nil => exact .inl rfl
  | cons row rest ih =>
    unfold expiredPrefix
    split
    next => exact .inl rfl
    next =>
      rcases @ih row.sequence with same | ⟨later, mem, named⟩
      · exact .inr ⟨row, mem_cons_self, same.symm⟩
      · exact .inr ⟨later, mem_cons_of_mem _ mem, named⟩

theorem pruned_of_ok {now : ℤ} {before : Option ℤ} (ok : prune now before log = .ok log') :
    log' = log ∨ ∃ row ∈ log.events, log' = log.cut row.sequence := by
  unfold prune at ok
  split at ok
  next => cases ok
  next before =>
    split at ok
    next => cases ok
    next =>
      dsimp only at ok
      split at ok
      next =>
        cases ok
        exact .inl rfl
      next some =>
        cases ok
        obtain none | ⟨row, mem, named⟩ := @expiredPrefix_mem before 0 log.events
        · exact absurd none some
        · exact .inr ⟨row, mem, named ▸ rfl⟩

/-! ## Every state -/

/-- What holds of the journal after any calls. -/
structure Journal.Sound (digest : Digest) (id : String) (calls : List LogCall) (j : Journal) :
    Prop where
  numbered : j.recorded.map StreamRow.sequence = range' 1 j.log.watermark
  kept : j.log.events = j.recorded.drop j.log.retainedAfter
  within : j.log.retainedAfter ≤ j.log.watermark
  stamped : ∀ row ∈ j.recorded, row.event.sequence = row.sequence
  short : ∀ row ∈ j.recorded, row.sourceKey.utf8ByteSize ≤ 255
  keys : (j.log.events.map StreamRow.sourceKey).Nodup
  hashed : ∀ row ∈ j.recorded,
    digest.content row.event ∈ calls.flatMap (LogCall.texts digest id)
  named : ∀ c ∈ j.captures,
    digest.canonical (.input c.input) ∈ calls.flatMap (LogCall.texts digest id)
  noted : ∀ c ∈ j.captures, ∀ n ∈ c.sequence, n ≤ j.log.watermark
  checkpoint : ∀ source, j.log.sources.get source =
    (j.lastInput source).map fun input => digest.evidenceHash (.input input)

/-- The stored sequences are exactly those after the retention bound, up to the head. -/
def ObservationLog.Complete (log : ObservationLog) : Prop :=
  log.retainedAfter ≤ log.watermark ∧
    log.events.map StreamRow.sequence =
      range' (log.retainedAfter + 1) (log.watermark - log.retainedAfter)

section Sound

variable (sound : j.Sound digest id calls)

include sound

theorem Journal.Sound.complete : j.log.Complete := by
  refine ⟨sound.within, ?_⟩
  rw [sound.kept, map_drop, sound.numbered, drop_range', Nat.mul_one, Nat.add_comm]

theorem Journal.Sound.recorded_le {row : StreamRow} (mem : row ∈ j.recorded) :
    1 ≤ row.sequence ∧ row.sequence ≤ j.log.watermark := by
  have inside : row.sequence ∈ range' 1 j.log.watermark := by
    rw [← sound.numbered]
    exact mem_map_of_mem mem
  obtain ⟨low, high⟩ := mem_range'_1.mp inside
  exact ⟨low, by omega⟩

theorem Journal.Sound.rising : j.recorded.Pairwise fun a b => a.sequence < b.sequence := by
  have ordered : (j.recorded.map StreamRow.sequence).Pairwise (· < ·) := by
    rw [sound.numbered]
    exact pairwise_lt_range'
  exact pairwise_map.mp ordered

theorem Journal.Sound.recorded_of_stored {row : StreamRow} (mem : row ∈ j.log.events) :
    row ∈ j.recorded := mem_of_mem_drop (sound.kept ▸ mem)

theorem Journal.Sound.events_after (after : j.log.retainedAfter ≤ n) :
    j.log.events.filter (fun row => n < row.sequence) = j.recorded.drop n := by
  rw [sound.kept, ← Keyed.filter_eq_drop (n := 0) (k := n) sound.numbered,
    ← Keyed.filter_eq_drop (n := 0) (k := j.log.retainedAfter) sound.numbered, filter_filter]
  refine filter_congr fun other _ => ?_
  rw [← Bool.decide_and]
  exact decide_eq_decide.mpr (by omega)

theorem Journal.Sound.newest_iff {row : StreamRow} : j.newest source = some row ↔
    j.seen source row ∧ ∀ other, j.seen source other → other.sequence ≤ row.sequence := by
  unfold Journal.newest
  rw [Keyed.getLast?_filter_eq_some_iff sound.rising]
  simp only [decide_eq_true_eq]
  exact ⟨fun ⟨mem, own, last⟩ => ⟨⟨mem, own⟩, fun other seen => last other seen.1 seen.2⟩,
    fun ⟨seen, last⟩ => ⟨seen.1, seen.2, fun other mem own => last other ⟨mem, own⟩⟩⟩

theorem Journal.Sound.eq_of_sequence {row other : StreamRow} (mem : row ∈ j.recorded)
    (mem' : other ∈ j.recorded) (same : row.sequence = other.sequence) : row = other := by
  have nodup : (j.recorded.map StreamRow.sequence).Nodup := by
    rw [sound.numbered]
    exact nodup_range'
  exact inj_on_of_nodup_map nodup mem mem' same

theorem Journal.Sound.lastInput_mem (last : j.lastInput source = some input) :
    digest.canonical (.input input) ∈ calls.flatMap (LogCall.texts digest id) := by
  obtain ⟨c, found, rfl⟩ := Option.map_eq_some_iff.mp last
  exact sound.named c (mem_of_mem_filter (mem_of_getLast? found))

omit sound in
theorem Journal.not_seen (none : j.newest source = none) {row : StreamRow} :
    ¬ j.seen source row := by
  intro seen
  have empty := getLast?_eq_none_iff.mp none
  have mem : row ∈ j.recorded.filter fun row => j.observed source row :=
    mem_filter.mpr ⟨seen.1, decide_eq_true seen.2⟩
  rw [empty] at mem
  cases mem

theorem Journal.Sound.fresh_nil :
    j.log.events.filter (fun row => j.log.watermark < row.sequence) = [] := by
  refine filter_eq_nil_iff.mpr fun row mem => ?_
  have reached := (sound.recorded_le (sound.recorded_of_stored mem)).2
  simpa using reached

theorem Journal.Sound.withHead {row : StreamRow} (mem : row ∈ j.log.events) :
    j.log.withHead = j.log := by
  cases headed : j.log.head with
  | none =>
    have reached := sound.recorded_le (sound.recorded_of_stored mem)
    rw [ObservationLog.watermark, headed] at reached
    have absurd : 1 ≤ 0 := reached.1.trans reached.2
    cases absurd
  | some head =>
    rw [ObservationLog.withHead, headed]
    exact congrArg (ObservationLog.mk · j.log.events j.log.sources) headed.symm

theorem Journal.Sound.write_events {row : StreamRow} (next : row.sequence = j.log.watermark + 1) :
    (j.log.write row).events = j.log.events ++ [row] := by
  have below : ∀ other ∈ j.log.events, ¬ row.sequence ≤ other.sequence := by
    intro other mem
    have reached := (sound.recorded_le (sound.recorded_of_stored mem)).2
    omega
  change j.log.events.orderedInsert (fun a b => a.sequence ≤ b.sequence) row = _
  generalize j.log.events = rows at below ⊢
  induction rows with
  | nil => rfl
  | cons first rest ih =>
    obtain ⟨head, tail⟩ := forall_mem_cons.mp below
    rw [orderedInsert_cons, if_neg head, ih tail, cons_append]

end Sound

/-! ## One call -/

/-- A new event. -/
def Journal.record (j : Journal) (row : StreamRow) : Journal :=
  { j with
    log := { j.log with
      head := some { j.log.head.getD {} with sequence := row.sequence }
      events := j.log.events ++ [row] }
    recorded := j.recorded ++ [row] }

/-- A new checkpoint. -/
def Journal.mark (j : Journal) (source hash : String) : Journal :=
  { j with log := { j.log with sources := j.log.sources.put source hash } }

/-- A new capture. -/
def Journal.note (j : Journal) (c : Captured) : Journal := { j with captures := j.captures ++ [c] }

/-- Retention up to a sequence. -/
def Journal.cut (j : Journal) (floor : ℕ) : Journal := { j with log := j.log.cut floor }

/-- What a call can do. -/
inductive Journal.Effect (digest : Digest) (id : String) (j : Journal) : LogCall → Journal → Prop
  | idle {call : LogCall} : j.Effect digest id call j
  | appended {source : String} {input : EventInput} : j.log.fits source → j.Effect digest id (.append source input)
      (j.record (input.row id source (j.log.watermark + 1)))
  | unchanged {source : String} {input : EventInput} :
    j.log.sources.get source = some (digest.evidenceHash (.input input)) →
    j.Effect digest id (.capture source input) (j.note ⟨source, input, none⟩)
  | found {source : String} {input : EventInput} {row : StreamRow} :
    j.log.sources.get source ≠ some (digest.evidenceHash (.input input)) →
    j.log.finds digest id source input row →
    j.Effect digest id (.capture source input)
      ((j.mark source (digest.evidenceHash (.input input))).note ⟨source, input, row.sequence⟩)
  | captured {source : String} {input : EventInput} :
    j.log.sources.get source ≠ some (digest.evidenceHash (.input input)) →
    j.log.fits (captureKey digest source input) →
    j.Effect digest id (.capture source input)
      (((j.record (input.row id (captureKey digest source input) (j.log.watermark + 1))).mark source
        (digest.evidenceHash (.input input))).note ⟨source, input, some (j.log.watermark + 1)⟩)
  | pruned {now : ℤ} {before : Option ℤ} {row : StreamRow} : row ∈ j.log.events →
    j.Effect digest id (.prune now before) (j.cut row.sequence)

theorem Journal.lastInput_note {c : Captured} :
    (j.note c).lastInput source =
      if c.source = source then some c.input else j.lastInput source := by
  unfold Journal.lastInput Journal.note
  rw [filter_append]
  split
  next same => simp [same]
  next differ => simp [differ]

theorem EventInput.content_numbered :
    digest.content (input.numbered id n) = digest.content (input.envelope id 0) := by
  obtain ⟨occurredAt, content⟩ := input
  cases content <;> rfl

theorem content_mem (own : call = .append source input ∨ call = .capture source input) :
    digest.content (input.numbered id n) ∈ (calls ++ [call]).flatMap (LogCall.texts digest id) := by
  rw [EventInput.content_numbered]
  refine mem_flatMap.mpr ⟨call, mem_append_right _ mem_cons_self, ?_⟩
  rcases own with rfl | rfl <;> exact mem_cons_of_mem _ mem_cons_self

theorem input_mem (own : call = .append source input ∨ call = .capture source input) :
    digest.canonical (.input input) ∈ (calls ++ [call]).flatMap (LogCall.texts digest id) := by
  refine mem_flatMap.mpr ⟨call, mem_append_right _ mem_cons_self, ?_⟩
  rcases own with rfl | rfl <;> exact mem_cons_self

section Step

variable (sound : j.Sound digest id calls)

include sound

theorem Journal.Sound.appended (ok : Appended digest id source input j.log n log') :
    (∃ row ∈ j.log.events, row.sourceKey = source ∧ row.sequence = n ∧
        digest.sha256 (digest.content row.event) = digest.sha256 (digest.content (input.envelope id 0)) ∧
        log' = j.log) ∨
      n = j.log.watermark + 1 ∧ j.log.fits source ∧
        log' = (j.record (input.row id source n)).log := by
  cases ok with
  | found mem named same => exact .inl ⟨_, mem, named, rfl, same, sound.withHead mem⟩
  | written fits => exact .inr ⟨rfl, fits, congrArg (ObservationLog.mk _ · j.log.sources)
      (sound.write_events rfl)⟩

theorem Journal.Sound.record_fresh {row : StreamRow} (next : row.sequence = j.log.watermark + 1) :
    (j.record row).log.events.filter (fun row => j.log.watermark < row.sequence) = [row] := by
  change (j.log.events ++ [row]).filter _ = _
  rw [filter_append, sound.fresh_nil, nil_append]
  exact filter_eq_self.mpr (by simp [next])

theorem Journal.Sound.effect (call : LogCall) :
    j.Effect digest id call (j.next digest id call) := by
  unfold Journal.next
  cases performed : j.log.perform digest id call with
  | error e => exact .idle
  | ok log' =>
    dsimp only
    cases call with
    | append source input =>
      obtain ⟨⟨n, mid⟩, appended, rfl⟩ := Except.map_eq_ok.mp performed
      rw [LogCall.noted, append_nil]
      rcases sound.appended (appended_of_ok appended) with ⟨_, _, _, _, _, rfl⟩ | ⟨rfl, fits, rfl⟩
      · rw [sound.fresh_nil, append_nil]
        exact .idle
      · rw [sound.record_fresh rfl]
        exact .appended fits
    | capture source input =>
      rcases captured_of_ok performed with ⟨unchanged, rfl⟩ | ⟨changed, n, mid, appended, rfl⟩
      · rw [LogCall.noted, if_pos unchanged, sound.fresh_nil, append_nil]
        exact .unchanged unchanged
      · rw [LogCall.noted, if_neg changed, appended]
        rcases sound.appended (appended_of_ok appended) with
          ⟨row, mem, named, rfl, same, rfl⟩ | ⟨rfl, fits, rfl⟩
        · rw [sound.fresh_nil, append_nil]
          exact .found changed ⟨mem, named, same⟩
        · rw [sound.record_fresh rfl]
          exact .captured changed fits
    | prune now before =>
      rw [LogCall.noted, append_nil]
      rcases pruned_of_ok performed with rfl | ⟨row, mem, rfl⟩
      · rw [sound.fresh_nil, append_nil]
        exact .idle
      · have nothing : (j.log.cut row.sequence).events.filter
            (fun row => j.log.watermark < row.sequence) = [] := by
          refine filter_eq_nil_iff.mpr fun other stored => ?_
          have reached := (sound.recorded_le
            (sound.recorded_of_stored (mem_of_mem_filter stored))).2
          simpa using reached
        rw [nothing, append_nil]
        exact .pruned mem

theorem Journal.Sound.later (more : List LogCall) : j.Sound digest id (calls ++ more) where
  numbered := sound.numbered
  kept := sound.kept
  within := sound.within
  stamped := sound.stamped
  short := sound.short
  keys := sound.keys
  hashed row mem := by
    rw [flatMap_append]
    exact mem_append_left _ (sound.hashed row mem)
  named c mem := by
    rw [flatMap_append]
    exact mem_append_left _ (sound.named c mem)
  noted := sound.noted
  checkpoint := sound.checkpoint

theorem Journal.Sound.record {row : StreamRow} (next : row.sequence = j.log.watermark + 1)
    (fits : j.log.fits row.sourceKey) (stamped : row.event.sequence = row.sequence)
    (hashed : digest.content row.event ∈ calls.flatMap (LogCall.texts digest id)) :
    (j.record row).Sound digest id calls where
  numbered := by
    change (j.recorded ++ [row]).map StreamRow.sequence = range' 1 row.sequence
    rw [next, map_append, sound.numbered, range'_1_concat, Nat.add_comm 1, ← next]
    rfl
  kept := by
    have length := congrArg length sound.numbered
    rw [length_map, length_range'] at length
    change j.log.events ++ [row] = (j.recorded ++ [row]).drop j.log.retainedAfter
    rw [drop_append_of_le_length (length ▸ sound.within), ← sound.kept]
  within := by
    change j.log.retainedAfter ≤ row.sequence
    have within := sound.within
    omega
  stamped := forall_mem_append.mpr ⟨sound.stamped, forall_mem_singleton.mpr stamped⟩
  short := forall_mem_append.mpr ⟨sound.short, forall_mem_singleton.mpr fits.1⟩
  keys := by
    change ((j.log.events ++ [row]).map StreamRow.sourceKey).Nodup
    rw [map_append, map_singleton, nodup_append]
    refine ⟨sound.keys, nodup_singleton _, ?_⟩
    rintro _ used _ new rfl
    obtain ⟨other, mem, same⟩ := mem_map.mp used
    exact fits.2 other mem (same.trans (mem_singleton.mp new))
  hashed := forall_mem_append.mpr ⟨sound.hashed, forall_mem_singleton.mpr hashed⟩
  named := sound.named
  noted c mem n noted := by
    change n ≤ row.sequence
    have reached := sound.noted c mem n noted
    omega
  checkpoint := sound.checkpoint

theorem Journal.Sound.note {c : Captured} (sources : Table String String)
    (named : digest.canonical (.input c.input) ∈ calls.flatMap (LogCall.texts digest id))
    (noted : ∀ n ∈ c.sequence, n ≤ j.log.watermark)
    (marked : ∀ source, sources.get source =
      if source = c.source then some (digest.evidenceHash (.input c.input))
      else j.log.sources.get source) :
    (Journal.note { j with log := { j.log with sources } } c).Sound digest id calls where
  numbered := sound.numbered
  kept := sound.kept
  within := sound.within
  stamped := sound.stamped
  short := sound.short
  keys := sound.keys
  hashed := sound.hashed
  named := forall_mem_append.mpr ⟨sound.named, forall_mem_singleton.mpr named⟩
  noted := forall_mem_append.mpr ⟨sound.noted, forall_mem_singleton.mpr noted⟩
  checkpoint source := by
    change sources.get source = _
    rw [marked, Journal.lastInput_note]
    split
    next same => rw [if_pos same.symm, Option.map_some]
    next differ => rw [if_neg (Ne.symm differ), sound.checkpoint]; rfl

theorem Journal.Sound.cut {row : StreamRow} (mem : row ∈ j.log.events) :
    (j.cut row.sequence).Sound digest id calls := by
  have reached := (sound.recorded_le (sound.recorded_of_stored mem)).2
  have past : j.log.retainedAfter < row.sequence := by
    have inside : row.sequence ∈ j.log.events.map StreamRow.sequence := mem_map_of_mem mem
    rw [sound.complete.2] at inside
    exact (mem_range'_1.mp inside).1
  have head : ∃ head, j.log.head = some head := by
    cases headed : j.log.head with
    | none =>
      rw [ObservationLog.watermark, headed] at reached
      change row.sequence ≤ 0 at reached
      omega
    | some head => exact ⟨head, rfl⟩
  obtain ⟨head, headed⟩ := head
  have retained : j.log.retainedAfter = head.retainedAfter := by
    rw [ObservationLog.retainedAfter, headed, Option.getD_some]
  have upTo : j.log.watermark = head.sequence := by
    rw [ObservationLog.watermark, headed, Option.getD_some]
  have cutTo : (j.log.cut row.sequence).retainedAfter = row.sequence := by
    rw [ObservationLog.retainedAfter, ObservationLog.cut, headed]
    change max head.retainedAfter row.sequence = row.sequence
    rw [max_eq_right (retained ▸ past.le)]
  have same : (j.log.cut row.sequence).watermark = j.log.watermark := by
    rw [ObservationLog.watermark, ObservationLog.cut, headed, upTo]
    rfl
  exact
    { numbered := by
        change j.recorded.map StreamRow.sequence = range' 1 (j.log.cut row.sequence).watermark
        rw [same, sound.numbered]
      kept := by
        change (j.log.cut row.sequence).events = j.recorded.drop (j.log.cut row.sequence).retainedAfter
        rw [cutTo]
        exact sound.events_after past.le
      within := by
        change (j.log.cut row.sequence).retainedAfter ≤ (j.log.cut row.sequence).watermark
        rw [cutTo, same]
        exact reached
      stamped := sound.stamped
      short := sound.short
      keys := Nodup.sublist (filter_sublist.map _) sound.keys
      hashed := sound.hashed
      named := sound.named
      noted := fun c mem n noted => same ▸ sound.noted c mem n noted
      checkpoint := sound.checkpoint }

theorem Journal.Sound.step (call : LogCall) :
    (j.next digest id call).Sound digest id (calls ++ [call]) := by
  have later := sound.later [call]
  have effect := sound.effect call
  generalize j.next digest id call = j' at effect ⊢
  cases effect with
  | idle => exact later
  | appended fits => exact later.record rfl fits rfl (content_mem (.inl rfl))
  | unchanged stored =>
    refine later.note j.log.sources (input_mem (.inr rfl)) nofun fun other => ?_
    split
    next same => rw [same, stored]
    next => rfl
  | found changed finds =>
    refine later.note _ (input_mem (.inr rfl)) ?_ fun other => Table.get_put
    rintro n ⟨⟩
    exact (sound.recorded_le (sound.recorded_of_stored finds.1)).2
  | captured changed fits =>
    refine (later.record rfl fits rfl (content_mem (.inr rfl))).note _
      (input_mem (.inr rfl)) ?_
      fun other => Table.get_put
    rintro n ⟨⟩
    exact le_rfl
  | pruned mem => exact later.cut mem

end Step

/-! ## Convergence -/

/-- The newest event of every source carries the payload captured last. -/
def Journal.Converged (digest : Digest) (id : String) (j : Journal) : Prop :=
  ∀ source input, j.lastInput source = some input →
    ∃ row, j.newest source = some row ∧ digest.Carries id row input

theorem Journal.newest_of_same {j' : Journal} (sound : j.Sound digest id calls)
    {calls' : List LogCall} (sound' : j'.Sound digest id calls')
    (same : ∀ row, j'.seen source row ↔ j.seen source row) :
    j'.newest source = j.newest source := by
  refine Option.ext fun row => ?_
  rw [sound'.newest_iff, sound.newest_iff, same]
  simp only [same]

theorem Journal.newest_joined {j' : Journal} (sound : j.Sound digest id calls)
    {calls' : List LogCall} (sound' : j'.Sound digest id calls') {row : StreamRow}
    (joined : ∀ other, j'.seen source other ↔ j.seen source other ∨ other = row) :
    (∃ newer ∈ j.newest source, row.sequence < newer.sequence ∧ j'.newest source = some newer) ∨
      j'.newest source = some row := by
  cases last : j.newest source with
  | none =>
    refine .inr (sound'.newest_iff.mpr ⟨(joined row).mpr (.inr rfl), fun other seen => ?_⟩)
    rcases (joined other).mp seen with old | rfl
    · exact absurd old (j.not_seen last)
    · exact le_rfl
  | some newer =>
    obtain ⟨seen, highest⟩ := sound.newest_iff.mp last
    by_cases replaced : row.sequence < newer.sequence
    · refine .inl ⟨newer, rfl, replaced, sound'.newest_iff.mpr
        ⟨(joined newer).mpr (.inl seen), fun other seen' => ?_⟩⟩
      rcases (joined other).mp seen' with old | rfl
      · exact highest other old
      · exact replaced.le
    · refine .inr (sound'.newest_iff.mpr ⟨(joined row).mpr (.inr rfl), fun other seen' => ?_⟩)
      rcases (joined other).mp seen' with old | rfl
      · exact (highest other old).trans (not_lt.mp replaced)
      · exact le_rfl

theorem Journal.seen_note {c : Captured} {row : StreamRow} :
    (j.note c).seen source row ↔ j.seen source row ∨
      row ∈ j.recorded ∧ c.source = source ∧ c.sequence = some row.sequence := by
  unfold Journal.seen Journal.observed Journal.note
  simp only [mem_append, mem_singleton]
  constructor
  · rintro ⟨mem, other, own | rfl, named⟩
    · exact .inl ⟨mem, other, own, named⟩
    · exact .inr ⟨mem, named⟩
  · rintro (⟨mem, other, own, named⟩ | ⟨mem, named⟩)
    · exact ⟨mem, other, .inl own, named⟩
    · exact ⟨mem, c, .inr rfl, named⟩

theorem Journal.Sound.seen_record (sound : j.Sound digest id calls) {row other : StreamRow}
    (next : row.sequence = j.log.watermark + 1) :
    (j.record row).seen source other ↔ j.seen source other := by
  constructor
  · rintro ⟨mem, c, own, named, noted⟩
    rcases mem_append.mp mem with old | new
    · exact ⟨old, c, own, named, noted⟩
    · have reached := sound.noted c own other.sequence noted
      rw [mem_singleton.mp new] at reached
      omega
  · exact fun ⟨mem, own⟩ => ⟨mem_append_left _ mem, own⟩

section Keeps

variable (sound : j.Sound digest id calls) (distinct : digest.Distinguishes id (calls ++ [call]))

include sound distinct

theorem Journal.Converged.step (converged : j.Converged digest id)
    (keeps : j.KeepsUp digest id call) : (j.next digest id call).Converged digest id := by
  have effect := sound.effect call
  have sound' := sound.step call
  generalize j.next digest id call = j' at effect sound' ⊢
  intro source' input' last
  cases effect with
  | idle => exact converged source' input' last
  | appended fits =>
    rw [Journal.newest_of_same sound sound' fun row => sound.seen_record rfl]
    exact converged source' input' last
  | pruned mem => exact converged source' input' last
  | unchanged stored =>
    rw [Journal.newest_of_same sound sound' fun row => by simp [Journal.seen_note]]
    rw [Journal.lastInput_note] at last
    split at last
    next same =>
      subst same
      cases last
      rw [sound.checkpoint] at stored
      obtain ⟨old, captured, hashes⟩ := Option.map_eq_some_iff.mp stored
      obtain ⟨row, newest, same, carried, content⟩ := converged _ old captured
      have texts := distinct _ ((sound.later [_]).lastInput_mem captured) _
        (input_mem (.inr rfl)) hashes
      exact ⟨row, newest, same, carried.trans texts, content⟩
    next => exact converged source' input' last
  | @found source input row changed finds =>
    have own : ∀ other, other ∈ j.recorded ∧ some row.sequence = some other.sequence ↔
        other = row := by
      have mem := sound.recorded_of_stored finds.1
      intro other
      constructor
      · rintro ⟨mem', same⟩
        exact sound.eq_of_sequence mem' mem (some.inj same).symm
      · rintro rfl
        exact ⟨mem, rfl⟩
    have contents {other : StreamRow} (mem : other ∈ j.recorded)
        (same : digest.sha256 (digest.content other.event) =
          digest.sha256 (digest.content (input.envelope id 0))) : digest.Carries id other input := by
      refine ⟨input, rfl, ?_⟩
      refine distinct _ ((sound.later [_]).hashed other mem) _ ?_ same
      rw [← EventInput.content_numbered (n := 0)]
      exact content_mem (.inr rfl)
    rw [Journal.lastInput_note] at last
    split at last
    next same =>
      subst same
      cases last
      have joined : ∀ other, ((j.mark source (digest.evidenceHash (.input input))).note
          ⟨source, input, row.sequence⟩).seen source other ↔ j.seen source other ∨ other = row := by
        intro other
        rw [Journal.seen_note, ← own other]
        simp [Journal.mark, Journal.seen, Journal.observed]
      rcases Journal.newest_joined sound sound' joined with ⟨newer, replaced, late, newest⟩ | newest
      · have mem := (sound.newest_iff.mp replaced).1.1
        exact ⟨newer, newest, contents mem (keeps changed row finds newer replaced late)⟩
      · exact ⟨row, newest, contents (sound.recorded_of_stored finds.1) finds.2.2⟩
    next differ =>
      rw [Journal.newest_of_same sound sound' fun row => ?_]
      · exact converged source' input' last
      · rw [Journal.seen_note]
        simp only [differ, false_and, and_false, or_false]
        exact Iff.rfl
  | @captured source input changed fits =>
    rw [Journal.lastInput_note] at last
    split at last
    next same =>
      subst same
      cases last
      let row := input.row id (captureKey digest source input) (j.log.watermark + 1)
      have joined : ∀ other, (((j.record row).mark source (digest.evidenceHash (.input input))).note
          ⟨source, input, some (j.log.watermark + 1)⟩).seen source other ↔
            j.seen source other ∨ other = row := by
        intro other
        rw [Journal.seen_note]
        refine or_congr (sound.seen_record rfl) ?_
        constructor
        · rintro ⟨mem, -, same⟩
          rcases mem_append.mp mem with old | new
          · have reached := (sound.recorded_le old).2
            have next := some.inj same
            omega
          · exact mem_singleton.mp new
        · rintro rfl
          exact ⟨mem_append_right _ mem_cons_self, rfl, rfl⟩
      rcases Journal.newest_joined sound sound' joined with ⟨newer, replaced, late, -⟩ | newest
      · have reached := (sound.recorded_le (sound.newest_iff.mp replaced).1.1).2
        change j.log.watermark + 1 < newer.sequence at late
        omega
      · exact ⟨row, newest, input, rfl, EventInput.content_numbered⟩
    next differ =>
      rw [Journal.newest_of_same sound sound' fun row => ?_]
      · exact converged source' input' last
      · rw [Journal.seen_note]
        simp only [differ, false_and, and_false, or_false]
        exact sound.seen_record rfl

end Keeps

/-! ## Every run -/

section Reached

variable (sound : j.Sound digest id calls)

include sound

theorem Journal.Sound.watermark_le (call : LogCall) :
    j.log.watermark ≤ (j.next digest id call).log.watermark := by
  have effect := sound.effect call
  generalize j.next digest id call = j' at effect ⊢
  cases effect with
  | idle => exact le_rfl
  | appended | captured => exact Nat.le_succ _
  | unchanged | found => exact le_rfl
  | pruned =>
    change j.log.watermark ≤ (j.log.cut _).watermark
    unfold ObservationLog.watermark ObservationLog.cut
    cases j.log.head <;> exact le_rfl

theorem Journal.Sound.recapture {again : EventInput} (last : j.lastInput source = some input)
    (same : digest.canonical (.input again) = digest.canonical (.input input)) :
    (j.next digest id (.capture source again)).log = j.log := by
  have stored : j.log.sources.get source = some (digest.evidenceHash (.input again)) := by
    rw [sound.checkpoint, last, Option.map_some]
    exact congrArg (Option.some ∘ digest.sha256) same.symm
  have performed : j.log.perform digest id (.capture source again) = .ok j.log := by
    change captureObservation digest id source again j.log = _
    unfold captureObservation
    rw [if_pos stored]
    rfl
  unfold Journal.next
  rw [performed]

theorem Journal.Sound.rejects {row : StreamRow} (mem : row ∈ j.log.events)
    (distinct : digest.Distinguishes id (calls ++ [.append row.sourceKey input]))
    (differ : digest.content row.event ≠ digest.content (input.envelope id 0)) :
    j.log.perform digest id (.append row.sourceKey input) = .error .payloadMismatch := by
  have short : ¬ 255 < row.sourceKey.utf8ByteSize :=
    not_lt.mpr (sound.short row (sound.recorded_of_stored mem))
  have stored : j.log.events.find? (fun other => other.sourceKey = row.sourceKey) = some row :=
    Keyed.find?_of_mem sound.keys mem
  have hashes : digest.evidenceHash (.identity (observationIdentity row.event)) ≠
      digest.evidenceHash (.identity (observationIdentity (input.envelope id 0))) := by
    refine fun same => differ (distinct _ ?_ _ ?_ same)
    · exact (sound.later [_]).hashed row (sound.recorded_of_stored mem)
    · rw [← EventInput.content_numbered (n := 0)]
      exact content_mem (.inl rfl)
  change (appendObservation digest id row.sourceKey input j.log).map Prod.snd = _
  unfold appendObservation
  rw [if_neg short]
  dsimp only
  rw [stored]
  dsimp only
  rw [if_pos hashes]
  rfl

theorem Journal.Sound.served {after limit : ℕ} (kept : j.log.retainedAfter ≤ after)
    (reached : after ≤ j.log.watermark) (safe : (after : ℤ) ≤ maxSafe)
    (some : 1 ≤ limit) (bounded : limit ≤ 200) :
    replay after limit j.log = .ok
      { events := ((j.recorded.drop after).take limit).map StreamRow.event
        nextCursor := (min (after + limit) j.log.watermark : ℕ)
        hasMore := after + limit < j.log.watermark
        replayRequired := false
        watermark := j.log.watermark } := by
  have numbers : (j.recorded.drop after).map StreamRow.sequence =
      range' (after + 1) (j.log.watermark - after) := by
    rw [map_drop, sound.numbered, drop_range', Nat.mul_one, Nat.add_comm]
  have length : (j.recorded.drop after).length = j.log.watermark - after := by
    rw [← length_map, numbers, length_range']
  unfold replay
  rw [if_neg (not_not.mpr ⟨safe, some, bounded⟩), if_neg (by omega)]
  dsimp only
  rw [sound.events_after kept, take_take, Nat.min_eq_left (Nat.le_succ _)]
  have stamps : (((j.recorded.drop after).take limit).map StreamRow.event).map
      (fun event => event.sequence) =
        (range' (after + 1) (min limit (j.log.watermark - after))).map Nat.cast := by
    have part : range' (after + 1) (min limit (j.log.watermark - after)) =
        (range' (after + 1) (j.log.watermark - after)).take limit := by
      rcases le_total limit (j.log.watermark - after) with fits | whole
      · rw [Nat.min_eq_left fits, take_range'_of_length_ge fits]
      · rw [Nat.min_eq_right whole, take_range'_of_length_le whole]
    rw [part, ← numbers, ← map_take, map_map, map_map]
    refine map_congr_left fun row mem => ?_
    exact sound.stamped row (mem_of_mem_drop (mem_of_mem_take mem))
  have cursor : ((((j.recorded.drop after).take limit).map StreamRow.event).getLast?.map
      fun event => event.sequence).getD (after : ℤ) = (min (after + limit) j.log.watermark : ℕ) := by
    rw [← getLast?_map, stamps, getLast?_map, getLast?_range']
    split
    next none =>
      change (after : ℤ) = _
      omega
    next =>
      change ((_ : ℕ) : ℤ) = _
      omega
  have more : (limit < ((j.recorded.drop after).take (limit + 1)).length) ↔
      after + limit < j.log.watermark := by
    rw [length_take, length]
    omega
  rw [cursor]
  congr 2
  exact decide_eq_decide.mpr more

end Reached

theorem Digest.Distinguishes.before {more : List LogCall}
    (distinct : digest.Distinguishes id (calls ++ more)) : digest.Distinguishes id calls := by
  unfold Digest.Distinguishes at distinct
  rw [flatMap_append] at distinct
  exact fun text mem other mem' =>
    distinct text (mem_append_left _ mem) other (mem_append_left _ mem')

theorem Journal.sound_start : Journal.start.Sound digest id [] where
  numbered := rfl
  kept := rfl
  within := le_rfl
  stamped := forall_mem_nil _
  short := forall_mem_nil _
  keys := nodup_nil
  hashed := forall_mem_nil _
  named := forall_mem_nil _
  noted := forall_mem_nil _
  checkpoint _ := rfl

theorem Journal.sound_of_run (run : Run (Journal.Step digest id) .start calls j) :
    j.Sound digest id calls := by
  refine run.history Journal.sound_start fun calls j call j' sound step => ?_
  rw [step.2]
  exact sound.step call

theorem Journal.converged_of_run (run : Run (Journal.Step digest id) .start calls j)
    (distinct : digest.Distinguishes id calls) : j.Converged digest id := by
  induction run with
  | nil => exact fun _ _ last => nomatch last
  | @snoc calls j j' call before step ih =>
    rw [step.2]
    exact (ih distinct.before).step (sound_of_run before) distinct step.1

/-- **The observation log**: in every state that calls which keep up reach, the stored sequences have
no gap, no call lowers the head, an unchanged payload is not captured again, a used key takes no other
content, the newest event of each source carries the payload captured last, and a cursor that is not
pruned is served what follows it. -/
theorem observation_log_converges (run : Run (Journal.Step digest id) .start calls j)
    (call : LogCall) (distinct : digest.Distinguishes id (calls ++ [call])) :
    j.log.Complete ∧
    j.log.watermark ≤ (j.next digest id call).log.watermark ∧
    (∀ source input again, call = .capture source again → j.lastInput source = some input →
      digest.canonical (.input again) = digest.canonical (.input input) →
      (j.next digest id call).log = j.log) ∧
    (∀ row ∈ j.log.events, ∀ input, call = .append row.sourceKey input →
      digest.content row.event ≠ digest.content (input.envelope id 0) →
      j.log.perform digest id call = .error .payloadMismatch ∧ j.next digest id call = j) ∧
    j.Converged digest id ∧
    ∀ after limit : ℕ, j.log.retainedAfter ≤ after → after ≤ j.log.watermark →
      (after : ℤ) ≤ maxSafe → 1 ≤ limit → limit ≤ 200 →
      replay after limit j.log = .ok
        { events := ((j.recorded.drop after).take limit).map StreamRow.event
          nextCursor := (min (after + limit) j.log.watermark : ℕ)
          hasMore := after + limit < j.log.watermark
          replayRequired := false
          watermark := j.log.watermark } := by
  have sound := Journal.sound_of_run run
  refine ⟨sound.complete, sound.watermark_le call, ?_, ?_,
    Journal.converged_of_run run distinct.before, fun _ _ => sound.served⟩
  · rintro source input again rfl last same
    exact sound.recapture last same
  · rintro row mem input rfl differ
    have rejected := sound.rejects mem distinct differ
    refine ⟨rejected, ?_⟩
    unfold Journal.next
    rw [rejected]

/-! ### A payload that returns -/

private def caseId : String := "11111111-1111-4111-8111-111111111111"

private def changed (version : ℤ) : EventInput where
  occurredAt := ⟨"2026-10-13T00:00:00.000Z", some 1791849600000⟩
  content := .investigationChanged none none ⟨version, .isOpen, .unconfirmed⟩

private def printLifecycle : InvestigationLifecycle → String
  | .isOpen => "open"
  | .waiting => "waiting"
  | .closed => "closed"
  | .archived => "archived"

private def printStatus : InvestigationProblemStatus → String
  | .unconfirmed => "unconfirmed"
  | .inProgress => "in_progress"
  | .resolved => "resolved"
  | .notApplicable => "not_applicable"

/-- The fields of a change that its input and its event share. -/
private def printChange (occurredAt : UtcText) (m : InvestigationMetadata) : String :=
  "\"occurredAt\":" ++ JsString.quote occurredAt.text ++ ",\"payload\":\x7b\"lifecycle\":\"" ++
    printLifecycle m.lifecycle ++ "\",\"problemStatus\":\"" ++ printStatus m.problemStatus ++
    "\",\"version\":" ++ toString m.version ++ "\x7d"

/-- Canonical JSON of a change that names no request and no run. -/
private def changeText : Evidence → String
  | .input ⟨occurredAt, .investigationChanged none none m⟩ =>
    "\x7b" ++ (printChange occurredAt m ++ ",\"type\":\"investigation.changed\"\x7d")
  | .identity ⟨⟨occurredAt, .investigationChanged none none m⟩, version, sequence, investigationId⟩ =>
    "\x7b\"investigationId\":" ++ JsString.quote investigationId ++ "," ++ printChange occurredAt m ++
      ",\"schemaVersion\":" ++ toString version ++ ",\"sequence\":" ++ toString sequence ++
      ",\"type\":\"investigation.changed\"\x7d"
  | .input _ | .identity _ => "null"

/-- SHA-256 of the texts below, in hexadecimal. -/
private def changeHash (text : String) : String :=
  if text = changeText (.input (changed 1)) then
    "383d765cbad8d194531c45947407ff7c29698c1d043e9744c15a67fb30761b5d"
  else if text = changeText (.input (changed 2)) then
    "bed3ea7961c356d5136e49ade48d29985b566c65299e05bd93a46c531366ecd5"
  else if text = changeText (.identity ((changed 1).envelope caseId 0)) then
    "08079dbf89bc4d87d49584ac9be4186eaef8db470db85e37de254b1c7273322d"
  else "2e9048a8a3f9eaf15cd8534bd0635aecfd387e70cc024978d60fbe1ce9abf45e"

private def changeDigest : Digest := ⟨changeText, changeHash⟩

private def change (version : ℤ) : LogCall := .capture "metadata" (changed version)

private def changedOnce : Journal := Journal.start.next changeDigest caseId (change 1)

private def changedTwice : Journal := changedOnce.next changeDigest caseId (change 2)

private def changedBack : Journal := changedTwice.next changeDigest caseId (change 1)

private theorem changes_distinct :
    changeDigest.Distinguishes caseId [change 1, change 2, change 1] := by
  unfold Digest.Distinguishes
  decide +kernel

private theorem content_of_changeText {input : EventInput}
    (same : changeText (.input input) = changeText (.input (changed 1))) :
    changeDigest.content (input.envelope caseId 0) =
      changeDigest.content ((changed 1).envelope caseId 0) := by
  obtain ⟨occurredAt, content⟩ := input
  have other : "null" ≠ changeText (.input (changed 1)) := by decide
  cases content with
  | investigationChanged requestId runId m =>
    cases requestId with
    | some => exact absurd same other
    | none =>
      cases runId with
      | some => exact absurd same other
      | none =>
        have fields := (String.append_left_inj _).mp ((String.append_right_inj _).mp same)
        change "\x7b\"investigationId\":" ++ JsString.quote caseId ++ "," ++
          printChange occurredAt m ++ _ ++ _ ++ _ ++ _ ++ _ = _
        rw [fields]
        rfl
  | _ => exact absurd same other

set_option maxRecDepth 4000 in
/-- The third capture finds the event of the first, and the newest event keeps the second payload. -/
theorem returned_payload_lost :
    ∃ j, Run (fun (j : Journal) call j' => j' = j.next changeDigest caseId call) .start
        [change 1, change 2, change 1] j ∧
      changeDigest.Distinguishes caseId [change 1, change 2, change 1] ∧
      ¬ j.Converged changeDigest caseId := by
  refine ⟨changedBack, .snoc (.snoc (.snoc .nil rfl) rfl) rfl, changes_distinct,
    fun converged => ?_⟩
  obtain ⟨row, newest, input, same, content⟩ := converged "metadata" (changed 1) rfl
  have kept : (changedBack.newest "metadata").map (fun row => changeDigest.content row.event) =
      some (changeDigest.content ((changed 2).envelope caseId 0)) := by rfl
  have differ : changeDigest.content ((changed 1).envelope caseId 0) ≠
      changeDigest.content ((changed 2).envelope caseId 0) := by decide
  rw [newest, Option.map_some, content, content_of_changeText same] at kept
  exact differ (some.inj kept)

theorem observation_log_converges_changed :
    changedTwice.log.Complete ∧ changedTwice.Converged changeDigest caseId := by
  have fresh : ∀ row ∈ changedOnce.log.events,
      row.sourceKey ≠ captureKey changeDigest "metadata" (changed 2) := by decide +kernel
  have first : Journal.start.KeepsUp changeDigest caseId (change 1) := by
    rintro - row ⟨mem, -⟩
    cases mem
  have second : changedOnce.KeepsUp changeDigest caseId (change 2) := by
    rintro - row ⟨mem, named, -⟩
    exact absurd named (fresh row mem)
  have run : Run (Journal.Step changeDigest caseId) .start ([change 1] ++ [change 2]) changedTwice :=
    .snoc (.single ⟨first, rfl⟩) ⟨second, rfl⟩
  have facts := observation_log_converges run (change 1) changes_distinct
  exact ⟨facts.1, facts.2.2.2.2.1⟩

end Slide.Investigations
