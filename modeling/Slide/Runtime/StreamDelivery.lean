import Slide.Library.Run
import Slide.Runtime.StreamingCoordinator
import Mathlib.Tactic.Linarith
import Mathlib.Algebra.BigOperators.Group.List.Basic

/-!
# The streaming coordinator delivers in order without loss

A stream that runs is `Live`: at most one pump, and the values written, the one being written and the
queued ones together stand for the admitted values.  A stream that was stopped, by a failure or by
the end of a drain, is `Halted`: from there on the writer is given nothing more.
-/

namespace Slide.Runtime

open Coalesce Transition List

section Delivery

variable {T : Type*} {o : StreamingOptions T} {s t : Stream T} {c : StreamingCoordinator T}
  {e : Thrown} {value : T} {bytes : ℚ}

/-! ### Streams that run and streams that were stopped -/

def valuesOf (entries : List (Entry T)) : List T := entries.map (·.value)

def bytesOf (entries : List (Entry T)) : ℚ := (entries.map (·.bytes)).sum

/-- The active entry and the queued ones. -/
def Stream.inFlight (s : Stream T) : List (Entry T) :=
  s.pumps.map (·.entry) ++ s.coordinator.events

/-- The values of the writes that have begun. -/
def begun (pumps : List (Pump T)) : List T :=
  (pumps.filter fun p => p.write ≠ .queued).map (·.entry.value)

structure Stream.Live (o : StreamingOptions T) (s : Stream T) : Prop where
  stopped : s.coordinator.stopped = false
  done : s.coordinator.done = .pending
  error : s.coordinator.error = none
  reason : s.coordinator.reason = none
  pump : s.pumps = [] ∧ s.coordinator.writing = false ∧ s.coordinator.events = [] ∧
      s.coordinator.ending = false ∨
    ∃ p, s.pumps = [p] ∧ s.coordinator.writing = true
  ending : s.coordinator.ending = true ↔ s.producer = .drained
  count : s.coordinator.pendingEvents = s.inFlight.length
  total : s.coordinator.pendingBytes = bytesOf s.inFlight
  sizes : ∀ entry ∈ s.inFlight, 0 ≤ entry.bytes
  count_le : s.coordinator.pendingEvents ≤ o.limits.maxEvents
  total_le : s.coordinator.pendingBytes ≤ o.limits.maxBytes
  wake : s.coordinator.wake = true → s.pumps ≠ [] ∧ ∃ v b, s.producer = .waiting v b
  waits : ∀ v b, s.producer = .waiting v b → 0 ≤ b ∧ b ≤ o.limits.maxBytes
  groups : s.groups.flatten = s.admitted
  stands : Coalesces o.merge s.groups (s.written ++ valuesOf s.inFlight)
  handed : s.handed = s.written ++ begun s.pumps

/-- The end of a drain. -/
structure Stream.Drained (o : StreamingOptions T) (s : Stream T) : Prop where
  done : s.coordinator.done = .resolved
  error : s.coordinator.error = none
  pumps : s.pumps = []
  handed : s.handed = s.written
  stands : Coalesces o.merge s.groups s.written

/-- The state of a coordinator after a failure. -/
structure Failed (c : StreamingCoordinator T) (e : Thrown) : Prop where
  done : c.done = .rejected e
  error : c.error = some e
  reason : c.reason = some e

structure Stream.Halted (o : StreamingOptions T) (s : Stream T) : Prop where
  stopped : s.coordinator.stopped = true
  events : s.coordinator.events = []
  count : s.coordinator.pendingEvents = 0
  total : s.coordinator.pendingBytes = 0
  wake : s.coordinator.wake = false
  groups : s.groups.flatten = s.admitted
  outcome : s.Drained o ∨ (∃ e, Failed s.coordinator e) ∧
    ∃ lost, Coalesces o.merge s.groups (s.handed ++ lost)

/-- What holds of every state of a stream. -/
def Stream.Sound (o : StreamingOptions T) (s : Stream T) : Prop := s.Live o ∨ s.Halted o

theorem Stream.Live.inFlight_of_idle (live : s.Live o) (idle : s.pumps = []) :
    s.coordinator.events = [] ∧ s.inFlight = [] := by
  rcases live.pump with ⟨-, -, empty, -⟩ | ⟨p, active, -⟩
  · exact ⟨empty, by simp [Stream.inFlight, idle, empty]⟩
  · simp [idle] at active

theorem Stream.Live.no_wake (live : s.Live o) (ready : ∀ v b, s.producer ≠ .waiting v b) :
    s.coordinator.wake = false := by
  cases slot : s.coordinator.wake with
  | false => rfl
  | true =>
    obtain ⟨-, v, b, waits⟩ := live.wake slot
    exact absurd waits (ready v b)

/-! ### Failure -/

theorem fail_stopped (stopped : c.stopped = true) : c.fail e = c := if_pos stopped

theorem finish_stopped (stopped : c.stopped = true) : c.finish = { c with writing := false } := by
  simp [StreamingCoordinator.finish, stopped]

theorem Stream.Live.order (live : s.Live o) :
    ∃ rest, Coalesces o.merge s.groups (s.handed ++ rest) := by
  rw [live.handed]
  have stands := live.stands
  rcases live.pump with ⟨idle, -, empty, -⟩ | ⟨p, active, -⟩
  · refine ⟨[], ?_⟩
    simpa [Stream.inFlight, begun, valuesOf, idle, empty] using stands
  · by_cases started : p.write = .queued
    · refine ⟨valuesOf s.inFlight, ?_⟩
      simpa [begun, active, started] using stands
    · refine ⟨valuesOf s.coordinator.events, ?_⟩
      simpa [Stream.inFlight, begun, valuesOf, active, started] using stands

theorem Stream.Live.failed (live : s.Live o) (failed : Failed t.coordinator e)
    (stopped : t.coordinator.stopped = true) (events : t.coordinator.events = [])
    (count : t.coordinator.pendingEvents = 0) (total : t.coordinator.pendingBytes = 0)
    (wake : t.coordinator.wake = false) (groups : t.groups = s.groups)
    (admitted : t.admitted = s.admitted) (handed : t.handed = s.handed) : t.Halted o := by
  refine ⟨stopped, events, count, total, wake, ?_, .inr ⟨⟨e, failed⟩, ?_⟩⟩
  · rw [groups, admitted, live.groups]
  · rw [groups, handed]
    exact live.order

theorem Stream.Live.fail (live : s.Live o) (pumps : List (Pump T)) (producer : Producer T) :
    { s with coordinator := s.coordinator.fail e, pumps, producer }.Halted o := by
  have running : ¬ s.coordinator.stopped = true := by simp [live.stopped]
  refine live.failed (e := e) ?_ ?_ ?_ ?_ ?_ ?_ rfl rfl rfl <;>
    simp only [StreamingCoordinator.fail, if_neg running]
  exact ⟨by simp [live.done, Done.settle], rfl, rfl⟩

theorem Stream.Live.undelivered (live : s.Live o) (i : ℕ) :
    (s.replace i (s.coordinator.undelivered e, none)).Halted o := by
  have running : ¬ s.coordinator.stopped = true := by simp [live.stopped]
  have ended : s.coordinator.undelivered e =
      { s.coordinator.fail (consumerError e) with writing := false } :=
    finish_stopped (by simp [StreamingCoordinator.fail, running])
  refine live.failed (e := consumerError e) ?_ ?_ ?_ ?_ ?_ ?_ rfl rfl rfl <;>
    simp only [Stream.replace, ended, StreamingCoordinator.fail, if_neg running]
  exact ⟨by simp [live.done, Done.settle], rfl, rfl⟩

/-! ### A pass of the producer -/

theorem mergeTail_eq_some {tail : Entry T} {merged : T}
    (found : c.mergeTail o value = some (tail, merged)) :
    c.events = c.events.dropLast ++ [tail] ∧ o.merge tail.value value = some merged := by
  unfold StreamingCoordinator.mergeTail at found
  obtain ⟨last, here, joined⟩ := Option.bind_eq_some_iff.mp found
  obtain ⟨m, join, same⟩ := Option.map_eq_some_iff.mp joined
  obtain ⟨rfl, rfl⟩ := Prod.mk.inj same
  exact ⟨(dropLast_append_getLast? _ here).symm, join⟩

theorem Stream.Live.merged {init : List (Entry T)} {tail : Entry T} {merged : T}
    (live : s.Live o) (free : s.coordinator.wake = false) (unended : s.coordinator.ending = false)
    (nonneg : ∀ v, 0 ≤ o.size v) (queued : s.coordinator.events = init ++ [tail])
    (joined : o.merge tail.value value = some merged)
    (fits : s.coordinator.pendingBytes + (o.size merged - tail.bytes) ≤ o.limits.maxBytes) :
    Stream.Live o { s with
      coordinator := { s.coordinator.count (o.size merged - tail.bytes) 0 with
        events := init ++ [⟨merged, o.size merged⟩] }
      producer := .ready none, admitted := s.admitted ++ [value]
      groups := absorb value s.groups } where
  stopped := live.stopped
  done := live.done
  error := live.error
  reason := live.reason
  pump := by
    rcases live.pump with ⟨-, -, empty, -⟩ | active
    · simp [queued] at empty
    · exact .inr active
  ending := by simp [StreamingCoordinator.count, unended]
  count := by
    have count := live.count
    simp only [Stream.inFlight, queued, length_append, length_singleton] at count ⊢
    simpa [StreamingCoordinator.count] using count
  total := by
    have total := live.total
    simp only [Stream.inFlight, queued, bytesOf, map_append, sum_append,
      StreamingCoordinator.count] at total ⊢
    rw [total, map_singleton, map_singleton, sum_singleton, sum_singleton]
    linarith
  sizes := by
    intro entry mem
    have sizes := live.sizes
    simp only [Stream.inFlight, queued] at sizes mem
    rcases mem_append.mp mem with active | waiting
    · exact sizes entry (mem_append_left _ active)
    · rcases mem_append.mp waiting with earlier | last
      · exact sizes entry (mem_append_right _ (mem_append_left _ earlier))
      · rw [mem_singleton.mp last]
        exact nonneg merged
  count_le := by simpa [StreamingCoordinator.count] using live.count_le
  total_le := fits
  wake := fun slot => nomatch free.symm.trans slot
  waits := nofun
  groups := by rw [absorb_flatten, live.groups]
  stands := by
    have stands := live.stands
    simp only [Stream.inFlight, queued, valuesOf, map_append, map_singleton,
      ← append_assoc] at stands ⊢
    exact stands.absorb joined
  handed := live.handed

variable (value) in
theorem Stream.Live.appended {p : Pump T} (live : s.Live o) (free : s.coordinator.wake = false)
    (unended : s.coordinator.ending = false) (active : s.pumps = [p])
    (writing : s.coordinator.writing = true) (positive : 0 ≤ bytes)
    (fits : s.coordinator.pendingBytes + bytes ≤ o.limits.maxBytes)
    (room : s.coordinator.pendingEvents + 1 ≤ o.limits.maxEvents) :
    Stream.Live o { s with
      coordinator := { s.coordinator.count bytes 1 with
        events := s.coordinator.events ++ [⟨value, bytes⟩] }
      producer := .ready none, admitted := s.admitted ++ [value]
      groups := s.groups ++ [[value]] } where
  stopped := live.stopped
  done := live.done
  error := live.error
  reason := live.reason
  pump := .inr ⟨p, active, writing⟩
  ending := by simp [StreamingCoordinator.count, unended]
  count := by
    have count := live.count
    simp only [Stream.inFlight, StreamingCoordinator.count] at count ⊢
    rw [count]
    push_cast [length_append, length_singleton]
    linarith
  total := by
    have total := live.total
    simp only [Stream.inFlight, bytesOf, StreamingCoordinator.count] at total ⊢
    rw [total]
    simp [add_assoc]
  sizes := by
    intro entry mem
    simp only [Stream.inFlight, ← append_assoc] at mem
    rcases mem_append.mp mem with earlier | last
    · exact live.sizes entry earlier
    · rw [mem_singleton.mp last]
      exact positive
  count_le := room
  total_le := fits
  wake := fun slot => nomatch free.symm.trans slot
  waits := nofun
  groups := by simp [live.groups]
  stands := by
    have pushed := live.stands.push value
    simpa [Stream.inFlight, valuesOf] using pushed
  handed := live.handed

variable (value) in
theorem Stream.Live.started (live : s.Live o) (free : s.coordinator.wake = false)
    (unended : s.coordinator.ending = false) (idle : s.pumps = []) (positive : 0 ≤ bytes)
    (fits : s.coordinator.pendingBytes + bytes ≤ o.limits.maxBytes)
    (room : s.coordinator.pendingEvents + 1 ≤ o.limits.maxEvents) :
    Stream.Live o { s with
      coordinator := { s.coordinator.count bytes 1 with events := [], writing := true }
      pumps := [⟨⟨value, bytes⟩, .queued⟩]
      producer := .ready none, admitted := s.admitted ++ [value]
      groups := s.groups ++ [[value]] } where
  stopped := live.stopped
  done := live.done
  error := live.error
  reason := live.reason
  pump := .inr ⟨_, rfl, rfl⟩
  ending := by simp [StreamingCoordinator.count, unended]
  count := by
    have count := live.count
    rw [(live.inFlight_of_idle idle).2] at count
    simp [Stream.inFlight, StreamingCoordinator.count, count]
  total := by
    have total := live.total
    rw [(live.inFlight_of_idle idle).2] at total
    simp [Stream.inFlight, StreamingCoordinator.count, total, bytesOf]
  sizes := by
    intro entry mem
    rw [mem_singleton.mp mem]
    exact positive
  count_le := room
  total_le := fits
  wake := fun slot => nomatch free.symm.trans slot
  waits := nofun
  groups := by simp [live.groups]
  stands := by
    have pushed := live.stands.push value
    rw [(live.inFlight_of_idle idle).2] at pushed
    simpa [Stream.inFlight, valuesOf] using pushed
  handed := by
    rw [live.handed, idle]
    rfl

theorem Stream.Live.awaits (live : s.Live o) (unended : s.coordinator.ending = false)
    (busy : s.pumps ≠ []) (within : 0 ≤ bytes ∧ bytes ≤ o.limits.maxBytes) :
    Stream.Live o { s with
      coordinator := { s.coordinator with wake := true }, producer := .waiting value bytes } where
  stopped := live.stopped
  done := live.done
  error := live.error
  reason := live.reason
  pump := live.pump
  ending := by simp [unended]
  count := live.count
  total := live.total
  sizes := live.sizes
  count_le := live.count_le
  total_le := live.total_le
  wake := fun _ => ⟨busy, value, bytes, rfl⟩
  waits := by
    intro v b same
    obtain ⟨-, rfl⟩ := Producer.waiting.inj same
    exact within
  groups := live.groups
  stands := live.stands
  handed := live.handed

theorem room_of_lt (o : StreamingOptions T) {n : ℕ} (below : (n : ℚ) < o.limits.maxEvents) :
    (n : ℚ) + 1 ≤ o.limits.maxEvents := by
  have whole : o.limits.maxEvents.den = 1 := (o.valid _ (by simp)).1.1
  rw [← Rat.coe_int_num_of_den_eq_one whole] at below ⊢
  have below : (n : ℤ) < o.limits.maxEvents.num := by exact_mod_cast below
  have next : (n : ℤ) + 1 ≤ o.limits.maxEvents.num := by omega
  exact_mod_cast next

theorem Stream.Live.busy (live : s.Live o) (within : bytes ≤ o.limits.maxBytes)
    (full : ¬ (s.coordinator.pendingBytes + bytes ≤ o.limits.maxBytes ∧
      s.coordinator.pendingEvents < o.limits.maxEvents)) : s.pumps ≠ [] := by
  intro idle
  have empty := (live.inFlight_of_idle idle).2
  have count := live.count
  have total := live.total
  have some : 0 < o.limits.maxEvents := (o.valid _ (by simp)).2
  simp only [empty, length_nil, bytesOf, map_nil, sum_nil, Nat.cast_zero] at count total
  rw [count, total, zero_add] at full
  exact full ⟨within, some⟩

theorem await_free (free : c.wake = false) : c.await = ({ c with wake := true }, .waits) := by
  simp [StreamingCoordinator.await, free]

/-- A pass over a coordinator that runs, by its three ends. -/
inductive Passes (o : StreamingOptions T) (c : StreamingCoordinator T) (value : T) (bytes : ℚ) :
    StreamingCoordinator T × Admission → Prop
  | merged (init : List (Entry T)) (tail : Entry T) (merged : T) : c.events = init ++ [tail] →
    o.merge tail.value value = some merged →
    c.pendingBytes + (o.size merged - tail.bytes) ≤ o.limits.maxBytes →
    Passes o c value bytes ({ c.count (o.size merged - tail.bytes) 0 with
      events := init ++ [⟨merged, o.size merged⟩] }, .merged)
  | appended : c.pendingBytes + bytes ≤ o.limits.maxBytes → c.pendingEvents < o.limits.maxEvents →
    Passes o c value bytes
      ({ c.count bytes 1 with events := c.events ++ [⟨value, bytes⟩] }, .appended)
  | full : c.events ≠ [] ∨ ¬ (c.pendingBytes + bytes ≤ o.limits.maxBytes ∧
      c.pendingEvents < o.limits.maxEvents) →
    Passes o c value bytes ({ c with wake := true }, .waits)

variable (o c value bytes) in
theorem passes (running : c.stopped = false) (unended : c.ending = false) (free : c.wake = false) :
    Passes o c value bytes (c.pass o value bytes) := by
  unfold StreamingCoordinator.pass
  rw [if_neg (by simp [running]), if_neg (by simp [unended])]
  cases found : c.mergeTail o value with
  | some pair =>
    obtain ⟨tail, merged⟩ := pair
    obtain ⟨queued, joined⟩ := mergeTail_eq_some found
    dsimp only
    split
    next fits => exact .merged _ tail merged queued joined fits
    next =>
      rw [await_free free]
      refine .full (.inl fun empty => ?_)
      rw [empty] at queued
      simp at queued
  | none =>
    dsimp only
    split
    next fits => exact .appended fits.1 fits.2
    next full =>
      rw [await_free free]
      exact .full (.inr full)

theorem Stream.Live.pass (live : s.Live o) (nonneg : ∀ v, 0 ≤ o.size v)
    (free : s.coordinator.wake = false) (undrained : s.producer ≠ .drained) (positive : 0 ≤ bytes)
    (within : bytes ≤ o.limits.maxBytes) : (s.pass o value bytes).Live o := by
  have unended : s.coordinator.ending = false := by
    rw [← Bool.not_eq_true]
    exact mt live.ending.mp undrained
  have ends := passes o s.coordinator value bytes live.stopped unended free
  unfold Stream.pass
  generalize s.coordinator.pass o value bytes = after at ends
  cases ends with
  | merged init tail merged queued joined fits =>
    have busy : s.coordinator.writing = true := by
      rcases live.pump with ⟨-, -, empty, -⟩ | ⟨-, -, writing⟩
      · simp [queued] at empty
      · exact writing
    have next := live.merged free unended nonneg queued joined fits
    simpa [StreamingCoordinator.start, StreamingCoordinator.count, busy] using next
  | appended fits room =>
    have room : s.coordinator.pendingEvents + 1 ≤ o.limits.maxEvents := by
      rw [live.count] at room ⊢
      exact room_of_lt o room
    rcases live.pump with ⟨idle, quiet, empty, -⟩ | ⟨p, active, busy⟩
    · have next := live.started value free unended idle positive fits room
      simpa [StreamingCoordinator.start, StreamingCoordinator.pump, StreamingCoordinator.count,
        quiet, empty, idle, live.stopped] using next
    · have next := live.appended value free unended active busy positive fits room
      simpa [StreamingCoordinator.start, StreamingCoordinator.count, busy] using next
  | full cause =>
    refine live.awaits unended ?_ ⟨positive, within⟩
    rcases cause with queued | cause
    · intro idle
      exact queued (live.inFlight_of_idle idle).1
    · exact live.busy within cause

/-! ### The pump -/

theorem Stream.Live.next {entry next : Entry T} {rest : List (Entry T)} (live : s.Live o)
    (active : s.pumps = [⟨entry, .settled none⟩]) (queued : s.coordinator.events = next :: rest) :
    Stream.Live o { s with
      coordinator := { s.coordinator with
        events := rest, pendingEvents := s.coordinator.pendingEvents - 1
        pendingBytes := s.coordinator.pendingBytes - entry.bytes, wake := false }
      pumps := [⟨next, .queued⟩], written := s.written ++ [entry.value] } where
  stopped := live.stopped
  done := live.done
  error := live.error
  reason := live.reason
  pump := by
    rcases live.pump with ⟨idle, -⟩ | ⟨-, -, busy⟩
    · simp [active] at idle
    · exact .inr ⟨_, rfl, busy⟩
  ending := live.ending
  count := by
    have count := live.count
    simp only [Stream.inFlight, active, queued] at count ⊢
    rw [count]
    simp
  total := by
    have total := live.total
    simp only [Stream.inFlight, active, queued] at total ⊢
    rw [total]
    simp [bytesOf]
  sizes := by
    intro e mem
    refine live.sizes e ?_
    rw [Stream.inFlight, active, queued]
    exact mem_cons_of_mem _ mem
  count_le := by
    have bound := live.count_le
    change s.coordinator.pendingEvents - 1 ≤ _
    linarith
  total_le := by
    have bound := live.total_le
    have positive := live.sizes entry (by simp [Stream.inFlight, active])
    change s.coordinator.pendingBytes - entry.bytes ≤ _
    linarith
  wake := nofun
  waits := live.waits
  groups := live.groups
  stands := by simpa [Stream.inFlight, active, queued, valuesOf] using live.stands
  handed := by simpa [begun, active] using live.handed

theorem Stream.Live.quiet {entry : Entry T} (live : s.Live o)
    (active : s.pumps = [⟨entry, .settled none⟩]) (empty : s.coordinator.events = [])
    (unended : s.coordinator.ending = false) :
    Stream.Live o { s with
      coordinator := { s.coordinator with
        writing := false, pendingEvents := s.coordinator.pendingEvents - 1
        pendingBytes := s.coordinator.pendingBytes - entry.bytes, wake := false }
      pumps := [], written := s.written ++ [entry.value] } where
  stopped := live.stopped
  done := live.done
  error := live.error
  reason := live.reason
  pump := .inl ⟨rfl, rfl, empty, unended⟩
  ending := live.ending
  count := by
    have count := live.count
    simp only [Stream.inFlight, active, empty] at count ⊢
    rw [count]
    simp
  total := by
    have total := live.total
    simp only [Stream.inFlight, active, empty] at total ⊢
    rw [total]
    simp [bytesOf]
  sizes := by simp [Stream.inFlight, empty]
  count_le := by
    have bound := live.count_le
    change s.coordinator.pendingEvents - 1 ≤ _
    linarith
  total_le := by
    have bound := live.total_le
    have positive := live.sizes entry (by simp [Stream.inFlight, active])
    change s.coordinator.pendingBytes - entry.bytes ≤ _
    linarith
  wake := nofun
  waits := live.waits
  groups := live.groups
  stands := by simpa [Stream.inFlight, active, empty, valuesOf] using live.stands
  handed := by simpa [begun, active] using live.handed

theorem Stream.Live.completed (live : s.Live o) {pumps : List (Pump T)} {written : List T}
    {c : StreamingCoordinator T} (done : c.done = .resolved) (error : c.error = none)
    (stopped : c.stopped = true) (events : c.events = []) (count : c.pendingEvents = 0)
    (total : c.pendingBytes = 0) (wake : c.wake = false) (idle : pumps = [])
    (handed : s.handed = written) (stands : Coalesces o.merge s.groups written)
    (producer : Producer T) :
    Stream.Halted o { s with coordinator := c, pumps, written, producer } :=
  ⟨stopped, events, count, total, wake, live.groups, .inl ⟨done, error, idle, handed, stands⟩⟩

theorem Stream.Live.delivered {entry : Entry T} (live : s.Live o)
    (active : s.pumps = [⟨entry, .settled none⟩]) :
    Stream.Sound o { s.replace 0 (s.coordinator.delivered entry) with
      written := s.written ++ [entry.value] } := by
  have running := live.stopped
  cases queued : s.coordinator.events with
  | cons next rest =>
    left
    simpa [Stream.replace, StreamingCoordinator.delivered, StreamingCoordinator.pump, active, queued,
      running] using live.next active queued
  | nil =>
    cases ending : s.coordinator.ending with
    | false =>
      left
      simpa [Stream.replace, StreamingCoordinator.delivered, StreamingCoordinator.pump,
        StreamingCoordinator.finish, active, queued, running, ending] using
        live.quiet active queued ending
    | true =>
      right
      have count := live.count
      have total := live.total
      have handed := live.handed
      have stands := live.stands
      simp only [Stream.inFlight, active, queued] at count total stands
      simp only [Stream.replace, StreamingCoordinator.delivered, StreamingCoordinator.pump,
        StreamingCoordinator.finish, StreamingCoordinator.complete, active, queued, running, ending]
      apply live.completed
      · simp [live.done, Done.settle]
      · exact live.error
      · rfl
      · simp
      · simp [count]
      · simp [total, bytesOf]
      · rfl
      · simp
      · simpa [begun, active] using handed
      · simpa [valuesOf] using stands

theorem Stream.Live.write {p q : Pump T} (live : s.Live o) (active : s.pumps = [p])
    (entry : q.entry = p.entry) {handed : List T} (given : handed = s.written ++ begun [q]) :
    Stream.Live o { s with pumps := [q], handed } := by
  have flight : Stream.inFlight { s with pumps := [q], handed } = s.inFlight := by
    simp [Stream.inFlight, active, entry]
  refine ⟨live.stopped, live.done, live.error, live.reason, .inr ⟨q, rfl, ?_⟩, live.ending, ?_, ?_, ?_,
    live.count_le, live.total_le, ?_, live.waits, live.groups, ?_, given⟩
  · rcases live.pump with ⟨idle, -⟩ | ⟨-, -, busy⟩
    · simp [active] at idle
    · exact busy
  · rw [flight]
    exact live.count
  · rw [flight]
    exact live.total
  · rw [flight]
    exact live.sizes
  · exact fun slot => ⟨by simp, (live.wake slot).2⟩
  · rw [flight]
    exact live.stands

theorem Stream.Live.drain (live : s.Live o) (free : s.coordinator.wake = false) :
    Stream.Sound o { s with coordinator := s.coordinator.drain, producer := .drained } := by
  have running := live.stopped
  rcases live.pump with ⟨idle, quiet, empty, -⟩ | ⟨p, active, busy⟩
  · right
    have flight := (live.inFlight_of_idle idle).2
    have count := live.count
    have total := live.total
    have stands := live.stands
    rw [flight] at count total stands
    simp only [StreamingCoordinator.drain, StreamingCoordinator.complete, quiet, running]
    apply live.completed
    · simp [live.done, Done.settle]
    · exact live.error
    · rfl
    · exact empty
    · simp [count]
    · simp [total, bytesOf]
    · exact free
    · exact idle
    · simpa [begun, idle] using live.handed
    · simpa [valuesOf] using stands
  · left
    have drained : s.coordinator.drain = { s.coordinator with ending := true } := by
      simp [StreamingCoordinator.drain, busy]
    rw [drained]
    exact ⟨live.stopped, live.done, live.error, live.reason, .inr ⟨p, active, busy⟩, by simp,
      live.count, live.total, live.sizes, live.count_le, live.total_le,
      (fun slot => nomatch free.symm.trans slot), nofun, live.groups, live.stands, live.handed⟩

/-! ### After a stop -/

/-- Nothing moves but the flags of a pump or a drain that ends. -/
structure Stream.Idles (s t : Stream T) : Prop where
  coordinator : ∃ writing ending, t.coordinator = { s.coordinator with writing, ending }
  groups : t.groups = s.groups
  admitted : t.admitted = s.admitted
  handed : t.handed = s.handed
  written : t.written = s.written
  pumps : s.pumps = [] → t.pumps = []

theorem Stream.Idles.refl (s : Stream T) : s.Idles s :=
  ⟨⟨_, _, rfl⟩, rfl, rfl, rfl, rfl, fun idle => idle⟩

theorem Stream.Idles.halted (idles : s.Idles t) (halted : s.Halted o) : t.Halted o := by
  obtain ⟨⟨writing, ending, same⟩, groups, admitted, handed, written, pumps⟩ := idles
  refine ⟨?_, ?_, ?_, ?_, ?_, ?_, ?_⟩
  · simpa [same] using halted.stopped
  · simpa [same] using halted.events
  · simpa [same] using halted.count
  · simpa [same] using halted.total
  · simpa [same] using halted.wake
  · rw [groups, admitted, halted.groups]
  · rcases halted.outcome with drained | ⟨⟨e, failed⟩, lost, stands⟩
    · left
      refine ⟨?_, ?_, pumps drained.pumps, ?_, ?_⟩
      · simpa [same] using drained.done
      · simpa [same] using drained.error
      · rw [handed, written, drained.handed]
      · rw [groups, written]
        exact drained.stands
    · right
      refine ⟨⟨e, ?_, ?_, ?_⟩, lost, ?_⟩
      · simpa [same] using failed.done
      · simpa [same] using failed.error
      · simpa [same] using failed.reason
      · rw [groups, handed]
        exact stands

theorem Stream.Halted.pass (halted : s.Halted o) : s.Idles (s.pass o value bytes) := by
  have refused : ∃ e, s.coordinator.pass o value bytes = (s.coordinator, .refused e) :=
    ⟨_, by simp [StreamingCoordinator.pass, halted.stopped]; rfl⟩
  obtain ⟨e, refused⟩ := refused
  unfold Stream.pass
  rw [refused]
  exact ⟨⟨_, _, rfl⟩, rfl, rfl, rfl, rfl, fun idle => idle⟩

theorem replace_nil {i : ℕ} {after : StreamingCoordinator T × Option (Pump T)}
    (ended : after.2 = none) (idle : s.pumps = []) : (s.replace i after).pumps = [] := by
  simp [Stream.replace, ended, idle]

theorem Stream.Halted.idles {event : StreamEvent T} (halted : s.Halted o)
    (step : s.Step o event t) : s.Idles t := by
  have stopped := halted.stopped
  unfold Stream.Step Stream.after at step
  cases event with
  | enqueue value =>
    dsimp only at step
    split at step
    next =>
      obtain rfl := some.inj step
      unfold Stream.enqueue
      dsimp only
      split
      · rw [fail_stopped stopped]
        exact ⟨⟨_, _, rfl⟩, rfl, rfl, rfl, rfl, fun idle => idle⟩
      · exact halted.pass
    next => cases step
  | wake =>
    dsimp only at step
    split at step
    next =>
      rw [if_neg (by simp [halted.wake])] at step
      obtain rfl := some.inj step
      exact halted.pass
    next => cases step
  | drain =>
    dsimp only at step
    split at step
    next =>
      obtain rfl := some.inj step
      refine ⟨⟨s.coordinator.writing, true, ?_⟩, rfl, rfl, rfl, rfl, fun idle => idle⟩
      simp [StreamingCoordinator.drain, stopped]
    next => cases step
  | write i =>
    dsimp only at step
    split at step
    next entry found =>
      split at step
      next =>
        obtain rfl := some.inj step
        refine ⟨⟨_, _, rfl⟩, rfl, rfl, rfl, rfl, fun idle => ?_⟩
        simp [idle] at found
      next unaborted =>
        rcases halted.outcome with drained | ⟨⟨e, failed⟩, -⟩
        · simp [drained.pumps] at found
        · rw [failed.reason] at unaborted
          cases unaborted
    next => cases step
  | settle i failure =>
    dsimp only at step
    split at step
    next entry found =>
      obtain rfl := some.inj step
      refine ⟨⟨_, _, rfl⟩, rfl, rfl, rfl, rfl, fun idle => ?_⟩
      simp [idle] at found
    next => cases step
  | finish i =>
    dsimp only at step
    split at step
    next entry found =>
      obtain rfl := some.inj step
      rw [if_pos stopped]
      have ended : s.coordinator.delivered entry = ({ s.coordinator with writing := false }, none) := by
        simp [StreamingCoordinator.delivered, stopped, finish_stopped stopped]
      rw [ended]
      exact ⟨⟨false, _, rfl⟩, rfl, rfl, rfl, rfl, fun idle => replace_nil rfl idle⟩
    next cause found =>
      obtain rfl := some.inj step
      have ended : s.coordinator.undelivered cause = { s.coordinator with writing := false } := by
        rw [StreamingCoordinator.undelivered, fail_stopped stopped, finish_stopped stopped]
      rw [ended]
      exact ⟨⟨false, _, rfl⟩, rfl, rfl, rfl, rfl, fun idle => replace_nil rfl idle⟩
    next => cases step
  | abort i =>
    dsimp only at step
    split at step
    next reason found aborted =>
      obtain rfl := some.inj step
      have ended : s.coordinator.undelivered reason = { s.coordinator with writing := false } := by
        rw [StreamingCoordinator.undelivered, fail_stopped stopped, finish_stopped stopped]
      rw [ended]
      exact ⟨⟨false, _, rfl⟩, rfl, rfl, rfl, rfl, fun idle => replace_nil rfl idle⟩
    next => cases step
  | timeout i =>
    dsimp only at step
    split at step
    next =>
      obtain rfl := some.inj step
      rw [fail_stopped stopped]
      exact .refl s
    next => cases step
  | fail error =>
    obtain rfl := some.inj step
    rw [fail_stopped stopped]
    exact .refl s

/-! ### Every stream -/

theorem Stream.Live.only {i : ℕ} {p : Pump T} (live : s.Live o) (found : s.pumps[i]? = some p) :
    i = 0 ∧ s.pumps = [p] := by
  rcases live.pump with ⟨idle, -⟩ | ⟨q, active, -⟩
  · simp [idle] at found
  · cases i with
    | zero => simpa [active] using found
    | succ i => simp [active] at found

theorem Stream.Live.step {event : StreamEvent T} (nonneg : ∀ v, 0 ≤ o.size v) (live : s.Live o)
    (step : s.Step o event t) : t.Sound o := by
  unfold Stream.Step Stream.after at step
  cases event with
  | enqueue value =>
    dsimp only at step
    split at step
    next thrown ready =>
      obtain rfl := some.inj step
      have free := live.no_wake fun v b waits => nomatch ready.symm.trans waits
      unfold Stream.enqueue
      dsimp only
      split
      next => exact .inr (live.fail _ _)
      next admissible =>
        simp only [not_or, not_not, not_lt] at admissible
        obtain ⟨-, positive, within⟩ := admissible
        exact .inl (live.pass nonneg free (fun drained => nomatch ready.symm.trans drained) positive
          within)
    next => cases step
  | wake =>
    dsimp only at step
    split at step
    next value bytes waits =>
      split at step
      next => cases step
      next free =>
        obtain rfl := some.inj step
        obtain ⟨positive, within⟩ := live.waits value bytes waits
        exact .inl (live.pass nonneg (Bool.not_eq_true _ |>.mp free)
          (fun drained => nomatch waits.symm.trans drained) positive within)
    next => cases step
  | drain =>
    dsimp only at step
    split at step
    next thrown ready =>
      obtain rfl := some.inj step
      exact live.drain (live.no_wake fun v b waits => nomatch ready.symm.trans waits)
    next => cases step
  | write i =>
    dsimp only at step
    split at step
    next entry found =>
      obtain ⟨rfl, active⟩ := live.only found
      rw [live.reason] at step
      obtain rfl := some.inj step
      left
      have given : s.handed = s.written := by simpa [begun, active] using live.handed
      have next : s.handed ++ [entry.value] = s.written ++ begun [⟨entry, .running⟩] := by
        rw [given]
        rfl
      rw [active, set_cons_zero]
      exact live.write (q := ⟨entry, .running⟩) active rfl next
    next => cases step
  | settle i failure =>
    dsimp only at step
    split at step
    next entry found =>
      obtain ⟨rfl, active⟩ := live.only found
      obtain rfl := some.inj step
      left
      have same : s.handed = s.written ++ begun [⟨entry, .settled failure⟩] := by
        rw [live.handed, active]
        rfl
      rw [active, set_cons_zero]
      exact live.write (q := ⟨entry, .settled failure⟩) active rfl same
    next => cases step
  | finish i =>
    dsimp only at step
    split at step
    next entry found =>
      obtain ⟨rfl, active⟩ := live.only found
      obtain rfl := some.inj step
      rw [if_neg (by simp [live.stopped])]
      exact live.delivered active
    next cause found =>
      obtain rfl := some.inj step
      exact .inr (live.undelivered i)
    next => cases step
  | abort i =>
    simp only [live.reason] at step
    split at step
    next aborted => cases aborted
    next => cases step
  | timeout i =>
    dsimp only at step
    split at step
    next =>
      obtain rfl := some.inj step
      exact .inr (live.fail _ _)
    next => cases step
  | fail error =>
    obtain rfl := some.inj step
    exact .inr (live.fail _ _)

theorem initial_live (o : StreamingOptions T) : Stream.Live o {} := by
  have limits : 0 < o.limits.maxEvents ∧ 0 < o.limits.maxBytes :=
    ⟨(o.valid _ (by simp)).2, (o.valid _ (by simp)).2⟩
  refine ⟨rfl, rfl, rfl, rfl, .inl ⟨rfl, rfl, rfl, rfl⟩, by simp, by simp [Stream.inFlight],
    by simp [Stream.inFlight, bytesOf], by simp [Stream.inFlight], limits.1.le, limits.2.le, nofun, nofun,
    rfl, .nil, rfl⟩

theorem sound_of_run {events : List (StreamEvent T)} (nonneg : ∀ v, 0 ≤ o.size v)
    (run : Run (Stream.Step o) {} events s) : s.Sound o := by
  refine run.invariant (P := Stream.Sound o) (.inl (initial_live o)) fun s event t sound step => ?_
  rcases sound with live | halted
  · exact live.step nonneg step
  · exact .inr ((halted.idles step).halted halted)

theorem Stream.Halted.run {events : List (StreamEvent T)} (halted : s.Halted o)
    (run : Run (Stream.Step o) s events t) : t.handed = s.handed := by
  refine (run.invariant (P := fun t => t.Halted o ∧ t.handed = s.handed) ⟨halted, rfl⟩
    fun t event u sound step => ?_).2
  have idles := sound.1.idles step
  exact ⟨idles.halted sound.1, idles.handed.trans sound.2⟩

theorem finish_wake : c.finish.wake = c.wake := by
  unfold StreamingCoordinator.finish
  dsimp only
  split <;> rfl

theorem pump_wake : c.pump.1.wake = c.wake := by
  unfold StreamingCoordinator.pump
  split
  · exact finish_wake
  · split
    · exact finish_wake
    · rfl

theorem Stream.Live.wakes {event : StreamEvent T} (live : s.Live o) (step : s.Step o event t)
    (completes : t.written ≠ s.written) : t.coordinator.wake = false := by
  unfold Stream.Step Stream.after at step
  cases event with
  | finish i =>
    dsimp only at step
    split at step
    next entry found =>
      obtain ⟨rfl, active⟩ := live.only found
      obtain rfl := some.inj step
      have running : ¬ s.coordinator.stopped = true := by simp [live.stopped]
      change (s.coordinator.delivered entry).1.wake = false
      rw [StreamingCoordinator.delivered, if_neg running, pump_wake]
    next cause found =>
      obtain rfl := some.inj step
      exact absurd rfl completes
    next => cases step
  | enqueue value =>
    dsimp only at step
    split at step
    next =>
      obtain rfl := some.inj step
      refine absurd ?_ completes
      unfold Stream.enqueue Stream.pass
      dsimp only
      split
      · rfl
      · split <;> rfl
    next => cases step
  | wake =>
    dsimp only at step
    split at step
    next =>
      split at step
      next => cases step
      next =>
        obtain rfl := some.inj step
        refine absurd ?_ completes
        unfold Stream.pass
        dsimp only
        split <;> rfl
    next => cases step
  | drain | write | settle | abort | timeout | fail =>
    refine absurd ?_ completes
    dsimp only at step
    repeat' split at step
    all_goals cases step
    all_goals rfl

/-! ### What a state tells -/

theorem Stream.Live.undone (live : s.Live o) (drained : s.producer = .drained) :
    (s.coordinator.done = .resolved ↔
      s.coordinator.error = none ∧ s.written.length = s.groups.length) ∧
    ((∃ e, s.coordinator.done = .rejected e) ↔ s.coordinator.error ≠ none) := by
  have ending := live.ending.mpr drained
  rw [live.done, live.error]
  refine ⟨iff_of_false nofun ?_, iff_of_false nofun (not_not.mpr rfl)⟩
  rintro ⟨-, whole⟩
  have lengths := live.stands.length
  rcases live.pump with ⟨-, -, -, unended⟩ | ⟨p, active, -⟩
  · rw [unended] at ending
    cases ending
  · simp only [length_append, valuesOf, Stream.inFlight, active, map_cons, map_nil,
      length_cons, length_nil, length_map] at lengths
    omega

theorem Stream.Halted.order (halted : s.Halted o) :
    ∃ rest, Coalesces o.merge s.groups (s.handed ++ rest) := by
  rcases halted.outcome with drained | ⟨-, lost⟩
  · refine ⟨[], ?_⟩
    rw [append_nil, drained.handed]
    exact drained.stands
  · exact lost

theorem Stream.Halted.kept (halted : s.Halted o) (whole : s.coordinator.error = none) :
    Coalesces o.merge s.groups (s.written ++ valuesOf s.inFlight) ∧
      s.handed = s.written ++ begun s.pumps ∧
      s.coordinator.pendingEvents = s.inFlight.length ∧
      s.coordinator.pendingBytes = bytesOf s.inFlight := by
  rcases halted.outcome with drained | ⟨⟨e, failed⟩, -⟩
  · have empty : s.inFlight = [] := by simp [Stream.inFlight, drained.pumps, halted.events]
    rw [empty, drained.pumps, halted.count, halted.total, drained.handed]
    refine ⟨?_, (append_nil _).symm, Nat.cast_zero.symm, rfl⟩
    simpa [valuesOf] using drained.stands
  · rw [failed.error] at whole
    cases whole

theorem Stream.Halted.done (halted : s.Halted o) :
    (s.coordinator.done = .resolved ↔
      s.coordinator.error = none ∧ s.written.length = s.groups.length) ∧
    ((∃ e, s.coordinator.done = .rejected e) ↔ s.coordinator.error ≠ none) := by
  rcases halted.outcome with drained | ⟨⟨e, failed⟩, -⟩
  · rw [drained.done, drained.error]
    exact ⟨iff_of_true rfl ⟨rfl, drained.stands.length.symm⟩, iff_of_false nofun (not_not.mpr rfl)⟩
  · rw [failed.done, failed.error]
    exact ⟨iff_of_false nofun nofun, iff_of_true ⟨e, rfl⟩ nofun⟩

end Delivery

/-! ### A drain of two values, and a writer that is late -/

private def textOptions : StreamingOptions String where
  limits := {}
  valid := by decide +kernel
  size text := text.length
  merge _ _ := none

private theorem textOptions_nonneg (text : String) : 0 ≤ textOptions.size text :=
  Nat.cast_nonneg _

private def twoWritten : List (StreamEvent String) :=
  [.enqueue "a", .enqueue "b", .drain, .write 0, .settle 0 none, .finish 0, .write 0, .settle 0 none,
    .finish 0]

end Slide.Runtime
