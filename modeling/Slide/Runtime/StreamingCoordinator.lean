import Slide.Library.Coalesce
import Mathlib.Algebra.Order.Ring.Rat

/-!
# The streaming coordinator

`streaming-coordinator.ts`: one producer, one pump, and a writer that resolves, rejects or hangs.
Everything between two awaits is one function here; what an interleaving may put next is one
`StreamEvent`.  A pump that awaits the race of a write is a value of its own, so that two of them
could run if the coordinator ever started two.

Sizes are whole numbers of bytes but for merged events, whose size the code does not check; the
arithmetic on them is exact here.
-/

namespace Slide.Runtime

open Coalesce

structure RuntimeError where
  (code message : String)
deriving DecidableEq

/-- What may be thrown: an error of the runtime, or anything else by its text. -/
inductive Thrown
  | runtime (error : RuntimeError)
  | other (text : String)
deriving DecidableEq

/-- `Number.isSafeInteger`. -/
def safeInteger (n : ℚ) : Prop := n.den = 1 ∧ -(2 ^ 53 - 1) ≤ n ∧ n ≤ 2 ^ 53 - 1

instance : DecidablePred safeInteger := fun _ => inferInstanceAs (Decidable (_ ∧ _ ∧ _))

structure StreamingLimits where
  maxPendingEvents : Option ℚ := none
  maxPendingBytes : Option ℚ := none
  consumerTimeoutMs : Option ℚ := none

def StreamingLimits.maxEvents (l : StreamingLimits) : ℚ := l.maxPendingEvents.getD 64

def StreamingLimits.maxBytes (l : StreamingLimits) : ℚ := l.maxPendingBytes.getD (256 * 1024)

def StreamingLimits.timeout (l : StreamingLimits) : ℚ := l.consumerTimeoutMs.getD 30000

/-- The limits the constructor accepts. -/
def StreamingLimits.valid (l : StreamingLimits) : Prop :=
  ∀ n ∈ [l.maxEvents, l.maxBytes, l.timeout], safeInteger n ∧ 0 < n

instance : DecidablePred StreamingLimits.valid := fun _ => inferInstanceAs (Decidable (∀ n ∈ _, _))

/-- What a coordinator was constructed with. -/
structure StreamingOptions (T : Type*) where
  limits : StreamingLimits
  valid : limits.valid
  size : T → ℚ
  /-- A merge that is left out merges nothing. -/
  merge : T → T → Option T

/-- The checks of the constructor. -/
def StreamingOptions.create {T : Type*} (limits : StreamingLimits) (size : T → ℚ)
    (merge : Option (T → T → Option T)) : Except RuntimeError (StreamingOptions T) :=
  if valid : limits.valid then .ok ⟨limits, valid, size, merge.getD fun _ _ => none⟩
  else .error ⟨"STREAM_INVALID_LIMIT", "Streaming limits must be positive integers"⟩

structure Entry (T : Type*) where
  value : T
  bytes : ℚ

/-- The promise `done`. -/
inductive Done
  | pending | resolved
  | rejected (error : Thrown)
deriving DecidableEq

/-- A promise settles once. -/
def Done.settle (d outcome : Done) : Done := if d = .pending then outcome else d

/-- The fields of a coordinator; `wake` is set while the slot holds a resolver, `reason` once the
signal has been aborted. -/
structure StreamingCoordinator (T : Type*) where
  events : List (Entry T) := []
  pendingEvents : ℚ := 0
  pendingBytes : ℚ := 0
  peakEvents : ℚ := 0
  peakBytes : ℚ := 0
  writing : Bool := false
  ending : Bool := false
  stopped : Bool := false
  error : Option Thrown := none
  wake : Bool := false
  reason : Option Thrown := none
  done : Done := .pending

/-- The write of a pump: its microtask has not run, the writer is at it, or it has settled. -/
inductive Write
  | queued | running
  | settled (failure : Option Thrown)
deriving DecidableEq

/-- A pump that awaits the race of a write and the boundary. -/
structure Pump (T : Type*) where
  entry : Entry T
  write : Write

/-- How a pass of the loop of `enqueue` ends. -/
inductive Admission
  | merged | appended | waits
  | refused (error : Thrown)

section Coordinator

variable {T : Type*} (o : StreamingOptions T) (c : StreamingCoordinator T)

def StreamingCoordinator.fail (error : Thrown) : StreamingCoordinator T :=
  if c.stopped then c
  else { c with
    stopped := true, error := some error, events := [], pendingBytes := 0, pendingEvents := 0
    reason := some error, wake := false, done := c.done.settle (.rejected error) }

def StreamingCoordinator.complete : StreamingCoordinator T :=
  { c with stopped := true, done := c.done.settle .resolved }

/-- The `finally` of `pump`. -/
def StreamingCoordinator.finish : StreamingCoordinator T :=
  let c := { c with writing := false }
  if c.ending ∧ ¬ c.stopped then c.complete else c

/-- `pump` up to its next await, or to its end. -/
def StreamingCoordinator.pump : StreamingCoordinator T × Option (Pump T) :=
  match c.events with
  | [] => (c.finish, none)
  | entry :: rest =>
    if c.stopped then (c.finish, none) else ({ c with events := rest }, some ⟨entry, .queued⟩)

/-- `pump` after the race of an entry was won by a write that resolved. -/
def StreamingCoordinator.delivered (entry : Entry T) : StreamingCoordinator T × Option (Pump T) :=
  if c.stopped then (c.finish, none)
  else StreamingCoordinator.pump { c with
    pendingEvents := c.pendingEvents - 1, pendingBytes := c.pendingBytes - entry.bytes
    wake := false }

/-- What `pump` fails with after its race was rejected. -/
def consumerError : Thrown → Thrown
  | .runtime e => .runtime e
  | .other text => .runtime ⟨"STREAM_CONSUMER_FAILED", text⟩

/-- `pump` after its race was rejected. -/
def StreamingCoordinator.undelivered (cause : Thrown) : StreamingCoordinator T :=
  (c.fail (consumerError cause)).finish

/-- `if (!this.writing) { this.writing = true; void this.pump(); }`. -/
def StreamingCoordinator.start : StreamingCoordinator T × Option (Pump T) :=
  if c.writing then (c, none) else StreamingCoordinator.pump { c with writing := true }

def tooLarge : Thrown :=
  .runtime ⟨"STREAM_EVENT_TOO_LARGE", "Stream event exceeds the pending byte limit"⟩

def concurrentProducer : Thrown :=
  .runtime ⟨"STREAM_CONCURRENT_PRODUCER", "Producer must await stream admission"⟩

def consumerTimeout : Thrown := .runtime ⟨"STREAM_CONSUMER_TIMEOUT", "Stream consumer timed out"⟩

/-- The part of a pass that ends in a wait for the slot. -/
def StreamingCoordinator.await : StreamingCoordinator T × Admission :=
  if c.wake then (c.fail concurrentProducer, .refused concurrentProducer)
  else ({ c with wake := true }, .waits)

/-- The counters after an admission of these further bytes and events. -/
def StreamingCoordinator.count (additionalBytes further : ℚ) : StreamingCoordinator T :=
  { c with
    pendingBytes := c.pendingBytes + additionalBytes, pendingEvents := c.pendingEvents + further
    peakBytes := max c.peakBytes (c.pendingBytes + additionalBytes)
    peakEvents := max c.peakEvents (c.pendingEvents + further) }

/-- The last queued entry and its merge with the value. -/
def StreamingCoordinator.mergeTail (value : T) : Option (Entry T × T) :=
  c.events.getLast?.bind fun tail => (o.merge tail.value value).map fun merged => (tail, merged)

/-- A pass of the loop of `enqueue`, up to the start of the pump. -/
def StreamingCoordinator.pass (value : T) (bytes : ℚ) : StreamingCoordinator T × Admission :=
  if c.stopped then
    (c, .refused (c.error.getD (.runtime ⟨"STREAM_CLOSED", "Stream is closed"⟩)))
  else if c.ending then (c, .refused (.runtime ⟨"STREAM_CLOSED", "Stream is draining"⟩))
  else match c.mergeTail o value with
    | some (tail, merged) =>
      if c.pendingBytes + (o.size merged - tail.bytes) ≤ o.limits.maxBytes then
        ({ c.count (o.size merged - tail.bytes) 0 with
            events := c.events.dropLast ++ [⟨merged, o.size merged⟩] }, .merged)
      else c.await
    | none =>
      if c.pendingBytes + bytes ≤ o.limits.maxBytes ∧ c.pendingEvents < o.limits.maxEvents then
        ({ c.count bytes 1 with events := c.events ++ [⟨value, bytes⟩] }, .appended)
      else c.await

/-- `drain` up to its await. -/
def StreamingCoordinator.drain : StreamingCoordinator T :=
  let c := { c with ending := true }
  if ¬ c.writing ∧ ¬ c.stopped then c.complete else c

end Coordinator

/-- The producer: between calls, with what its last call threw; in `enqueue`, at the slot; in `drain`. -/
inductive Producer (T : Type*)
  | ready (thrown : Option Thrown)
  | waiting (value : T) (bytes : ℚ)
  | drained
deriving DecidableEq

/-- A coordinator with its producer and its pumps, and a record of what passed through: the values
`enqueue` admitted, those the writer was given and those whose write the pump saw resolve.  `groups`
has, for each event of the stream in order, the admitted values it stands for. -/
structure Stream (T : Type*) where
  coordinator : StreamingCoordinator T := {}
  pumps : List (Pump T) := []
  producer : Producer T := .ready none
  admitted : List T := []
  groups : List (List T) := []
  handed : List T := []
  written : List T := []

/-- What may happen next. -/
inductive StreamEvent (T : Type*)
  /-- The producer calls `enqueue`. -/
  | enqueue (value : T)
  /-- The producer goes on after the slot was taken. -/
  | wake
  /-- The producer calls `drain`. -/
  | drain
  /-- The microtask of a pump runs. -/
  | write (pump : ℕ)
  /-- The writer of a pump resolves, or rejects. -/
  | settle (pump : ℕ) (failure : Option Thrown)
  /-- A pump goes on after its write won the race. -/
  | finish (pump : ℕ)
  /-- A pump goes on after the abort won the race. -/
  | abort (pump : ℕ)
  /-- The timer of a pump fires. -/
  | timeout (pump : ℕ)
  /-- The owner of the coordinator fails it. -/
  | fail (error : Thrown)

section Stream

variable {T : Type*} (o : StreamingOptions T) (s : Stream T)

/-- The pump gives way to what it becomes. -/
def Stream.replace (i : ℕ) (after : StreamingCoordinator T × Option (Pump T)) : Stream T :=
  { s with coordinator := after.1, pumps := s.pumps.take i ++ after.2.toList ++ s.pumps.drop (i + 1) }

/-- A pass of `enqueue` with the start of the pump. -/
def Stream.pass (value : T) (bytes : ℚ) : Stream T :=
  let (c, admission) := s.coordinator.pass o value bytes
  let started := { s with
    coordinator := c.start.1, pumps := s.pumps ++ c.start.2.toList, producer := .ready none
    admitted := s.admitted ++ [value] }
  match admission with
  | .merged => { started with groups := absorb value s.groups }
  | .appended => { started with groups := s.groups ++ [[value]] }
  | .waits => { s with coordinator := c, producer := .waiting value bytes }
  | .refused error => { s with coordinator := c, producer := .ready (some error) }

/-- `enqueue` up to its first await, or to its end. -/
def Stream.enqueue (value : T) : Stream T :=
  let bytes := o.size value
  if ¬ safeInteger bytes ∨ bytes < 0 ∨ o.limits.maxBytes < bytes then
    { s with coordinator := s.coordinator.fail tooLarge, producer := .ready (some tooLarge) }
  else s.pass o value bytes

/-- The state after an event, if it may happen. -/
def Stream.after : StreamEvent T → Option (Stream T)
  | .enqueue value =>
    match s.producer with
    | .ready _ => some (s.enqueue o value)
    | _ => none
  | .wake =>
    match s.producer with
    | .waiting value bytes => if s.coordinator.wake then none else some (s.pass o value bytes)
    | _ => none
  | .drain =>
    match s.producer with
    | .ready _ => some { s with coordinator := s.coordinator.drain, producer := .drained }
    | _ => none
  | .write i =>
    match s.pumps[i]? with
    | some ⟨entry, .queued⟩ =>
      match s.coordinator.reason with
      | some reason => some { s with pumps := s.pumps.set i ⟨entry, .settled (some reason)⟩ }
      | none =>
        some { s with pumps := s.pumps.set i ⟨entry, .running⟩, handed := s.handed ++ [entry.value] }
    | _ => none
  | .settle i failure =>
    match s.pumps[i]? with
    | some ⟨entry, .running⟩ => some { s with pumps := s.pumps.set i ⟨entry, .settled failure⟩ }
    | _ => none
  | .finish i =>
    match s.pumps[i]? with
    | some ⟨entry, .settled none⟩ =>
      let written := if s.coordinator.stopped then s.written else s.written ++ [entry.value]
      some { s.replace i (s.coordinator.delivered entry) with written }
    | some ⟨_, .settled (some cause)⟩ =>
      some (s.replace i (s.coordinator.undelivered cause, none))
    | _ => none
  | .abort i =>
    match s.pumps[i]?, s.coordinator.reason with
    | some _, some reason => some (s.replace i (s.coordinator.undelivered reason, none))
    | _, _ => none
  | .timeout i =>
    match s.pumps[i]? with
    | some _ => some { s with coordinator := s.coordinator.fail consumerTimeout }
    | none => none
  | .fail error => some { s with coordinator := s.coordinator.fail error }

/-- One event of a stream. -/
def Stream.Step (s : Stream T) (e : StreamEvent T) (t : Stream T) : Prop := s.after o e = some t

end Stream

end Slide.Runtime
