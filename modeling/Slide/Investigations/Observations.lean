import Slide.Investigations.Contracts
import Slide.Library.Table

/-!
# The observation log

`observation-db.ts` and the reads and the pruning of `InvestigationStreamStore`, for the rows of one
investigation: its head, its events and its source checkpoints.  Every statement names the
investigation and its head row is locked first, so a call is one step; a call that throws is rolled
back with its transaction.

`evidenceHash` prints a value as canonical JSON and hashes the text.  Both halves stay open.
-/

namespace Slide.Investigations

/-- What `evidenceHash` is applied to. -/
inductive Evidence
  | input (value : EventInput)
  | identity (value : InvestigationStreamEvent)

structure Digest where
  /-- `stableJson(JSON.parse(JSON.stringify(value)))`. -/
  canonical : Evidence → String
  /-- `createHash('sha256').update(text).digest('hex')`. -/
  sha256 : String → String

def Digest.evidenceHash (digest : Digest) (value : Evidence) : String :=
  digest.sha256 (digest.canonical value)

inductive ObservationError
  | inputInvalid | payloadMismatch
  /-- The insert meets a row under its primary or its unique key. -/
  | duplicateEntry

/-- A row of `investigation_stream_heads`. -/
structure StreamHead where
  sequence : Nat := 0
  retainedAfter : Nat := 0

/-- A row of `investigation_stream_events`. -/
structure StreamRow where
  sequence : Nat
  sourceKey : String
  event : InvestigationStreamEvent
  occurredAt : Int

/-- The events stand in the order of their primary key; `sources` is
`investigation_observed_sources`. -/
structure ObservationLog where
  head : Option StreamHead
  events : List StreamRow
  sources : Table String String

namespace ObservationLog

def empty : ObservationLog := ⟨none, [], .empty⟩

/-- `Number(head?.sequence ?? 0)`. -/
def watermark (log : ObservationLog) : Nat := (log.head.getD {}).sequence

/-- `Number(head?.retained_after ?? 0)`. -/
def retainedAfter (log : ObservationLog) : Nat := (log.head.getD {}).retainedAfter

def insertEvent (row : StreamRow) (log : ObservationLog) : Except ObservationError ObservationLog :=
  if ∃ other ∈ log.events, other.sequence = row.sequence ∨ other.sourceKey = row.sourceKey then
    .error .duplicateEntry
  else .ok { log with events := log.events.orderedInsert (·.sequence ≤ ·.sequence) row }

end ObservationLog

/-- `{ ...event.payload, sequence }`, for a frame. -/
def StreamContent.withSequence (sequence : Int) : StreamContent → StreamContent
  | .partsOperation runId requestId payload =>
    .partsOperation runId requestId { payload with sequence }
  | content => content

def observationIdentity (event : InvestigationStreamEvent) : InvestigationStreamEvent :=
  { event with sequence := 0, content := event.content.withSequence 0 }

/-- The event of an input in an investigation. -/
def EventInput.envelope (input : EventInput) (id : String) (sequence : Int) :
    InvestigationStreamEvent :=
  { input with schemaVersion := 1, investigationId := id, sequence }

/-- The event as the store numbers it. -/
def EventInput.numbered (input : EventInput) (id : String) (sequence : Nat) :
    InvestigationStreamEvent :=
  { input.envelope id sequence with content := input.content.withSequence sequence }

section Store

variable (digest : Digest) (id : String)

def appendObservation (source : String) (input : EventInput) (log : ObservationLog) :
    Except ObservationError (Nat × ObservationLog) := do
  if 255 < source.utf8ByteSize then throw .inputInvalid
  let head := log.head.getD {}
  let log := { log with head := some head }
  match log.events.find? fun row => row.sourceKey = source with
  | some existing =>
    if digest.evidenceHash (.identity (observationIdentity existing.event)) ≠
        digest.evidenceHash (.identity (observationIdentity (input.envelope id 0))) then
      throw .payloadMismatch
    pure (existing.sequence, log)
  | none =>
    let sequence := head.sequence + 1
    let event := input.numbered id sequence
    if ¬ (sequence ≤ maxSafe ∧ validateInvestigationStreamEvent event) then throw .inputInvalid
    let log ← log.insertEvent ⟨sequence, source, event, event.occurredAt.instant.getD 0⟩
    pure (sequence, { log with head := some { head with sequence } })

/-- The key under which a capture appends. -/
def captureKey (source : String) (input : EventInput) : String :=
  source ++ ":" ++ digest.evidenceHash (.input input)

def captureObservation (source : String) (input : EventInput) (log : ObservationLog) :
    Except ObservationError ObservationLog := do
  let payloadHash := digest.evidenceHash (.input input)
  if log.sources.get source = some payloadHash then return log
  let (_, log) ← appendObservation digest id (captureKey digest source input) input log
  return { log with sources := log.sources.put source payloadHash }

end Store

/-- The loop of `prune`: the sequence of the last row of the expired prefix. -/
def expiredPrefix (before : Int) (floor : Nat) : List StreamRow → Nat
  | [] => floor
  | row :: rest =>
    if before ≤ row.occurredAt then floor else expiredPrefix before row.sequence rest

/-- 90 days. -/
def retentionMs : Int := 90 * 86400000

/-- `prune`; `before` is `Date.parse` of its argument, and `now` is `Date.now()`. -/
def prune (now : Int) (before : Option Int) (log : ObservationLog) :
    Except ObservationError ObservationLog :=
  match before with
  | none => .error .inputInvalid
  | some before =>
    if now - retentionMs < before then .error .inputInvalid
    else
      let floor := expiredPrefix before 0 log.events
      if floor = 0 then .ok log
      else .ok { log with
        events := log.events.filter fun row => floor < row.sequence
        head := log.head.map fun head =>
          { head with retainedAfter := max head.retainedAfter floor } }

structure InvestigationReplay where
  events : List InvestigationStreamEvent
  nextCursor : Int
  (hasMore replayRequired : Bool)
  watermark : Nat

/-- `replay`, after its capture. -/
def replay (after limit : Nat) (log : ObservationLog) :
    Except ObservationError InvestigationReplay :=
  if ¬ (after ≤ maxSafe ∧ 1 ≤ limit ∧ limit ≤ 200) then .error .inputInvalid
  else if after < log.retainedAfter ∨ log.watermark < after then
    .ok ⟨[], after, false, true, log.watermark⟩
  else
    let rows := (log.events.filter fun row => after < row.sequence).take (limit + 1)
    let events := (rows.take limit).map StreamRow.event
    .ok ⟨events, (events.getLast?.map fun event => event.sequence).getD after, limit < rows.length,
      false, log.watermark⟩

end Slide.Investigations
