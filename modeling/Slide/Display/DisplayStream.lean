import Slide.Display.MessageProjection

/-!
# The display stream

`display-stream.ts`: snapshots and deltas of a projection under a transport watermark.  The reader of
the UI keeps the projection and the cursor together (`reduceDisplayStream`); the gateway keeps the
cursor alone (`inspectDisplayWatermark`).

A value is read before either looks at it.  A delta whose frame is of no known shape but names the
run is read as well, like one of another version.
-/

namespace Slide.Display

@[ext]
structure DisplayCursor where
  (streamEpoch runId turnId : String)
  toSeq : Int

structure DisplayWatermark extends DisplayCursor where
  version : Nat
  subscriptionId : String
  fromSeq : Int

structure DisplayRecovery where
  truncated : Bool
  cold : Option Bool
  omittedParts : Nat
  detailRef : Json

inductive DisplayEventType
  | snapshot | delta
deriving DecidableEq

/-- `DisplayStreamEvent`; a value of no such shape is none. -/
structure DisplayStreamEvent where
  type : DisplayEventType
  sessionKey : String
  stream : DisplayWatermark
  snapshot : Option MessageProjection := none
  projection : Option ProjectionFrame := none
  recovery : Option DisplayRecovery := none

structure DisplayStreamState where
  subscriptionId : String
  cursor : Option DisplayCursor := none
  projection : Option MessageProjection := none
  recovering : Bool
  recovery : Option DisplayRecovery := none

inductive DisplayResult
  | applied | ignored | recover
deriving DecidableEq

/-- A watermark of the shape both sides rely on. -/
def DisplayWatermark.valid (w : DisplayWatermark) : Prop :=
  w.version = 1 ∧ identity w.streamEpoch ∧ identity w.runId ∧ identity w.turnId ∧
    identity w.subscriptionId ∧ ordinal w.fromSeq ∧ ordinal w.toSeq ∧ w.fromSeq ≤ w.toSeq

instance : DecidablePred DisplayWatermark.valid := fun _ =>
  inferInstanceAs (Decidable (_ ∧ _ ∧ _ ∧ _ ∧ _ ∧ _ ∧ _ ∧ _))

/-- `readDisplayStreamEvent` returns the event. -/
def DisplayStreamEvent.valid (e : DisplayStreamEvent) : Prop :=
  identity e.sessionKey ∧ e.stream.valid ∧
    match e.type with
    | .delta => (∃ frame ∈ e.projection, frame.runId = e.stream.runId) ∧ e.stream.fromSeq ≠ 0
    | .snapshot => (∃ state ∈ e.snapshot, state.valid ∧ state.runId = e.stream.runId) ∧
        e.stream.fromSeq = e.stream.toSeq

instance : DecidablePred DisplayStreamEvent.valid := fun e => by
  unfold DisplayStreamEvent.valid
  cases e.type <;> infer_instance

def readDisplayStreamEvent (value : Option DisplayStreamEvent) : Option DisplayStreamEvent :=
  value.filter fun e => e.valid

/-- The cursor is in the epoch, run and turn of the watermark. -/
def sameStream (prior : Option DisplayCursor) (w : DisplayWatermark) : Prop :=
  ∃ c ∈ prior, c.streamEpoch = w.streamEpoch ∧ c.runId = w.runId ∧ c.turnId = w.turnId

instance (prior : Option DisplayCursor) (w : DisplayWatermark) : Decidable (sameStream prior w) :=
  inferInstanceAs (Decidable (∃ c ∈ prior, _))

/-- `inspectDisplayWatermark`, which does not look at the projection of the state. -/
def inspectDisplayWatermark (state : DisplayStreamState) (e : DisplayStreamEvent) :
    DisplayResult :=
  let w := e.stream
  let same := sameStream state.cursor w
  let position := (state.cursor.map (·.toSeq)).getD 0
  if w.subscriptionId ≠ state.subscriptionId then .ignored
  else if e.type = .delta ∧ ¬ ∃ frame ∈ e.projection, validProjectionFrame frame w.runId then .recover
  else if e.type = .snapshot then
    if state.cursor ≠ none ∧ ¬ same ∧ ¬ state.recovering then .recover
    else if same ∧ w.toSeq < position then .ignored
    else .applied
  else if same ∧ w.toSeq ≤ position then .ignored
  else if ¬ same ∨ state.recovering ∨ w.fromSeq ≠ position + 1 then .recover
  else .applied

/-- The record of the gateway after a result. -/
def watermarkAfter (state : DisplayStreamState) (e : DisplayStreamEvent) :
    DisplayResult → DisplayStreamState
  | .applied => { state with cursor := some e.stream.toDisplayCursor, recovering := false }
  | .recover => { state with recovering := true }
  | .ignored => state

section Reader

variable (host : Host)

/-- The last part of `reduceDisplayStream`, for a delta that is next in line. -/
def reduceDelta (state : DisplayStreamState) (projection : MessageProjection)
    (e : DisplayStreamEvent) : DisplayStreamState × DisplayResult :=
  match acceptFrame host projection e.projection with
  | none =>
    if projection.terminal ≠ none then (state, .ignored)
    else ({ state with recovering := true }, .recover)
  | some next =>
    ({ state with
        cursor := some e.stream.toDisplayCursor, projection := some next, recovering := false },
      .applied)

/-- `reduceDisplayStream` on an event that was read. -/
def reduceEvent (state : DisplayStreamState) (e : DisplayStreamEvent) :
    DisplayStreamState × DisplayResult :=
  let w := e.stream
  let same := sameStream state.cursor w
  let position := (state.cursor.map (·.toSeq)).getD 0
  if w.subscriptionId ≠ state.subscriptionId then (state, .ignored)
  else if e.type = .snapshot then
    if state.cursor ≠ none ∧ ¬ same ∧ ¬ state.recovering then
      ({ state with recovering := true }, .recover)
    else if same ∧ w.toSeq < position then (state, .ignored)
    else
      ({ subscriptionId := state.subscriptionId, cursor := some w.toDisplayCursor
         projection := e.snapshot, recovering := false, recovery := e.recovery }, .applied)
  else if same ∧ w.toSeq ≤ position then (state, .ignored)
  else match state.projection with
    | none => ({ state with recovering := true }, .recover)
    | some projection =>
      if ¬ same ∨ state.recovering ∨ w.fromSeq ≠ position + 1 then
        ({ state with recovering := true }, .recover)
      else reduceDelta host state projection e

def reduceDisplayStream (state : DisplayStreamState) (value : Option DisplayStreamEvent) :
    DisplayStreamState × DisplayResult :=
  match readDisplayStreamEvent value with
  | none => (state, .ignored)
  | some e => reduceEvent host state e

end Reader

end Slide.Display
