import Slide.Investigations.Contracts
import Slide.Library.Delivery
import Slide.Library.Table

/-!
# The investigation projection

`reduceInvestigationEvents` of `investigations/stream.ts`.  The reducer works on a copy of the state it
is given, so a caller whose batch is refused still has the state it had.

`runs` is an object used as a map: a run id is not the name of a member every object inherits.
-/

namespace Slide.Investigations

open Display

structure InvestigationProjection where
  investigationId : String
  sequence : ℤ
  runs : Table String MessageProjection
  documents : List MessageParts
  evidenceIds : List String
  results : List ResultReference
  metadata : Option InvestigationMetadata := none

def emptyInvestigationProjection (id : String) : InvestigationProjection where
  investigationId := id
  sequence := 0
  runs := .empty
  documents := []
  evidenceIds := []
  results := []

/-- Put a document in the place of the first one of its id, or at the end. -/
def upsertDocument (documents : List MessageParts) (doc : MessageParts) : List MessageParts :=
  match documents.findIdx? fun d => d.id = doc.id with
  | some index => documents.set index doc
  | none => documents ++ [doc]

/-- The documents after an operation. -/
def storeDocuments (documents : List MessageParts) : ProjectionOperation → List MessageParts
  | .partsPersisted persisted => persisted.foldl upsertDocument documents
  | _ => documents

/-- The operation as the projection of the run sees it. -/
def shownOperation : ProjectionOperation → ProjectionOperation
  | .partsPersisted persisted =>
    .partsPersisted (persisted.filter fun d => d.role ≠ .user ∧ d.role ≠ .system)
  | op => op

/-- The projection of a run after `run.terminal`. -/
def endRun (runId : String) (payload : TerminalRun) (state : MessageProjection) :
    MessageProjection :=
  { state with
    runState := some (.ended payload.state)
    terminal := some payload.state
    durable := some ⟨.mysql, runId⟩ }

section Reducer

variable (host : Host)

/-- `next.runs[runId] ?? createMessageProjection(runId)`. -/
def InvestigationProjection.run (next : InvestigationProjection) (runId : String) :
    Except String MessageProjection :=
  match next.runs.get runId with
  | some state => .ok state
  | none => createMessageProjection runId

/-- What an event adds to the projection, without its number. -/
def InvestigationProjection.take (next : InvestigationProjection) :
    StreamContent → Except String InvestigationProjection
  | .partsOperation runId _ payload => do
    let state ← next.run runId
    let frame := { payload with operations := payload.operations.map shownOperation }
    return { next with
      documents := payload.operations.foldl storeDocuments next.documents
      runs := next.runs.put runId (reduceMessageProjection host state (some frame)) }
  | .evidenceAdded _ _ evidenceId => .ok
    { next with
      evidenceIds :=
        if evidenceId ∈ next.evidenceIds then next.evidenceIds else next.evidenceIds ++ [evidenceId] }
  | .resultPersisted _ _ payload => .ok
    { next with
      results :=
        if ∃ r ∈ next.results, r.resultId = payload.resultId then next.results
        else next.results ++ [payload] }
  | .investigationChanged _ _ payload => .ok { next with metadata := some payload }
  | .runTerminal runId _ payload => do
    let state ← next.run runId
    return { next with runs := next.runs.put runId (endRun runId payload state) }
  | .requestAccepted .. | .runStarted .. => .ok next

/-- One round of the loop over a sorted batch. -/
def reduceEvent (id : String) (next : InvestigationProjection) (event : InvestigationStreamEvent) :
    Except String InvestigationProjection :=
  if event.investigationId ≠ id ∨ ¬ validateInvestigationStreamEvent event then
    .error "INVALID_INVESTIGATION_EVENT"
  else if event.sequence ≤ next.sequence then .ok next
  else if event.sequence ≠ next.sequence + 1 then .error "REPLAY_REQUIRED"
  else do
    let next ← next.take host event.content
    return { next with sequence := event.sequence }

def reduceInvestigationEvents (state : InvestigationProjection)
    (batch : List InvestigationStreamEvent) : Except String InvestigationProjection :=
  (batch.insertionSort fun a b => a.sequence ≤ b.sequence).foldlM
    (reduceEvent host state.investigationId) state

end Reducer

end Slide.Investigations
