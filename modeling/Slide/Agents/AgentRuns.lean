import Slide.Display.MessageProjection
import Slide.Library.Table
import Slide.Library.Transaction

/-!
# Runs of the agent

`AgentRunService` stages the answer of a run in its row before one transaction stores the message of the
assistant and ends the run, so that any process can take that transaction up again.  Cancelling, finishing
and failing are single statements beside it.  A row is keyed by the id that its claim drew, and the message
of a run, `run_<id>_assistant`, by the run.
-/

namespace Slide.Agents

open Display Transaction

inductive AgentRunState
  | running
  | completed
  | partly
  | failed
  | cancelled
  | timedOut
deriving DecidableEq

inductive ResolutionKind
  | responseReady
  | partly
  | cancelled
  | timedOut
  | failed
deriving DecidableEq

structure RuntimeResolution where
  kind : ResolutionKind
  reasonCode : String
  retryable : Bool
  safePartialContent : Option String

structure CompleteEvent where
  type : String
  stopReason : Option String
  resolution : Option RuntimeResolution
  (finalContent thinkingContent : Option String)
  messageParts : Option MessageParts
  messageSequence : Option Nat
  projection : Option ProjectionFrame

/-- A `result_json`, as far as it is read. -/
structure RunResult where
  completionPending : Bool := false
  event : Option CompleteEvent := none
  stopReason : Option String := none
  resolution : Option RuntimeResolution := none

/-- A row of `agent_runs`, without its times. -/
structure AgentRunRow where
  actorId : Int
  (sessionId messageId idempotencyKey : String)
  state : AgentRunState
  result : Option RunResult
  error : Option Json

/-- `map` of a row. -/
structure AgentRun extends AgentRunRow where
  id : Nat

/-- The row of `chat_messages` of an assistant. -/
structure MessageRow where
  (sessionId content : String)
  messageParts : MessageParts
  sequence : Nat

/-- A row of `investigation_requests`, as far as runs are bound to it. -/
structure InvestigationRequest where
  id : String
  actorId : Int
  messageId : String

/-- The tables, with the user of each session. -/
structure RunStore where
  runs : Table Nat AgentRunRow
  messages : Table Nat MessageRow
  nextSequence : Nat
  sessions : Table String Int
  requests : List InvestigationRequest

/-- The functions of the message documents that a completion calls; either may throw. -/
structure MessageHost where
  persistedMessageParts : Nat → String → Option String → Option MessageParts → Option MessageParts
  projectionDocuments : List MessageParts → Option (List MessageParts)

variable (host : MessageHost) (store : RunStore)

/-- `ordinaryRun`, and `assertOrdinaryRun` does not throw. -/
def RunStore.ordinary (row : AgentRunRow) : Prop :=
  ∀ request ∈ store.requests, ¬ (row.idempotencyKey = "investigation:" ++ request.id ∧
    row.actorId = request.actorId ∧ row.messageId = request.messageId)

instance (store : RunStore) : DecidablePred store.ordinary :=
  fun _ => inferInstanceAs (Decidable (∀ _ ∈ _, ¬ _))

variable (w : RunWorld) (id : Nat) (i : Nat) (run : AgentRun) (event : CompleteEvent)
variable (actorId : Int)

def RunStore.getForActor (sessionId : String) :
    Option AgentRun :=
  match store.runs.get id with
  | some row => if row.actorId = actorId ∧ row.sessionId = sessionId then some { row with id } else none
  | none => none

/-- `UPDATE agent_runs … WHERE id = ? AND …`. -/
def RunStore.updateRun (guard : AgentRunRow → Bool)
    (set : AgentRunRow → AgentRunRow) : RunStore :=
  { store with runs := (store.runs.updateWhere id guard set).1 }

/-! ## Claiming -/

/-- The row of an actor and a key. -/
def RunStore.byKey (idempotencyKey : String) :
    Option (Nat × AgentRunRow) :=
  store.runs.entries.find? fun entry =>
    entry.2.actorId = actorId ∧ entry.2.idempotencyKey = idempotencyKey

/-- The statement that `claim` inserts with. -/
def RunStore.insertRun (sessionId messageId idempotencyKey : String) : RunStore :=
  if (store.byKey actorId idempotencyKey).isSome then store
  else { store with
    runs := store.runs.insertNew id
      ⟨actorId, sessionId, messageId, idempotencyKey, .running, none, none⟩ }

/-! ## Completing -/

def assertCompletion : Prop :=
  event.type = "complete" ∧ (∀ reason ∈ event.stopReason, reason = "completed") ∧
    ∀ resolution ∈ event.resolution, resolution.kind = .responseReady

instance : DecidablePred assertCompletion :=
  fun _ => inferInstanceAs (Decidable (_ ∧ (∀ _ ∈ _, _) ∧ ∀ _ ∈ _, _))

/-- `{ code, retryable: true }`. -/
def retryable (code : String) : Json :=
  .object [("code", .string code), ("retryable", .bool true)]

/-- The statement that stages a completion. -/
def stageCompletion : RunStore :=
  store.updateRun run.id
    (fun row => row.actorId = run.actorId ∧ row.sessionId = run.sessionId ∧ row.state = .running ∧
      row.result.isNone ∧ store.ordinary row)
    fun row => { row with
      result := some ⟨true, some event, some "completed", none⟩
      error := some (retryable "COMPLETION_PENDING") }

/-- There is a text to show. -/
def CompleteEvent.hasContent : Prop :=
  event.finalContent.getD "" ≠ "" ∨ event.thinkingContent.getD "" ≠ ""

instance : DecidablePred CompleteEvent.hasContent := fun _ => inferInstanceAs (Decidable (_ ∨ _))

/-- The text of the message of an event. -/
def CompleteEvent.content : String :=
  if event.thinkingContent.getD "" ≠ "" then
    "<think>" ++ event.thinkingContent.getD "" ++ "</think>\n\n" ++ event.finalContent.getD ""
  else event.finalContent.getD ""

/-- `INSERT … ON DUPLICATE KEY UPDATE message_id = message_id`, and the row that is read back. -/
def storeMessage (content : String) (messageParts : MessageParts) :
    Option MessageRow × RunStore :=
  let messages := store.messages.insertNew run.id
    ⟨run.sessionId, content, messageParts, store.nextSequence⟩
  ((messages.get run.id).filter fun message => message.sessionId = run.sessionId,
    { store with messages, nextSequence := store.nextSequence + 1 })

/-- The message of a completion that has one. -/
def storeAnswer :
    Except String (CompleteEvent × RunStore) :=
  if event.hasContent then
    let content := event.content
    let thinking := event.thinkingContent.filter (· ≠ "")
    match host.persistedMessageParts run.id content thinking event.messageParts with
    | none => .error "INVALID_MESSAGE_PARTS"
    | some acknowledged =>
      let acknowledged := { acknowledged with runTerminal := some .completed }
      match storeMessage store run content acknowledged with
      | (some message, store) =>
        if message.content ≠ content then .error "Completion message conflict"
        else .ok ({ event with
          messageParts := some acknowledged
          messageSequence := some message.sequence }, store)
      | (none, _) => .error "Completion message conflict"
  else .ok (event, store)

/-- `durable`. -/
def answerReference : Durable := ⟨.mysql, "run_" ++ toString id ++ "_assistant"⟩

/-- What a frame says of the documents that are stored. -/
def CompleteEvent.persisted :
    Option (List ProjectionOperation) :=
  match event.messageParts with
  | some messageParts =>
    (host.projectionDocuments [messageParts]).map fun documents => [.partsPersisted documents]
  | none => some []

/-- The frame of an event ends its run, once the documents are stored. -/
def CompleteEvent.withTerminal :
    Option CompleteEvent :=
  match event.projection with
  | some frame =>
    (event.persisted host).map fun persisted => { event with
      projection := some { frame with
        operations := frame.operations ++ persisted ++
          [.runTerminal .completed (some (answerReference id)) none] } }
  | none => some event

/-- The event with what is stored of it, and its message. -/
def acknowledge :
    Except String (CompleteEvent × RunStore) :=
  match storeAnswer host store run event with
  | .error message => .error message
  | .ok (event, store) =>
    match event.withTerminal host run.id with
    | some event => .ok (event, store)
    | none => .error "INVALID_MESSAGE_PARTS"

/-- The last statement of a completion. -/
def setCompleted (current : AgentRun) (event : CompleteEvent) :
    Except String (AgentRun × RunStore) :=
  let committed : RunResult := { stopReason := some "completed", event := some event }
  let (runs, affectedRows) := store.runs.updateWhere current.id (fun row => row.state = .running)
    fun row => { row with state := .completed, result := some committed, error := none }
  if affectedRows ≠ 1 then .error "Completion state conflict"
  else .ok ({ current with state := .completed, result := some committed, error := none },
    { store with runs })

/-- The transaction of `recoverCompletion`. -/
def commitCompletion : Body RunStore String AgentRun := fun store =>
  match store.getForActor run.id run.actorId run.sessionId with
  | none => .error "Agent run not found"
  | some current =>
    if ¬ store.ordinary current.toAgentRunRow then .error "INVESTIGATION_EXECUTION_REQUIRED"
    else if current.state ≠ .running ∨ ¬ current.result.any RunResult.completionPending then
      .ok (current, store)
    else if store.sessions.get run.sessionId ≠ some run.actorId then .error "Chat session not found"
    else match current.result.bind RunResult.event with
      | none => .error "TypeError"
      | some event =>
        if ¬ assertCompletion event then .error "INVALID_RUNTIME_COMPLETION"
        else match acknowledge host store run event with
          | .error message => .error message
          | .ok (event, store) => setCompleted store current event

/-! ## Ending a run otherwise -/

def failUnstagedCompletion : RunStore :=
  store.updateRun id (fun row => row.state = .running ∧ row.result.isNone ∧ store.ordinary row)
    fun row => { row with
      state := .failed
      error := some (retryable "COMPLETION_STORAGE_FAILED") }

def finish (state : { s : AgentRunState // s ≠ .running })
    (result : Option RunResult) (error : Option Json) : RunStore :=
  -- Durable success is left to `complete`.
  if state.1 = .completed then store
  else store.updateRun id
    (fun row => row.state = .running ∧ store.ordinary row ∧
      ¬ row.result.any RunResult.completionPending)
    fun row => { row with state := state.1, result, error }

def cancelForActor (sessionId : String) : RunStore :=
  store.updateRun id
    (fun row => row.actorId = actorId ∧ row.sessionId = sessionId ∧ row.state = .running ∧
      store.ordinary row)
    fun row => { row with
      state := .cancelled
      result := none
      error := some (.object [("reasonCode", .string "CANCELLED_BY_ACTOR")]) }

/-! ## Processes side by side -/

/-- Where a `claim` stands. -/
inductive ClaimPhase
  | called
  | inserted
  | answered (run : AgentRun) (created : Bool)
  | thrown

structure ClaimCall where
  actorId : Int
  (sessionId messageId idempotencyKey : String)
  phase : ClaimPhase

/-- Where a `complete` or a `recoverCompletion` stands; the latter starts with the run it was given. -/
inductive CompletionPhase
  | called (event : CompleteEvent)
  | checked (event : CompleteEvent)
  | staged
  | recovering (current : AgentRun)
  | committing (current : AgentRun)
  | answered (run : AgentRun)
  | thrown

structure CompletionCall where
  run : AgentRun
  phase : CompletionPhase

/-- The tables and the calls of all processes; the id of a claim is its place. -/
structure RunWorld where
  store : RunStore
  claims : List ClaimCall
  completions : List CompletionCall

/-- Sessions and requests are there, runs and answers are not. -/
def RunWorld.start (sessions : Table String Int) (requests : List InvestigationRequest) : RunWorld :=
  ⟨⟨.empty, .empty, 1, sessions, requests⟩, [], []⟩

/-- A call, or the next statement of one, or what happens beside them. -/
inductive RunEvent
  | claim (actorId : Int) (sessionId messageId idempotencyKey : String)
  | claimStep (claim : Nat) (commit : Commit)
  | complete (run : AgentRun) (event : CompleteEvent)
  | recover (run : AgentRun)
  | completionStep (completion : Nat) (commit : Commit)
  | failUnstaged (id : Nat)
  | finish (id : Nat) (state : { s : AgentRunState // s ≠ .running }) (result : Option RunResult)
      (error : Option Json)
  | cancel (id : Nat) (actorId : Int) (sessionId : String)
  | session (sessionId : String) (userId : Int)
  | request (request : InvestigationRequest)

def RunWorld.claiming (call : ClaimCall) (phase : ClaimPhase) : RunWorld :=
  { w with claims := w.claims.set i { call with phase } }

def RunWorld.completing (call : CompletionCall) (phase : CompletionPhase) :
    RunWorld :=
  { w with completions := w.completions.set i { call with phase } }

/-- The next statement of a `claim`. -/
def RunWorld.claimStep (call : ClaimCall) (commit : Commit) : RunWorld :=
  match call.phase with
  | .called =>
    if commit = .refused then w.claiming i call .thrown
    else { w.claiming i call (if commit = .done then .inserted else .thrown) with
      store := w.store.insertRun i call.actorId call.sessionId call.messageId call.idempotencyKey }
  | .inserted =>
    match w.store.byKey call.actorId call.idempotencyKey with
    | some (id, row) => w.claiming i call (.answered { row with id } (id = i))
    | none => w.claiming i call .thrown
  | _ => w

/-- The next statement of a `complete` or a `recoverCompletion`, or its transaction. -/
def RunWorld.completionStep (call : CompletionCall)
    (commit : Commit) : RunWorld :=
  match call.phase with
  | .called event =>
    if w.store.ordinary call.run.toAgentRunRow ∧ assertCompletion event then
      w.completing i call (.checked event)
    else w.completing i call .thrown
  | .checked event =>
    if commit = .refused then w.completing i call .thrown
    else { w.completing i call (if commit = .done then .staged else .thrown) with
      store := stageCompletion w.store call.run event }
  | .staged =>
    match w.store.getForActor call.run.id call.run.actorId call.run.sessionId with
    | some current => w.completing i call (.recovering current)
    | none => w.completing i call .thrown
  | .recovering current =>
    if ¬ w.store.ordinary current.toAgentRunRow then w.completing i call .thrown
    else if current.state ≠ .running ∨ ¬ current.result.any RunResult.completionPending then
      w.completing i call (.answered current)
    else w.completing i call (.committing current)
  | .committing current =>
    let (answer, store) := perform (commitCompletion host current) commit w.store
    match answer with
    | some run => { w.completing i call (.answered run) with store }
    | none => { w.completing i call .thrown with store }
  | _ => w

def RunWorld.step : RunEvent → RunWorld
  | .claim actorId sessionId messageId idempotencyKey =>
    { w with claims := w.claims ++ [⟨actorId, sessionId, messageId, idempotencyKey, .called⟩] }
  | .claimStep i commit =>
    match w.claims[i]? with
    | some call => w.claimStep i call commit
    | none => w
  | .complete run event => { w with completions := w.completions ++ [⟨run, .called event⟩] }
  | .recover run => { w with completions := w.completions ++ [⟨run, .recovering run⟩] }
  | .completionStep i commit =>
    match w.completions[i]? with
    | some call => w.completionStep host i call commit
    | none => w
  | .failUnstaged id => { w with store := failUnstagedCompletion w.store id }
  | .finish id state result error => { w with store := finish w.store id state result error }
  | .cancel id actorId sessionId => { w with store := cancelForActor w.store id actorId sessionId }
  | .session sessionId userId =>
    { w with store := { w.store with sessions := w.store.sessions.put sessionId userId } }
  | .request request => { w with store := { w.store with requests := w.store.requests ++ [request] } }

def runAgents (events : List RunEvent) : RunWorld :=
  events.foldl (RunWorld.step host) w

end Slide.Agents
