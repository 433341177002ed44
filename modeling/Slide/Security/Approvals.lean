import Slide.Library.JsString
import Slide.Library.Table
import Slide.Library.Transaction

/-!
# Approvals of tool calls

`AgentToolApprovalService` keeps what was asked for and what a reviewer has granted;
`AgentToolApprovalExecution` takes a use of a grant and records the intent to execute in one transaction,
and hands out a receipt that can give the use back.  A grant for one call is spent by its status, a
reusable one by its counter.  Times of the database are whole seconds, times of a process milliseconds.
-/

namespace Slide.Security

open Transaction

inductive ApprovalStatus
  | pending
  | approved
  | rejected
  | consumed
  | expired
deriving DecidableEq

/-- `ExecuteCodeApprovalScope`. -/
inductive ApprovalScope
  | none
  | once
  | window
  | session
deriving DecidableEq

inductive RiskLevel
  | low
  | medium
  | high
deriving DecidableEq

/-- `riskRank`. -/
def RiskLevel.rank : RiskLevel → Nat
  | .low => 1
  | .medium => 2
  | .high => 3

def actionApprovalTool : String := "operations_action_plan"

/-- A row of `agent_tool_approvals`, without the columns that only its readers see. -/
structure ApprovalRow where
  toolName : String
  requesterId : Int
  bindingHash : String
  status : ApprovalStatus
  scope : ApprovalScope
  sessionKey : Option String
  riskLevel : RiskLevel
  (maxUses usedCount : Nat)
  expiresAt : Int
  (reviewerId reviewedAt : Option Int)

inductive IntentState
  | dispatching
  | released
  | finished
deriving DecidableEq

structure ApprovalConsumeOptions where
  sessionKey : Option String
  riskLevel : Option RiskLevel

/-- A row of `agent_tool_execution_intents`; its id is its place.  Beside it stands what it was granted
for, and when. -/
structure IntentRow where
  approvalId : Nat
  requestId : String
  state : IntentState
  requesterId : Int
  bindingHash : String
  options : Option ApprovalConsumeOptions
  createdAt : Int

structure ApprovalStore where
  approvals : Table Nat ApprovalRow
  intents : List IntentRow
  nextId : Nat

/-! ## Submitting -/

def normalizeApprovalScope (requestedScope : Option ApprovalScope) (riskLevel : RiskLevel)
    (sessionKey : Option String) : ApprovalScope :=
  match riskLevel, requestedScope, sessionKey with
  | .medium, some .window, some key => if key ≠ "" then .window else .once
  | .medium, some .session, some key => if key ≠ "" then .session else .once
  | _, _, _ => .once

structure ApprovalRequestOptions where
  expiresInMs : Option Int
  scope : Option ApprovalScope
  sessionKey : Option String
  riskLevel : Option RiskLevel
  maxUses : Option Int

/-- The values of a `submit`; its binding hash comes from `buildApprovalBinding`. -/
structure ApprovalRequest where
  toolName : String
  requesterId : Int
  bindingHash : String
  options : ApprovalRequestOptions

variable (request : ApprovalRequest)

def ApprovalRequest.riskLevel : RiskLevel :=
  request.options.riskLevel.getD .high

def ApprovalRequest.scope : ApprovalScope :=
  normalizeApprovalScope request.options.scope request.riskLevel request.options.sessionKey

def ApprovalRequest.maxUses : Nat :=
  (min (max (request.options.maxUses.getD (if request.scope = .once then 1 else 100)) 1) 1000).toNat

def ApprovalRequest.expiresAt (now : Int) : Int :=
  let defaultExpiry := if request.scope = .window then 5 * 60000 else 30 * 60000
  let expiresInMs := request.options.expiresInMs.getD defaultExpiry
  (now + min (max expiresInMs 60000) (24 * 60 * 60000)) / 1000

/-- The row that `submit` inserts. -/
def ApprovalRequest.row (now : Int) : ApprovalRow :=
  ⟨request.toolName, request.requesterId, request.bindingHash, .pending, request.scope,
    request.options.sessionKey, request.riskLevel, request.maxUses, 0, request.expiresAt now, none, none⟩

/-- What names the lock of a `submit`. -/
structure ApprovalLock where
  requesterId : Int
  (toolName bindingHash : String)
  scope : ApprovalScope
  sessionKey : Option String
  riskLevel : RiskLevel
  maxUses : Nat
deriving DecidableEq

def ApprovalRequest.lock : ApprovalLock :=
  ⟨request.requesterId, request.toolName, request.bindingHash, request.scope,
    request.options.sessionKey, request.riskLevel, request.maxUses⟩

variable (approvals : Table Nat ApprovalRow) (row : ApprovalRow)

/-- The row is the same request, and is still to be reviewed. -/
def ApprovalRow.pendingFor (lock : ApprovalLock) (databaseNow : Int) : Bool :=
  (⟨row.requesterId, row.toolName, row.bindingHash, row.scope, row.sessionKey, row.riskLevel,
    row.maxUses⟩ : ApprovalLock) = lock ∧ row.status = .pending ∧ databaseNow < row.expiresAt

/-! ## Reviewing -/

inductive ReviewAction
  | approve
  | reject

variable (databaseNow : Int)

/-- `status = 'pending' AND expires_at > NOW() AND tool_name <> 'operations_action_plan'`. -/
def ApprovalRow.reviewable : Bool :=
  row.status = .pending ∧ databaseNow < row.expiresAt ∧ row.toolName ≠ actionApprovalTool

/-- The columns that a review sets. -/
def ApprovalRow.review (databaseNow reviewerId : Int) (action : ReviewAction)
    (scope : Option ApprovalScope) : ApprovalRow :=
  match action with
  | .reject =>
    { row with status := .rejected, reviewerId := some reviewerId, reviewedAt := some databaseNow }
  | .approve =>
    let scope := scope.getD .once
    { row with
      status := .approved
      reviewerId := some reviewerId
      reviewedAt := some databaseNow
      scope :=
        if row.riskLevel = .high then .once
        else if row.riskLevel = .medium ∧ scope = .window ∧ row.sessionKey ≠ none then .window
        else if row.riskLevel = .medium ∧ scope = .session ∧ row.sessionKey ≠ none ∧
          row.scope = .session then .session
        else .once
      expiresAt :=
        if row.riskLevel = .medium ∧ scope = .window ∧ row.sessionKey ≠ none then
          min row.expiresAt (databaseNow + 300)
        else row.expiresAt
      maxUses := if row.riskLevel = .high ∨ scope = .once then 1 else row.maxUses }

def reviewWithExecutor (store : ApprovalStore) (databaseNow : Int) (id : Nat) (reviewerId : Int)
    (action : ReviewAction) (scope : Option ApprovalScope) : ApprovalStore × Bool :=
  let (approvals, affectedRows) := store.approvals.updateWhere id
    (fun row => row.reviewable databaseNow) fun row => row.review databaseNow reviewerId action scope
  ({ store with approvals }, affectedRows = 1)

def isSafeInteger (n : Int) : Bool := n.natAbs ≤ 9007199254740991

/-- `Number` of a text that passes `/^\d+$/`. -/
def parseId (id : String) : Option Nat :=
  if id ≠ "" ∧ id.toList.all Char.isDigit then
    some (id.toList.foldl (fun n c => 10 * n + (c.toNat - 48)) 0)
  else none

def review (store : ApprovalStore) (databaseNow : Int) (id : String) (reviewerId : Int)
    (action : ReviewAction) (scope : Option ApprovalScope) : ApprovalStore × Bool :=
  match parseId id with
  | some id =>
    if ¬ isSafeInteger reviewerId ∨ reviewerId ≤ 0 then (store, false)
    else reviewWithExecutor store databaseNow id reviewerId action scope
  | none => (store, false)

/-- The ids that `reviewPendingByTool` finds: the first hundred by their number. -/
def pendingIds (store : ApprovalStore) (databaseNow : Int) (toolName : String) : List Nat :=
  ((List.range store.nextId).filter fun id => (store.approvals.get id).any fun row =>
    row.toolName = toolName ∧ row.toolName ≠ actionApprovalTool ∧ row.status = .pending ∧
      databaseNow < row.expiresAt).take 100

/-- The transaction of `reviewPendingByTool`. -/
def reviewPendingByTool (toolName : String) (reviewerId : Int)
    (action : ReviewAction) (scope : Option ApprovalScope) : Body ApprovalStore String (List Nat) :=
  fun store =>
    if toolName = "" ∨ toolName = actionApprovalTool ∨ (JsString.utf16 toolName).length > 128 ∨
        ¬ isSafeInteger reviewerId ∨ reviewerId ≤ 0 then .ok ([], store)
    else
      .ok ((pendingIds store databaseNow toolName).foldl
        (fun (reviewed, store) id =>
          let (store, changed) := reviewWithExecutor store databaseNow id reviewerId action scope
          (if changed then reviewed ++ [id] else reviewed, store)) ([], store))

/-! ## Consuming -/

inductive ApprovalConsumeFailure
  | pending
  | rejected
  | expired
  | consumed
  | invalid

/-- `{ approved: true }`, or why not. -/
abbrev ApprovalConsumeResult := Except ApprovalConsumeFailure Unit

/-- `/^[a-f0-9]{64}$/`. -/
def bindingFormat (bindingHash : String) : Bool :=
  bindingHash.toList.length = 64 ∧
    bindingHash.toList.all fun c => ('a' ≤ c ∧ c ≤ 'f') ∨ ('0' ≤ c ∧ c ≤ '9')

/-- The update of a grant for one call. -/
def consumeOnce (id : Nat)
    (bindingHash : String) (requesterId : Int) : Table Nat ApprovalRow × Nat :=
  approvals.updateWhere id
    (fun row => row.requesterId = requesterId ∧ row.bindingHash = bindingHash ∧
      row.status = .approved ∧ databaseNow < row.expiresAt)
    fun row => { row with status := .consumed }

/-- The update of a reusable grant. -/
def consumeUse (id : Nat)
    (bindingHash : String) (requesterId : Int) (sessionKey : String) : Table Nat ApprovalRow × Nat :=
  approvals.updateWhere id
    (fun row => row.requesterId = requesterId ∧ row.bindingHash = bindingHash ∧
      row.status = .approved ∧ row.sessionKey = some sessionKey ∧ row.usedCount < row.maxUses ∧
      databaseNow < row.expiresAt)
    fun row => { row with usedCount := row.usedCount + 1 }

/-- `{ approved: true }` where a row was affected. -/
def granted (approvals : Table Nat ApprovalRow × Nat) (failure : ApprovalConsumeFailure) :
    ApprovalConsumeResult × Table Nat ApprovalRow :=
  if approvals.2 = 1 then (.ok (), approvals.1) else (.error failure, approvals.1)

/-- `consumeApprovedDetailed` of a row that was found. -/
def consumeRow (databaseNow now : Int) (id : Nat)
    (bindingHash : String) (requesterId : Int) (options : Option ApprovalConsumeOptions)
    (row : ApprovalRow) : ApprovalConsumeResult × Table Nat ApprovalRow :=
  if row.toolName = actionApprovalTool ∨ row.toolName = "restart_demo_service" then
    (.error .invalid, approvals)
  else if row.status = .pending then (.error .pending, approvals)
  else if row.status = .rejected then (.error .rejected, approvals)
  else if row.status = .consumed ∨ row.maxUses ≤ row.usedCount then (.error .consumed, approvals)
  else if row.status = .expired ∨ row.expiresAt * 1000 ≤ now then (.error .expired, approvals)
  else if row.status ≠ .approved then (.error .invalid, approvals)
  else match options with
    | some options =>
      if row.riskLevel.rank < (options.riskLevel.getD .high).rank then (.error .invalid, approvals)
      else if row.scope = .once then
        if row.bindingHash ≠ bindingHash then (.error .invalid, approvals)
        else granted (consumeOnce approvals databaseNow id bindingHash requesterId) .invalid
      else match options.sessionKey with
        | some key =>
          if key = "" ∨ row.sessionKey ≠ some key then (.error .invalid, approvals)
          else if row.usedCount = 0 ∧ row.bindingHash ≠ bindingHash then
            (.error .invalid, approvals)
          else granted (consumeUse approvals databaseNow id bindingHash requesterId key) .consumed
        | none => (.error .invalid, approvals)
    | none =>
      if row.scope ≠ .once ∨ row.bindingHash ≠ bindingHash then (.error .invalid, approvals)
      else granted (consumeOnce approvals databaseNow id bindingHash requesterId) .consumed

def consumeApprovedDetailed (databaseNow now : Int) (id : String)
    (bindingHash : String) (requesterId : Int) (options : Option ApprovalConsumeOptions) :
    ApprovalConsumeResult × Table Nat ApprovalRow :=
  match parseId id with
  | some id =>
    if ¬ bindingFormat bindingHash ∨ ¬ isSafeInteger requesterId then (.error .invalid, approvals)
    else match approvals.get id with
      | some row =>
        if row.requesterId ≠ requesterId then (.error .invalid, approvals)
        else consumeRow approvals databaseNow now id bindingHash requesterId options row
      | none => (.error .invalid, approvals)
  | none => (.error .invalid, approvals)

/-! ## Executing -/

/-- The transaction of `authorize`; the audit may throw, and so does a signal that is aborted. -/
def authorize (databaseNow now : Int) (id bindingHash : String) (requesterId : Int)
    (requestId : String) (options : Option ApprovalConsumeOptions) (audited aborted : Bool) :
    Body ApprovalStore String (ApprovalConsumeResult × Nat) :=
  fun store =>
    let isAction := ((parseId id).bind store.approvals.get).any fun row =>
      row.toolName = actionApprovalTool
    let (result, approvals) :=
      if isAction then (.error .invalid, store.approvals)
      else consumeApprovedDetailed store.approvals databaseNow now id bindingHash requesterId options
    let intents := match result, parseId id with
      | .ok (), some approvalId => store.intents ++ [⟨approvalId, requestId, .dispatching, requesterId,
          bindingHash, options, databaseNow⟩]
      | _, _ => store.intents
    if ¬ audited then .error "AUDIT_FAILED"
    else if aborted then .error "TOOL_EXECUTION_CANCELLED"
    else .ok ((result, store.intents.length), { store with approvals, intents })

/-- A use is given back. -/
def ApprovalRow.refund : ApprovalRow :=
  { row with
    status := if row.scope = .once ∧ row.status = .consumed then .approved else row.status
    usedCount := if row.scope ≠ .once then max row.usedCount 1 - 1 else row.usedCount }

/-- `UPDATE agent_tool_execution_intents SET state = ? WHERE id = ? AND state = 'dispatching'`. -/
def settleIntent (intents : List IntentRow) (executionId : Nat) (state : IntentState) :
    List IntentRow × Nat :=
  match intents[executionId]? with
  | some intent =>
    if intent.state = .dispatching then (intents.set executionId { intent with state }, 1)
    else (intents, 0)
  | none => (intents, 0)

/-- The transaction of `releaseBeforeHandler`, and whether it gives a use back. -/
def releaseBeforeHandler (approvalId executionId : Nat) : Body ApprovalStore String Bool :=
  fun store =>
    let (intents, released) := settleIntent store.intents executionId .released
    if released ≠ 1 then .ok (false, store)
    else .ok (true, { store with
      intents
      approvals := (store.approvals.updateWhere approvalId (fun _ => true) ApprovalRow.refund).1 })

/-- The transaction of `finish`. -/
def finishIntent (executionId : Nat) : Body ApprovalStore String Unit :=
  fun store =>
    .ok ((), { store with intents := (settleIntent store.intents executionId .finished).1 })

/-! ## Processes side by side -/

/-- Where a `submit` stands; it has its lock from `locked` on. -/
inductive SubmitPhase
  | waiting
  | locked
  | absent
  | answered (id : Nat)
  | closed
deriving DecidableEq

def SubmitPhase.HasLock (phase : SubmitPhase) : Prop := phase ≠ .waiting ∧ phase ≠ .closed

instance : DecidablePred SubmitPhase.HasLock := fun _ => inferInstanceAs (Decidable (_ ∧ _))

structure Submission where
  request : ApprovalRequest
  now : Int
  phase : SubmitPhase

/-- Who may call `releaseBeforeHandler` and `finish`. -/
structure Receipt where
  (approvalId executionId : Nat)

/-- The clock of the database, its tables, and what the processes hold. -/
structure ApprovalWorld where
  databaseNow : Int
  store : ApprovalStore
  submissions : List Submission
  receipts : List Receipt

def ApprovalWorld.start : ApprovalWorld := ⟨databaseNow, ⟨.empty, [], 0⟩, [], []⟩

/-- A call of `submit` with its statements, or one of the other calls with what becomes of it. -/
inductive ApprovalEvent
  | tick (elapsed : Nat)
  | submit (request : ApprovalRequest) (now : Int)
  | lock (submission : Nat)
  | look (submission : Nat)
  | insert (submission : Nat)
  | unlock (submission : Nat)
  | review (id : String) (reviewerId : Int) (action : ReviewAction) (scope : Option ApprovalScope)
  | reviewPendingByTool (toolName : String) (reviewerId : Int) (action : ReviewAction)
      (scope : Option ApprovalScope) (commit : Commit)
  | authorize (now : Int) (id bindingHash : String) (requesterId : Int) (requestId : String)
      (options : Option ApprovalConsumeOptions) (audited aborted : Bool) (commit : Commit)
  | release (receipt : Nat) (commit : Commit)
  | finish (receipt : Nat) (commit : Commit)

def ApprovalWorld.submitting (w : ApprovalWorld) (i : Nat) (submission : Submission)
    (phase : SubmitPhase) : ApprovalWorld :=
  { w with submissions := w.submissions.set i { submission with phase } }

def ApprovalWorld.step (w : ApprovalWorld) : ApprovalEvent → ApprovalWorld
  | .tick elapsed => { w with databaseNow := w.databaseNow + elapsed }
  | .submit request now => { w with submissions := w.submissions ++ [⟨request, now, .waiting⟩] }
  | .lock i =>
    match w.submissions[i]? with
    | some submission =>
      if submission.phase = .waiting ∧ ∀ other ∈ w.submissions,
          other.phase.HasLock → other.request.lock ≠ submission.request.lock then
        w.submitting i submission .locked
      else w
    | none => w
  | .look i =>
    match w.submissions[i]? with
    | some submission =>
      if submission.phase = .locked then
        -- `ORDER BY id DESC LIMIT 1`
        match ((List.range w.store.nextId).filter fun id => (w.store.approvals.get id).any fun row =>
          row.pendingFor submission.request.lock w.databaseNow).getLast? with
        | some id => w.submitting i submission (.answered id)
        | none => w.submitting i submission .absent
      else w
    | none => w
  | .insert i =>
    match w.submissions[i]? with
    | some submission =>
      if submission.phase = .absent then
        { w.submitting i submission (.answered w.store.nextId) with
          store := { w.store with
            approvals := w.store.approvals.put w.store.nextId (submission.request.row submission.now)
            nextId := w.store.nextId + 1 } }
      else w
    | none => w
  | .unlock i =>
    match w.submissions[i]? with
    | some submission => w.submitting i submission .closed
    | none => w
  | .review id reviewerId action scope =>
    { w with store := (review w.store w.databaseNow id reviewerId action scope).1 }
  | .reviewPendingByTool toolName reviewerId action scope commit =>
    { w with
      store := (perform (reviewPendingByTool w.databaseNow toolName reviewerId action scope)
        commit w.store).2 }
  | .authorize now id bindingHash requesterId requestId options audited aborted commit =>
    let (answer, store) := perform (authorize w.databaseNow now id bindingHash requesterId
      requestId options audited aborted) commit w.store
    let receipts := match answer, parseId id with
      | some (.ok (), executionId), some approvalId => w.receipts ++ [⟨approvalId, executionId⟩]
      | _, _ => w.receipts
    { w with store, receipts }
  | .release i commit =>
    match w.receipts[i]? with
    | some receipt =>
      { w with
        store := (perform (releaseBeforeHandler receipt.approvalId receipt.executionId)
          commit w.store).2 }
    | none => w
  | .finish i commit =>
    match w.receipts[i]? with
    | some receipt => { w with store := (perform (finishIntent receipt.executionId) commit w.store).2 }
    | none => w

def runApprovals (w : ApprovalWorld) (events : List ApprovalEvent) : ApprovalWorld :=
  events.foldl ApprovalWorld.step w

end Slide.Security
