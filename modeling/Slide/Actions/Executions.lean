import Mathlib.Data.List.Sort
import Slide.Actions.Plans

/-!
# Executions of approved actions

`ActionExecutionStore` and `ActionExecutor`: the transactions on an execution and its dispatch locks, and
the workers and callers that take them one after another, with everything that may fail or stop in between.
-/

namespace Slide.Actions.Dispatch

open Transaction

/-- A state that nothing leaves. -/
def ExecutionState.closed : ExecutionState → Bool
  | .succeeded | .failed | .cancelled => true
  | _ => false

/-- A state before the send boundary. -/
def ExecutionState.early : ExecutionState → Bool
  | .queued | .prechecking => true
  | _ => false

structure ExecutionLease where
  execution : ExecutionRecord
  owner : String
  fence : Nat

structure ActionInvocation where
  (executionId operationId planId : String)
  planVersion : Nat
  planHash : String
  serverId : Nat
  (toolHash configHash : String)

variable (host : Host) (env : Env) (now : Nat)

/-! ## `ActionExecutionStore` -/

variable (e : ExecutionRecord) (t : Tables) (lease : ExecutionLease) (id : String)

def Tables.execution? : Option ExecutionRecord := t.executions.find? (·.id = id)

def loadExecution : Tx ExecutionRecord := do
  let row ← reading (·.execution? id)
  need row .notFound

/-- An update of one execution. -/
def Tables.update (f : ExecutionRecord → ExecutionRecord) : Tables :=
  { t with executions := t.executions.map fun e => if e.id = id then f e else e }

/-- The locks that an execution has are freed. -/
def Tables.unlock : Tables :=
  { t with locks := fun key => if t.locks key = some id then none else t.locks key }

/-- The row that `transition` leaves. -/
def ExecutionRecord.moved (now : Nat) (state : ExecutionState) (error : Option String)
    (receipt : Option ActionReceipt) : ExecutionRecord :=
  { e with
    state
    version := e.version + 1
    errorCode := error
    receipt
    sentAt := if state = .dispatching then some now else e.sentAt
    leaseExpiresAt := if state = .dispatching then e.leaseExpiresAt else none }

/-- `transition`: it does not look at the row it changes. -/
def Tables.transition (now : Nat) (id : String) (state : ExecutionState) (error : Option String)
    (receipt : Option ActionReceipt) : Tables :=
  let moved := t.update id fun e => e.moved now state error receipt
  if state.closed then moved.unlock id else moved

def transition (state : ExecutionState) (error : Option String)
    (receipt : Option ActionReceipt) : Tx Unit :=
  write fun t => t.transition now e.id state error receipt

/-- The lookup of an enqueue: the execution of the key, if it is for the same command. -/
def existing (actorId : Nat) (requestKey hash : String) : Tx (Option ExecutionRecord) := do
  let row ← reading fun t => t.executions.find? fun e => e.actorId = actorId && e.requestKey = requestKey
  ensure (row.isNone ∨ env.granted) .forbidden
  ensure (row.all (·.payloadHash = hash)) .idempotencyConflict
  pure row

/-- One lock of a new execution. -/
def takeLock (key : LockKey) : Tx Unit := do
  let held ← reading fun t => t.locks key
  ensure (held = none) .versionConflict
  write fun t => { t with locks := Function.update t.locks key (some id) }

def ExecutionRecord.clashes (a b : ExecutionRecord) : Bool :=
  a.id = b.id || a.approvalId = b.approvalId || (a.actorId = b.actorId && a.requestKey = b.requestKey) ||
    a.operationId = b.operationId

/-- The row that an enqueue inserts. -/
def ExecuteCommand.row (command : ExecuteCommand) (actor : ActorContext) (id : String)
    (plan : ActionPlanVersion) : ExecutionRecord where
  id
  version := 1
  planId := plan.id
  planVersion := plan.version
  approvalId := command.approvalId
  operationId := id
  actorId := actor.userId
  requestKey := command.requestKey
  payloadHash := host.commandHash command actor.principalKind
  state := .queued
  leaseOwner := none
  leaseExpiresAt := none
  fence := 0
  sentAt := none
  cancelRequestedAt := none
  receipt := none
  errorCode := none

/-- `enqueue`: the transaction of `enqueueApproved` with its callback. -/
def enqueue (actor : ActorContext) (command : ExecuteCommand) (id : String) : Tx ExecutionRecord := do
  let plan ← consume host env now command.planId command.expectedVersion command.approvalId
  let row := command.row host actor id plan
  let taken ← reading fun t => t.executions.any (·.clashes row)
  ensure (taken = false) .duplicateKey
  write fun t => { t with executions := t.executions ++ [row] }
  takeLock id .global
  takeLock id (.server plan.content.target)
  fresh host env now plan
  pure row

/-- The row of a claim. -/
def ExecutionRecord.leased (owner : String) (expiresAt : Nat) : ExecutionRecord :=
  { e with
    state := .prechecking
    leaseOwner := some owner
    leaseExpiresAt := some expiresAt
    fence := e.fence + 1
    version := e.version + 1 }

/-- A lease that is absent or over. -/
def ExecutionRecord.lapsed : Bool := e.leaseExpiresAt.all (· ≤ now)

/-- What a claim does to an execution whose lease is over. -/
def claimLapsed (owner : String) (milliseconds : Nat) : Tx (Option ExecutionLease) :=
  if e.state = .dispatching then do
    transition now e .outcomeUnknown (some "ACTION_DISPATCH_INTERRUPTED") none
    pure none
  else if e.state.early = false then pure none
  else if e.cancelRequestedAt.isSome then do
    transition now e .cancelled none none
    pure none
  else do
    let next := e.leased owner (now + milliseconds)
    write fun t => t.update e.id fun _ => next
    pure (some ⟨next, owner, next.fence⟩)

def claim (id owner : String) (seconds : Nat) : Tx (Option ExecutionLease) := do
  ensure (1 ≤ seconds ∧ seconds ≤ 60) .inputInvalid
  let e ← loadExecution id
  if e.lapsed now then claimLapsed now e owner (seconds * 1000) else pure none

/-- `leased`: the execution, when the lease is on it and not over. -/
def leased : Tx (Option ExecutionRecord) := do
  let e ← loadExecution lease.execution.id
  pure (if e.leaseOwner = some lease.owner ∧ e.fence = lease.fence ∧ e.lapsed now = false then some e else none)

/-- `plan`: the current version of a plan, which is the one of the execution. -/
def planOf : Tx ActionPlanVersion := do
  let plan ← load host e.planId
  ensure (plan.version = e.planVersion) .versionConflict
  pure plan

def historicalPlan : Tx ActionPlanVersion := do
  let row ← reading (·.version? e.planId e.planVersion)
  let row ← need row .notFound
  ensure (host.parses row.content) .inputInvalid
  ensure (host.contentHash row.content = row.contentHash) .preconditionFailed
  pure row

def locks (plan : ActionPlanVersion) : Tx Unit := do
  let global ← reading (·.locks .global)
  ensure (global = some e.id) .preconditionFailed
  let server ← reading (·.locks (.server plan.content.target))
  ensure (server = some e.id) .preconditionFailed

/-- The row that an admission leaves. -/
def ExecutionRecord.dispatched : ExecutionRecord :=
  { e with state := .dispatching, version := e.version + 1, sentAt := some now }

/-- The predicate of `admitDispatch`. -/
def ExecutionRecord.admissible (row e : ExecutionRecord) (lease : ExecutionLease) : Bool :=
  row.id = lease.execution.id && row.version = e.version && row.state = .prechecking &&
    row.cancelRequestedAt.isNone && row.leaseOwner = some lease.owner && row.fence = lease.fence &&
    !row.lapsed now

def admitDispatch : Tx Bool := do
  let affected ← reading fun t => t.executions.countP (·.admissible now e lease)
  write fun t =>
    { t with executions := t.executions.map fun row =>
        if row.admissible now e lease then row.dispatched now else row }
  pure (affected = 1)

/-! ## `ActionExecutor` -/

/-- A lowercase SHA-256 digest in hexadecimal. -/
def isDigest (text : String) : Bool :=
  text.length = 64 && text.toList.all fun c => ('0' ≤ c && c ≤ '9') || ('a' ≤ c && c ≤ 'f')

def actionConfigHash (plan : ActionPlanVersion) : Except OperationsError String :=
  match plan.content.preconditions with
  | [condition] =>
    if condition.kind = "target_config_hash" ∧ isDigest condition.expected then .ok condition.expected
    else .error .preconditionFailed
  | _ => .error .preconditionFailed

/-- `checkedActionReceipt`, of a receipt of the form of the schema. -/
def checkedActionReceipt (value : Option ActionReceipt) (e : ExecutionRecord) (plan : ActionPlanVersion) :
    Option ActionReceipt :=
  value.filter fun r =>
    r.operationId = e.operationId && r.planHash = plan.contentHash && r.helperHash = plan.content.toolHash &&
      (actionConfigHash plan).toOption = some r.configHash &&
      (r.outcome ≠ .succeeded || (r.after.isSome && r.after ≠ some r.before))

/-- `ActionExecutor.check`. -/
def executorCheck (plan : ActionPlanVersion) : Tx Unit := do
  enabled env.dispatch
  ensure (plan.state = .approved) .preconditionFailed
  let a ← reading (·.approval? e.approvalId)
  let b ← reading (·.binding? e.approvalId)
  let a ← need a .preconditionFailed
  let b ← need b .preconditionFailed
  ensure (a.status = .consumed ∧ a.usedCount = 1 ∧ b.consumedAt.isSome ∧ b.fits plan a) .preconditionFailed
  ensure (a.proposer.userId = plan.content.requester.id ∧
    a.proposer.principalKind = plan.content.requester.kind ∧ a.requesterId = plan.content.requester.id)
    .preconditionFailed
  ensure (now < a.expiresAt ∧ a.bindingHash = host.approvalHash plan a.proposer a.proposerLiveHash)
    .preconditionFailed
  ensure (env.liveHash a.proposer = some a.proposerLiveHash ∧
    a.reviewer.all fun r => env.liveHash r.1 = some r.2) .forbidden
  assertPlanFresh host now plan
  ensure (env.granted) .forbidden
  locks e plan
  ensure (now < env.validUntil) .expired
  enabled env.dispatch

/-- The first transaction of `run`. -/
def precheck : Tx ActionPlanVersion := do
  let row ← leased now lease
  let e ← need row .versionConflict
  ensure (e.state = .prechecking) .versionConflict
  let plan ← planOf host e
  executorCheck host env now e plan
  pure plan

/-- The send boundary, for an execution that is still to be sent. -/
def sendBoundary : Tx ActionInvocation := do
  let plan ← planOf host e
  executorCheck host env now e plan
  let admitted ← admitDispatch now e lease
  ensure admitted .versionConflict
  let configHash ← need (actionConfigHash plan).toOption .preconditionFailed
  pure
    { executionId := e.id
      operationId := e.operationId
      planId := plan.id
      planVersion := plan.version
      planHash := plan.contentHash
      serverId := plan.content.target
      toolHash := plan.content.toolHash
      configHash }

/-- The second transaction of `run`. -/
def sendRun : Tx (Option ActionInvocation) := do
  let row ← leased now lease
  match row.filter fun e => e.state = .prechecking && e.cancelRequestedAt.isNone with
  | none => pure none
  | some e => do
    let invocation ← sendBoundary host env now e lease
    pure (some invocation)

/-- What `failBeforeSend` does to an execution of its lease. -/
def failLeased : Tx Unit :=
  if e.state = .dispatching then transition now e .outcomeUnknown (some "ACTION_SEND_UNCERTAIN") none
  else if e.state = .prechecking then transition now e .failed (some "ACTION_PRECHECK_FAILED") none
  else pure ()

def failBeforeSend : Tx Unit := do
  let e ← loadExecution lease.execution.id
  if e.fence = lease.fence ∧ e.leaseOwner = some lease.owner then failLeased now e else pure ()

def unknown : Tx Unit := do
  let e ← loadExecution lease.execution.id
  if e.fence = lease.fence ∧ e.leaseOwner = some lease.owner ∧ e.state = .dispatching then
    transition now e .outcomeUnknown (some "ACTION_SEND_UNCERTAIN") none
  else pure ()

/-- The state of an execution after a receipt. -/
def ReceiptOutcome.state : ReceiptOutcome → ExecutionState
  | .succeeded => .succeeded
  | .notExecuted => .failed
  | .outcomeUnknown => .outcomeUnknown

def ReceiptOutcome.errorCode : ReceiptOutcome → Option String
  | .outcomeUnknown => some "ACTION_SEND_UNCERTAIN"
  | _ => none

/-- The transition of a receipt. -/
def settle (receipt : ActionReceipt) : Tx Unit :=
  transition now e receipt.outcome.state receipt.outcome.errorCode (some receipt)

/-- A receipt that comes after the lease. -/
def finishStale : Tx Unit := do
  let e ← loadExecution lease.execution.id
  if e.fence = lease.fence ∧ e.leaseOwner = some lease.owner ∧ e.state = .dispatching then
    transition now e .outcomeUnknown (some "ACTION_LEASE_EXPIRED") none
  else pure ()

def finish (receipt : ActionReceipt) : Tx Unit := do
  let row ← leased now lease
  match row with
  | none => finishStale now lease
  | some e => if e.state = .dispatching then settle now e receipt else pure ()

/-- The executions that are dispatched on a lease that is over. -/
def stale (limit : Nat) (t : Tables) : List ExecutionRecord :=
  ((t.executions.filter fun e => e.state = .dispatching && e.leaseExpiresAt.any (· ≤ now)).insertionSort
    fun a b => a.id ≤ b.id).take limit

def interrupt : List ExecutionRecord → Tx Unit
  | [] => pure ()
  | e :: rest => do
    transition now e .outcomeUnknown (some "ACTION_DISPATCH_INTERRUPTED") none
    interrupt rest

def recoverExpiredDispatches (limit : Nat) : Tx Nat := do
  let rows ← reading (stale now limit)
  interrupt now rows
  pure rows.length

/-- A cancel request that is recorded. -/
def requestCancel : Tx Unit := do
  write fun t => t.update e.id fun r => { r with cancelRequestedAt := some now, version := r.version + 1 }
  if e.state.early then transition now e .cancelled none none else pure ()

def cancel : Tx ExecutionRecord := do
  let e ← loadExecution id
  ensure (env.granted) .forbidden
  if e.state.closed ∨ e.cancelRequestedAt.isSome then pure e
  else do
    requestCancel now e
    loadExecution id

/-- The first transaction of `reconcile`. -/
def reconcileRead : Tx ExecutionRecord := do
  let e ← loadExecution id
  ensure (env.granted) .forbidden
  pure e

def ExecutionState.unsettled (s : ExecutionState) : Bool := s = .dispatching || s = .outcomeUnknown

/-- The last transaction of `reconcile`. -/
def reconcileWrite (receipt : ActionReceipt) : Tx ExecutionRecord := do
  let e ← loadExecution id
  ensure (env.granted) .forbidden
  if e.state.unsettled then do
    settle now e receipt
    loadExecution id
  else pure e

end Slide.Actions.Dispatch
