import Slide.Library.JsString
import Slide.Library.Transaction
import Slide.Workflows.Store

/-!
# Delivery states and their transactions

`MysqlDeliveryStore` of `workflows/delivery-store.ts`: `preflightFailed`, `acquire`, `finish`, `replay` and
`recover`, each of them one transaction.  Times are milliseconds; `NOW()` is the current second.
-/

namespace Slide.Deliveries

open Transaction
open Slide.Workflows (DeliveryState WorkflowState)

/-! ## Identities -/

inductive Kind
  | notification | report
deriving DecidableEq

/-- `NotificationTransition`, as far as a delivery reads it; `at_` is what `Date.parse` makes of its time. -/
structure NotificationTransition where
  (phase id : String)
  at_ : Option Int

/-- A payload; a number is `none` where `Number` makes no integer of it. -/
structure Payload where
  (alertId reportId channelId : Option Int)
  transition : Option NotificationTransition

structure DeliveryIdentity where
  key : String
  kind : Kind
  (sourceId channelId : Nat)
  transition : Option NotificationTransition

/-- A positive safe integer. -/
def positiveId (value : Option Int) : Option Nat :=
  match value with
  | some n => if 0 < n ∧ n ≤ 9007199254740991 then some n.toNat else none
  | none => none

/-- `/^[a-z0-9-]{1,48}$/` and the other checks of a transition. -/
def NotificationTransition.valid (t : NotificationTransition) : Bool :=
  ["recovery", "escalation"].contains t.phase &&
    t.id.toList.all (fun c => 'a' ≤ c && c ≤ 'z' || '0' ≤ c && c ≤ '9' || c = '-') &&
    1 ≤ t.id.length && t.id.length ≤ 48 && t.at_.isSome

/-- `deliveryIdentity`, which throws where it is `none`. -/
def deliveryIdentity (type : String) (payload : Payload) : Option DeliveryIdentity := do
  let kind ← if type = "notification.deliver" then some Kind.notification
    else if type = "report.notify" then some Kind.report else none
  let sourceId ← positiveId (match kind with | .notification => payload.alertId | .report => payload.reportId)
  let channelId ← positiveId payload.channelId
  let transition := match kind with | .notification => payload.transition | .report => none
  let name := match kind with | .notification => "notification" | .report => "report"
  match transition with
  | none => some ⟨s!"{name}:{sourceId}:{channelId}", kind, sourceId, channelId, none⟩
  | some t =>
    if t.valid then some ⟨s!"{name}:{sourceId}:{channelId}:{t.id}", kind, sourceId, channelId, some t⟩
    else none

/-! ## Tables -/

structure NotificationChannel where
  id : Nat
  type : String
  idempotencyContract : Option String
  idempotencyRetentionSeconds : Nat
deriving DecidableEq

/-- A frozen request; the message and the fence of an alert are what they are serialized to. -/
structure DeliveryRequest where
  channel : NotificationChannel
  message : String
  rolloutFence : Option String
deriving DecidableEq

/-- `retention`, in milliseconds; zero where there is none. -/
def DeliveryRequest.retention (r : DeliveryRequest) : Nat :=
  if r.channel.type = "webhook" ∧ r.channel.idempotencyContract = some "receiver-deduplicates" then
    r.channel.idempotencyRetentionSeconds * 1000
  else 0

/-- A row of `workflow_jobs`, as far as a delivery reads and writes it. -/
structure Job where
  type : String
  payload : Payload
  state : WorkflowState
  (attempts availableAt : Nat)
  leaseOwner : Option String
  leaseExpiresAt : Option Nat
  fencingToken : Nat
  lastError : Option String
  completedAt : Option Nat

/-- A row of `notification_delivery_states`. -/
structure Row where
  kind : Kind
  (sourceId channelId : Nat)
  state : DeliveryState
  version : Nat
  workflowJobId : String
  fencingToken : Nat
  attemptId : Option Nat
  request : Option DeliveryRequest
  idempotentUntil : Option Nat
  errorCode : Option String

inductive AttemptStatus
  | started | sent | failed | unknown | skipped
deriving DecidableEq

/-- A row of the attempt table of its kind. -/
structure Attempt where
  kind : Kind
  workflowJobId : String
  (sourceId channelId attemptNumber : Nat)
  status : AttemptStatus
  errorCode : Option String

inductive Decision
  | sent | abandon | retry
deriving DecidableEq

/-- A row of `notification_delivery_replays`; the last columns are those of a recovery. -/
structure Replay where
  workflowJobId : String
  actorId : Nat
  reason : String
  recovery : Option (String × Nat × Decision × String)

/-- What has been committed or begun, in order. -/
inductive Entry
  /-- An attempt has been granted, to a fresh send or to a repeated one. -/
  | acquired (key : String) (attempt : Nat) (fresh : Bool)
  /-- The transport has been invoked. -/
  | invoked (key : String) (attempt : Nat) (request : DeliveryRequest) (at_ : Nat)
  | finished (key : String) (attempt : Nat) (state : DeliveryState)
  | decided (key : String) (decision : Decision)
deriving DecidableEq

structure Db where
  now : Nat
  jobs : Table String Job
  states : Table String Row
  attempts : List Attempt
  /-- The sent rows of `notification_records`: an alert and a channel. -/
  records : List (Nat × Nat)
  replays : List Replay
  /-- The attempt id that `randomUUID` gives next. -/
  nextAttempt : Nat
  log : List Entry

abbrev Tx (α : Type) := Body Db String α

/-- What a handler runs with. -/
structure ClaimedJob where
  id : String
  fencingToken : Nat
  workerId : String
  identity : DeliveryIdentity

structure DeliveryClaim where
  key : String
  attemptId : Nat
  request : DeliveryRequest
  /-- A deadline of the clock of the process. -/
  retryDeadline : Option Int

/-- An attempt that is not the repetition of an uncertain one. -/
def DeliveryClaim.fresh (c : DeliveryClaim) : Bool := c.retryDeadline.isNone

variable (db : Db)

/-- `NOW()`. -/
def Db.second : Nat := db.now / 1000 * 1000

/-- `lease_expires_at > NOW()`. -/
def Db.live (job : Job) : Bool := job.leaseExpiresAt.any fun expires => db.second < expires

/-! ## Statements -/

variable (job : ClaimedJob) (key : String)

namespace Db

/-- An update of the row of a key. -/
def set (f : Row → Row) : Db :=
  { db with states := (db.states.updateWhere key (fun _ => true) f).1 }

def note (entry : Entry) : Db := { db with log := db.log ++ [entry] }

def attemptResult (row : Row) (status : AttemptStatus) (errorCode : Option String) : Db :=
  { db with
    attempts := db.attempts.map fun a =>
      if a.kind = row.kind ∧ a.workflowJobId = row.workflowJobId ∧ a.attemptNumber = row.fencingToken ∧
          a.status = .started then
        { a with status, errorCode }
      else a }

/-- The insert of `acquire`, and what it does to a row that is there. -/
def freeze (request : Option DeliveryRequest) : Db :=
  match db.states.get job.identity.key with
  | none =>
    { db with
      states := db.states.put job.identity.key
        ⟨job.identity.kind, job.identity.sourceId, job.identity.channelId, .ready, 1, job.id, job.fencingToken, none,
          request, none, none⟩ }
  | some _ =>
    db.set job.identity.key fun row =>
      { row with request := if row.state = .retryable ∧ row.request = none then request else row.request }

/-- What the audit of older versions says of a delivery. -/
def legacyState (identity : DeliveryIdentity) : Option DeliveryState :=
  let last := db.attempts.reverse.find? fun a =>
    a.kind = identity.kind ∧ a.sourceId = identity.sourceId ∧ a.channelId = identity.channelId ∧
      a.errorCode.getD "" ≠ "DELIVERY_PREPARATION_FAILED"
  if identity.kind = .notification ∧ (identity.sourceId, identity.channelId) ∈ db.records then some .sent
  else last.map fun a => if a.status = .sent then .sent else .unknown

/-- "Upgrade safety: old accepted or uncertain sends must not become fresh sends." -/
def legacy (identity : DeliveryIdentity) : Db :=
  match db.states.get identity.key, db.legacyState identity with
  | some row, some state =>
    if identity.transition = none ∧ (row.state = .ready ∨ row.state = .retryable) ∧ row.attemptId = none ∧
        row.errorCode ≠ some "RECOVERY_RETRY" then
      db.set identity.key fun row =>
        { row with state, version := row.version + 1, errorCode := some "LEGACY_DELIVERY" }
    else db
  | _, _ => db

/-- The job that a row names is running with the token of the row. -/
def inFlight (row : Row) : Bool :=
  (db.jobs.get row.workflowJobId).any fun job =>
    job.state = .running && job.fencingToken = row.fencingToken && db.live job

/-- A send whose owner has lost its lease is uncertain. -/
def interrupt (row : Row) : Db :=
  (db.attemptResult row .unknown (some "DELIVERY_INTERRUPTED")).set key fun row =>
    { row with state := .unknown, version := row.version + 1, errorCode := some "DELIVERY_INTERRUPTED" }

def skip : Db :=
  db.set key fun row =>
    { row with state := .skipped, version := row.version + 1, errorCode := some "DELIVERY_SOURCE_UNAVAILABLE" }

/-- The grant of an attempt. -/
def send (frozen : DeliveryRequest) (fresh : Bool) : Db :=
  let granted := db.set job.identity.key fun row =>
    { row with
      state := .sending
      version := row.version + 1
      workflowJobId := job.id
      fencingToken := job.fencingToken
      attemptId := some db.nextAttempt
      errorCode := none
      idempotentUntil := row.idempotentUntil <|>
        if 0 < frozen.retention then some (db.now + frozen.retention) else none }
  { granted.note (.acquired job.identity.key db.nextAttempt fresh) with nextAttempt := db.nextAttempt + 1 }

end Db

/-! ## Transactions -/

def owned : Tx Unit := do
  let db ← reading id
  ensure
    ((db.jobs.get job.id).any fun row =>
      row.state = .running && row.leaseOwner = some job.workerId && row.fencingToken = job.fencingToken && db.live row)
    "DELIVERY_LEASE_LOST"

/-- The row of a key, `FOR UPDATE`. -/
def locked (error : String) : Tx Row := do
  let states ← reading (·.states)
  need (states.get key) error

/-- The insert of an attempt, whose job and number its table has once. -/
def insertAttempt (attempt : Attempt) : Tx Unit := do
  let attempts ← reading (·.attempts)
  ensure
    (attempts.all fun a =>
      a.kind ≠ attempt.kind || a.workflowJobId ≠ attempt.workflowJobId || a.attemptNumber ≠ attempt.attemptNumber)
    "ER_DUP_ENTRY"
  write fun db => { db with attempts := db.attempts ++ [attempt] }

def preflightFailed : Tx Unit := do
  owned job
  write fun db =>
    { db with
      states := db.states.insertNew job.identity.key
        ⟨job.identity.kind, job.identity.sourceId, job.identity.channelId, .retryable, 1, job.id, job.fencingToken, none,
          none, none, some "DELIVERY_PREPARATION_FAILED"⟩ }
  insertAttempt
    ⟨job.identity.kind, job.id, job.identity.sourceId, job.identity.channelId, job.fencingToken, .failed,
      some "DELIVERY_PREPARATION_FAILED"⟩

/-- `['sent', 'skipped', 'failed'].includes(state)`. -/
def final (state : DeliveryState) : Bool := state = .sent || state = .skipped || state = .failed

/-- How `acquire` ends: with a claim, with nothing to send, or with `DELIVERY_RECONCILIATION_REQUIRED`. -/
inductive Acquired
  | claim (claim : DeliveryClaim)
  | nothing
  | uncertain

/-- The rest of `acquire`, for a row that is not final and whose owner is gone. -/
def grant (started : Int) (row : Row) : Tx Acquired := do
  let db ← reading id
  let canRetry := row.idempotentUntil.any fun until_ => db.now < until_
  if row.state = .unknown ∧ canRetry = false then return .uncertain
  match row.request with
  | none =>
    write (·.skip job.identity.key)
    return .nothing
  | some frozen =>
    let deadline := if row.state = .unknown then
      some (started + ((row.idempotentUntil.getD 0 : Int) - (db.now : Int))) else none
    write (·.send job frozen deadline.isNone)
    insertAttempt
      ⟨job.identity.kind, job.id, job.identity.sourceId, job.identity.channelId, job.fencingToken, .started, none⟩
    return .claim ⟨job.identity.key, db.nextAttempt, frozen, deadline⟩

/-- `acquire`, begun when the clock of its process showed `started`. -/
def acquire (request : Option DeliveryRequest) (started : Int) : Tx Acquired := do
  owned job
  write (·.freeze job request)
  write (·.legacy job.identity)
  let row ← locked job.identity.key "DELIVERY_STATE_MISSING"
  if final row.state then return .nothing
  if row.state = .sending then
    let db ← reading id
    ensure (db.inFlight row = false) "DELIVERY_IN_FLIGHT"
    write (·.interrupt job.identity.key row)
    let row ← locked job.identity.key "DELIVERY_STATE_MISSING"
    grant job started row
  else grant job started row

/-- The outcome of an attempt in its audit. -/
def attemptStatus : DeliveryState → AttemptStatus
  | .sent => .sent
  | .retryable => .failed
  | .skipped => .skipped
  | _ => .unknown

def finish (claim : DeliveryClaim) (state : DeliveryState) (error : Option String) : Tx Unit := do
  owned job
  let row ← locked claim.key "DELIVERY_ATTEMPT_STALE"
  ensure
    (row.state = .sending ∧ row.attemptId = some claim.attemptId ∧ row.workflowJobId = job.id ∧
      row.fencingToken = job.fencingToken)
    "DELIVERY_ATTEMPT_STALE"
  if state = .sent ∧ row.kind = .notification then
    write fun db => { db with records := db.records ++ [(row.sourceId, row.channelId)] }
  write fun db => db.set claim.key fun row => { row with state, errorCode := error, version := row.version + 1 }
  write (·.attemptResult row (attemptStatus state) error)
  write (·.note (.finished claim.key claim.attemptId state))

/-- Both checks of an actor in one transaction. -/
structure Authority where
  (before after : Bool)

def nonBlank (s : String) : Bool := JsString.trim s ≠ ""

def requeued (now : Nat) (job : Job) : Job :=
  { job with
    state := .queued, attempts := 0, availableAt := now, leaseOwner := none, leaseExpiresAt := none, lastError := none }

def setJob (id : String) (f : Job → Job) (db : Db) : Db :=
  { db with jobs := (db.jobs.updateWhere id (fun _ => true) f).1 }

def replay (jobId : String) (actorId : Nat) (reason : String) (authority : Authority) : Tx Unit := do
  ensure (nonBlank reason ∧ JsString.length reason ≤ 512) "DELIVERY_RECOVERY_INVALID"
  let db ← reading id
  let job ← need (db.jobs.get jobId) "DELIVERY_NOT_FOUND"
  ensure authority.before "DELIVERY_FORBIDDEN"
  ensure (job.state = .deadLetter) "DELIVERY_RECOVERY_CONFLICT"
  let identity ← need (deliveryIdentity job.type job.payload) "DELIVERY_PAYLOAD_INVALID"
  ensure
    ((db.states.get identity.key).all fun row =>
      !final row.state && row.state ≠ .unknown && row.state ≠ .sending)
    "DELIVERY_RECOVERY_CONFLICT"
  write fun db => { db with replays := db.replays ++ [⟨jobId, actorId, JsString.trim reason, none⟩] }
  write (setJob jobId (requeued db.second))
  ensure authority.after "DELIVERY_FORBIDDEN"

structure RecoverInput where
  version : Nat
  decision : Decision
  (reason reconciliation : String)
  acceptDuplicateRisk : Bool

def RecoverInput.valid (input : RecoverInput) (actorId : Nat) : Bool :=
  1 ≤ actorId && 1 ≤ input.version && nonBlank input.reason && JsString.length input.reason ≤ 512 &&
    nonBlank input.reconciliation && JsString.length input.reconciliation ≤ 1024 &&
    (input.decision ≠ .retry || input.acceptDuplicateRisk)

def Decision.state : Decision → DeliveryState
  | .sent => .sent
  | .abandon => .failed
  | .retry => .retryable

def Decision.code : Decision → String
  | .sent => "RECOVERY_SENT"
  | .abandon => "RECOVERY_ABANDON"
  | .retry => "RECOVERY_RETRY"

/-- What a decision does to its job. -/
def Decision.settle (decision : Decision) (now : Nat) (job : Job) : Job :=
  match decision with
  | .retry => requeued now job
  | .sent =>
    { job with
      state := .completed, leaseOwner := none, leaseExpiresAt := none, completedAt := some now
      lastError := some "RECOVERY_SENT" }
  | .abandon =>
    { job with
      state := .cancelled, leaseOwner := none, leaseExpiresAt := none, lastError := some "RECOVERY_ABANDON" }

def recover (jobId : String) (actorId : Nat) (input : RecoverInput) (authority : Authority) : Tx Unit := do
  ensure (input.valid actorId) "DELIVERY_RECOVERY_INVALID"
  let db ← reading id
  let job ← need (db.jobs.get jobId) "DELIVERY_NOT_FOUND"
  ensure authority.before "DELIVERY_FORBIDDEN"
  let identity ← need (deliveryIdentity job.type job.payload) "DELIVERY_PAYLOAD_INVALID"
  let row ← locked identity.key "DELIVERY_RECOVERY_CONFLICT"
  ensure
    (row.version = input.version ∧ (row.state = .unknown ∨ row.state = .sending) ∧ row.workflowJobId = jobId ∧
      (job.state = .running && db.live job) = false)
    "DELIVERY_RECOVERY_CONFLICT"
  write (·.attemptResult row .unknown (some "DELIVERY_RECONCILED"))
  ensure
    (db.replays.all fun r => r.recovery.all fun (key, version, _) => key ≠ identity.key || version ≠ input.version)
    "ER_DUP_ENTRY"
  write fun db =>
    { db with
      replays := db.replays ++
        [⟨jobId, actorId, JsString.trim input.reason,
          some (identity.key, input.version, input.decision, JsString.trim input.reconciliation)⟩] }
  write fun db => db.set identity.key fun row =>
    { row with state := input.decision.state, version := row.version + 1, errorCode := some input.decision.code }
  write (setJob jobId (input.decision.settle db.second))
  write (·.note (.decided identity.key input.decision))
  ensure authority.after "DELIVERY_FORBIDDEN"

end Slide.Deliveries
