import Slide.Library.Table

/-!
# The durable workflow queue

`MysqlWorkflowStore` of `workflows/worker-runtime.ts`, one definition for each SQL statement it
issues.  A statement is atomic; `claim` is three of them (`claimCandidate`, `claimUpdate`,
`claimReadBack`), so other workers may run between any two.

Times are whole seconds, as in the `DATETIME` columns the statements compare with `NOW()`.  A NULL
`lease_expires_at` makes `lease_expires_at > NOW()` false, and `IS NULL OR … < NOW()` true, so a row
whose lease ends in the current second is held by nobody and can be claimed by nobody.

`payload` is reduced to the JSON paths the statements read.
-/

namespace Slide.Workflows

abbrev JobId := String
abbrev WorkerId := String

/-- `workflow_jobs.state`. -/
inductive WorkflowState
  | queued | running | retry | completed | deadLetter | cancelled
deriving DecidableEq

/-- `notification_delivery_states.state`. -/
inductive DeliveryState
  | ready | sending | sent | retryable | failed | unknown | skipped
deriving DecidableEq

structure Delivery where
  businessKey : String
  state : DeliveryState

/-- The unquoted JSON paths of `payload` the statements read; `none` is SQL NULL. -/
structure JobPayload where
  transitionPhase : Option String := none
  transitionId : Option String := none
  alertId : Option String := none
  reportId : Option String := none
  channelId : Option String := none
deriving DecidableEq

/-- A row of `workflow_jobs`. -/
structure WorkflowJob where
  id : JobId
  jobType : String
  payload : JobPayload
  idempotencyKey : String
  state : WorkflowState
  (attempts maxAttempts availableAt : Nat)
  leaseOwner : Option WorkerId
  leaseExpiresAt : Option Nat
  fencingToken : Nat
  lastError : Option String
  completedAt : Option Nat
  createdAt : Nat

/-- What a claim hands to the worker runtime. -/
structure ClaimedJob where
  id : JobId
  jobType : String
  payload : JobPayload
  (attempts maxAttempts fencingToken : Nat)
deriving DecidableEq

structure ClaimFilter where
  types : List String
  exclude : Bool

/-- `WorkflowJobInput`, with the id and the availability time its callers supply. -/
structure WorkflowJobInput where
  id : JobId
  jobType : String
  payload : JobPayload
  idempotencyKey : String
  (maxAttempts availableAt : Option Nat)

/-- The database as the store sees it: its clock, the queue, and the delivery states other
modules maintain. -/
structure Store where
  now : Nat
  jobs : Table JobId WorkflowJob
  deliveries : List Delivery

/-! ## Row predicates -/

/-- `notificationOrder`: a recovery notification waits for the original one to be sent. -/
def notificationOrder (deliveries : List Delivery) (job : WorkflowJob) : Bool :=
  job.jobType != "notification.deliver" ||
    job.payload.transitionPhase.getD "" != "recovery" ||
    deliveries.any fun d =>
      (do
        let alert ← job.payload.alertId
        let channel ← job.payload.channelId
        pure ("notification:" ++ alert ++ ":" ++ channel)) == some d.businessKey &&
      d.state == .sent

/-- `state IN ('queued', 'retry', 'running')`. -/
def WorkflowState.claimable : WorkflowState → Bool
  | .queued | .retry | .running => true
  | .completed | .deadLetter | .cancelled => false

/-- The `WHERE` clause the candidate select and the fenced claim update share. -/
def eligible (store : Store) (job : WorkflowJob) : Bool :=
  job.state.claimable && decide (job.availableAt ≤ store.now) &&
    job.leaseExpiresAt.all (fun expires => decide (expires < store.now)) &&
    notificationOrder store.deliveries job

/-- The `WHERE` clause `heartbeat`, `complete` and `fail` share: the row still belongs to this
claim and its lease has not run out. -/
def holds (store : Store) (workerId : WorkerId) (fencingToken : Nat) (job : WorkflowJob) : Bool :=
  job.state == .running && job.leaseOwner == some workerId && job.fencingToken == fencingToken &&
    job.leaseExpiresAt.any (fun expires => decide (store.now < expires))

/-! ## Statements -/

/-- Run one keyed update of `workflow_jobs`; the flag is `affectedRows === 1`. -/
def Store.update (store : Store) (id : JobId) (guard : WorkflowJob → Bool)
    (set : WorkflowJob → WorkflowJob) : Store × Bool :=
  let result := store.jobs.updateWhere id guard set
  ({ store with jobs := result.1 }, result.2 == 1)

/-- The row `enqueue` inserts; the other columns take their defaults. -/
def WorkflowJobInput.row (input : WorkflowJobInput) (now : Nat) : WorkflowJob where
  id := input.id
  jobType := input.jobType
  payload := input.payload
  idempotencyKey := input.idempotencyKey
  state := .queued
  attempts := 0
  maxAttempts := input.maxAttempts.getD 5
  availableAt := input.availableAt.getD now
  leaseOwner := none
  leaseExpiresAt := none
  fencingToken := 0
  lastError := none
  completedAt := none
  createdAt := now

/-- `enqueue`: an insert that leaves a row with the same id or idempotency key as it is. -/
def Store.enqueue (store : Store) (input : WorkflowJobInput) : Store :=
  if store.jobs.toList.any fun job => job.idempotencyKey == input.idempotencyKey then store
  else { store with jobs := store.jobs.insertNew input.id (input.row store.now) }

/-- `ORDER BY available_at, created_at, id`. -/
def claimOrder (a b : WorkflowJob) : Prop :=
  a.availableAt < b.availableAt ∨ a.availableAt = b.availableAt ∧
    (a.createdAt < b.createdAt ∨ a.createdAt = b.createdAt ∧ a.id ≤ b.id)

instance : DecidableRel claimOrder := fun a b => by unfold claimOrder; infer_instance

/-- `AND job_type [NOT] IN (…)`, absent for an empty list of types. -/
def ClaimFilter.admits (filter : Option ClaimFilter) (jobType : String) : Bool :=
  match filter with
  | some ⟨types@(_ :: _), exclude⟩ => types.contains jobType != exclude
  | _ => true

/-- First statement of `claim`: an optimistic, unlocked candidate.  `analysisDispatch` is false
when `ANALYSIS_DISPATCH_ENABLED` is `'false'`. -/
def Store.claimCandidate (store : Store) (analysisDispatch : Bool)
    (filter : Option ClaimFilter) : Option JobId :=
  let rows := store.jobs.toList.filter fun job =>
    eligible store job && (analysisDispatch || job.jobType != "analysis.dispatch") &&
      ClaimFilter.admits filter job.jobType
  (rows.insertionSort claimOrder).head?.map WorkflowJob.id

/-- The assignments of the fenced claim update. -/
def WorkflowJob.claimedBy (job : WorkflowJob) (workerId : WorkerId) (leaseUntil : Nat) :
    WorkflowJob :=
  { job with
    state := .running
    attempts := job.attempts + 1
    leaseOwner := some workerId
    leaseExpiresAt := some leaseUntil
    fencingToken := job.fencingToken + 1 }

/-- Second statement of `claim`: the primary-key update that repeats the eligibility test. -/
def Store.claimUpdate (store : Store) (workerId : WorkerId) (leaseSeconds : Nat)
    (candidateId : JobId) : Store × Bool :=
  store.update candidateId (eligible store) (·.claimedBy workerId (store.now + leaseSeconds))

/-- Third statement of `claim`: read the row back while the lease is this worker's. -/
def Store.claimReadBack (store : Store) (workerId : WorkerId) (candidateId : JobId) :
    Option ClaimedJob :=
  match store.jobs.get candidateId with
  | none => none
  | some job =>
    if job.leaseOwner == some workerId && job.state == .running &&
        job.leaseExpiresAt.any (fun expires => decide (store.now < expires)) then
      some ⟨job.id, job.jobType, job.payload, job.attempts, job.maxAttempts, job.fencingToken⟩
    else none

def Store.heartbeat (store : Store) (id : JobId) (workerId : WorkerId) (fencingToken : Nat)
    (leaseSeconds : Nat) : Store × Bool :=
  store.update id (holds store workerId fencingToken)
    fun job => { job with leaseExpiresAt := some (store.now + leaseSeconds) }

def Store.complete (store : Store) (id : JobId) (workerId : WorkerId) (fencingToken : Nat) :
    Store × Bool :=
  store.update id (holds store workerId fencingToken) fun job =>
    { job with
      state := .completed, completedAt := some store.now, leaseOwner := none, leaseExpiresAt := none }

/-- `fail`: back to the queue when there is a retry time, otherwise to the dead letters.  The
availability time comes from the worker's own clock. -/
def Store.fail (store : Store) (job : ClaimedJob) (workerId : WorkerId) (message : String)
    (retryAt : Option Nat) (workerNow : Nat) : Store × Bool :=
  store.update job.id (holds store workerId job.fencingToken) fun row =>
    { row with
      state := if retryAt.isSome then .retry else .deadLetter
      availableAt := retryAt.getD workerNow
      lastError := some (String.ofList (message.toList.take 4096))
      leaseOwner := none
      leaseExpiresAt := none }

/-- The delivery key a replay looks up; NULL, which equals no key, when a part is missing. -/
def replayKey (job : WorkflowJob) : Option String := do
  let alert := job.jobType == "notification.deliver"
  let source ← if alert then job.payload.alertId else job.payload.reportId
  let channel ← job.payload.channelId
  let transition := match job.payload.transitionId with
    | none => ""
    | some id => ":" ++ id
  pure ((if alert then "notification:" else "report:") ++ source ++ ":" ++ channel ++ transition)

/-- The `WHERE` clause of `replayDeadLetter`. -/
def replayable (store : Store) (job : WorkflowJob) : Bool :=
  job.state == .deadLetter &&
    (job.jobType == "notification.deliver" || job.jobType == "report.notify") &&
    !store.deliveries.any fun d =>
      replayKey job == some d.businessKey && (d.state == .sending || d.state == .unknown)

def Store.replayDeadLetter (store : Store) (id : JobId) : Store × Bool :=
  store.update id (replayable store) fun job =>
    { job with
      state := .queued
      attempts := 0
      availableAt := store.now
      leaseOwner := none
      leaseExpiresAt := none
      lastError := none }

/-! ## What a keyed update does -/

variable {store : Store} {id other : JobId} {guard : WorkflowJob → Bool}
  {set : WorkflowJob → WorkflowJob} {job row : WorkflowJob}

theorem Store.update_won : (store.update id guard set).2 = true ↔
    ∃ job, store.jobs.get id = some job ∧ guard job = true := by
  simp only [Store.update, beq_iff_eq]
  exact Table.affected_iff

theorem Store.update_refused (refused : (store.update id guard set).2 = false) :
    (store.update id guard set).1 = store := by
  simp only [Store.update, beq_eq_false_iff_ne, ne_eq] at refused ⊢
  rw [Table.updateWhere_of_not_affected refused]

theorem Store.update_get (found : store.jobs.get id = some job) (pass : guard job = true) :
    (store.update id guard set).1.jobs.get other =
      if other = id then some (set job) else store.jobs.get other := by
  simp only [Store.update, Table.updateWhere_of_pass found pass, Table.get_put]

theorem Store.of_enqueue_get {input : WorkflowJobInput}
    (after : (store.enqueue input).jobs.get other = some row) :
    store.jobs.get other = some row ∨
      other = input.id ∧ store.jobs.get other = none ∧ row = input.row store.now := by
  unfold Store.enqueue at after
  split at after
  next => exact .inl after
  next =>
    simp only [Table.get_insertNew] at after
    split at after
    next fresh =>
      exact .inr ⟨fresh.1, by rw [fresh.1]; exact fresh.2, (some.inj after).symm⟩
    next => exact .inl after

theorem Store.enqueue_get_of_some {input : WorkflowJobInput}
    (found : store.jobs.get other = some row) :
    (store.enqueue input).jobs.get other = some row := by
  unfold Store.enqueue
  split
  next => exact found
  next =>
    simp only [Table.get_insertNew]
    split
    next fresh => rw [fresh.1, fresh.2] at found; cases found
    next => exact found

theorem holds_iff {workerId : WorkerId} {fencingToken : Nat} :
    holds store workerId fencingToken job = true ↔
      job.state = .running ∧ job.leaseOwner = some workerId ∧
        job.fencingToken = fencingToken ∧
        ∃ expires, job.leaseExpiresAt = some expires ∧ store.now < expires := by
  simp only [holds, Bool.and_eq_true, beq_iff_eq, Option.any_eq_true, decide_eq_true_eq, and_assoc]

theorem eligible_claimable (pass : eligible store job = true) : job.state.claimable = true := by
  simp only [eligible, Bool.and_eq_true] at pass
  exact pass.1.1.1

end Slide.Workflows
