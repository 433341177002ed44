import Slide.Library.Binary64
import Slide.Library.Fallible
import Slide.Workflows.Worker

/-!
# The collection schedule

`MysqlScheduleStore` of `metrics/scheduler/store.ts`: one row of `metric_schedule` for each resource
names the job that may collect it, and `workflow_jobs` holds the jobs.  A transaction takes the
policy publication lock first, so transactions and publications follow one another; only the
statements of the queue run beside them.  `begin` and `commit` are transactions of their own, and
anything may happen in between.

Times of the schedule are milliseconds of the worker's own clock, those of the queue are seconds of
the database.  The policy resolver, the plan compiler and the writer of the observations are taken
by their answers: nothing below depends on how they come to them.  The manual collection, which
writes neither `job_id` nor `next_due_ms`, and the rollout tickets are left out.
-/

namespace Slide.Scheduler

open Slide.Workflows

inductive ResourceType
  | databaseInstance | server | networkDevice
deriving DecidableEq

def ResourceType.name : ResourceType → String
  | .databaseInstance => "instance"
  | .server => "server"
  | .networkDevice => "network_device"

structure Ref where
  resourceType : ResourceType
  id : Nat
deriving DecidableEq

def refKey (ref : Ref) : String := ref.resourceType.name ++ ":" ++ toString ref.id

inductive ApplicationStatus
  | pending | applied | failed
deriving DecidableEq

structure Applied where
  (appliedRevision reportedAt : Option Nat)
  status : ApplicationStatus

/-- A published single-package binding. -/
structure Published (Resolved : Type) where
  resource : Ref
  revision : Nat
  resolved : Resolved
  publishedAt : Nat
  application : Applied

/-- What the schedule reads of `CollectorPlan`. -/
structure CollectorPlan where
  revision : Nat
  resource : Ref
  (intervalMs jitterMs : Nat)

/-- A decoded template binding with its pending plan; `jitterMs` is the hash the schedule takes of
the resource and the plan's first release. -/
structure TemplateBinding where
  resource : Ref
  (revision publishedAt : Nat)
  enabled : Bool
  (intervalMs jitterMs : Nat)

/-- `readStoredBinding` of a row of `metric_policy_bindings`. -/
inductive StoredBinding (Resolved : Type)
  | package (published : Published Resolved)
  | template (decoded : TemplateBinding)

def StoredBinding.revision {Resolved : Type} : StoredBinding Resolved → Nat
  | .package published => published.revision
  | .template decoded => decoded.revision

/-- A row of `metric_schedule`. -/
structure ScheduleRow (CounterState : Type) where
  (revision nextDueMs : Nat)
  lastEndMs : Option Nat
  jobId : Option JobId
  states : Table String CounterState

inductive RolloutPhase
  | shadow | cutoverPending | semantic | legacy
deriving DecidableEq

/-- A row of `metric_rollout_resources`. -/
structure Coordination where
  phase : RolloutPhase
  revision : Nat

/-- What the store asks of the asset itself: its access lifecycle and its collection switch. -/
structure Asset where
  available : Bool := true
  collectionEnabled : Bool := true

/-- The compiler of single-package plans, and the one setting the schedule reads directly. -/
structure Compiler (Resolved : Type) where
  compilePlan : Resolved → Except String CollectorPlan
  enabled : Resolved → Bool

structure JobExecutionContext where
  workerId : WorkerId
  fencingToken : Nat
  /-- The reason of the signal, once aborted. -/
  aborted : Option String := none

def JobExecutionContext.throwIfAborted (ctx : JobExecutionContext) : Except String Unit :=
  match ctx.aborted with
  | some reason => .error reason
  | none => .ok ()

/-- What `beginTemplate` hands to the worker. -/
structure TemplateSnapshot (CounterState : Type) where
  decoded : TemplateBinding
  states : Table String CounterState

/-- What a worker has begun, and under which job. -/
inductive Begun (CounterState : Type)
  | package (plan : CollectorPlan)
  | template (snapshot : TemplateSnapshot CounterState)

/-- The tables, the queue with its workers, and what the schedule has handed out: `issued` are the
job ids drawn so far and `begun` the snapshots in the hands of workers.  `batches` is the content of
the observation store, one entry for each transaction that wrote to it. -/
structure State (Resolved CounterState Batch : Type) where
  queue : System
  bindings : Table Ref (StoredBinding Resolved)
  schedule : Table Ref (ScheduleRow CounterState)
  rollout : Table Ref Coordination
  assets : Ref → Asset
  batches : List (JobId × Batch)
  issued : List JobId
  begun : List (WorkerId × ClaimedJob × Begun CounterState)

variable {Resolved CounterState Batch : Type}

variable (s : State Resolved CounterState Batch)

namespace State

def initial : State Resolved CounterState Batch where
  queue := .initial
  bindings := .empty
  schedule := .empty
  rollout := .empty
  assets := fun _ => {}
  batches := []
  issued := []
  begun := []

/-! ## Reads -/

/-- `current`: a template row is an error for the single-package path. -/
def current (ref : Ref) :
    Except String (Option (Published Resolved)) :=
  match s.bindings.get ref with
  | none => .ok none
  | some (.package published) => .ok (some published)
  | some (.template _) => .error "TEMPLATE_BINDING_UNSUPPORTED"

def currentTemplate (ref : Ref) :
    Except String (Option TemplateBinding) :=
  match s.bindings.get ref with
  | some (.template decoded) => .ok (some decoded)
  | _ => .ok none

/-- `instanceAccessLifecycle.assertAvailable`, asked for database instances only. -/
def assertAvailable (ref : Ref) : Except String Unit :=
  if ref.resourceType = .databaseInstance ∧ !(s.assets ref).available then
    .error "INSTANCE_REMOVED"
  else .ok ()

def assetCollectionEnabled (ref : Ref) : Bool :=
  (s.assets ref).collectionEnabled

/-- The running job row with this owner, token and an unexpired lease. -/
def leased (id : JobId) (ctx : JobExecutionContext) : Bool :=
  (s.queue.store.jobs.get id).any (holds s.queue.store ctx.workerId ctx.fencingToken)

/-- The schedule row under `resource_key = ? AND revision = ? AND job_id = ?`. -/
def scheduled (ref : Ref) (revision : Nat) (id : JobId) :
    Option (ScheduleRow CounterState) :=
  (s.schedule.get ref).filter fun row => row.revision == revision && row.jobId == some id

/-- The live fence of both paths, around the binding that `current` reads. -/
def fenced {Binding : Type} (s : State Resolved CounterState Batch)
    (current : Except String (Option Binding)) (revisionOf : Binding → Nat) (ref : Ref)
    (revision : Nat) (job : ClaimedJob) (ctx : JobExecutionContext) :
    Except String (Option Binding) := do
  ctx.throwIfAborted
  s.assertAvailable ref
  if !s.assetCollectionEnabled ref then return none
  let some binding ← current | return none
  if revisionOf binding ≠ revision then return none
  if !s.leased job.id ctx then return none
  if (s.scheduled ref revision job.id).isNone then return none
  return some binding

def valid (ref : Ref) (revision : Nat) (job : ClaimedJob)
    (ctx : JobExecutionContext) : Except String (Option (Published Resolved)) :=
  s.fenced (s.current ref) Published.revision ref revision job ctx

def validTemplate (ref : Ref) (revision : Nat)
    (job : ClaimedJob) (ctx : JobExecutionContext) : Except String (Option TemplateBinding) :=
  s.fenced (s.currentTemplate ref) TemplateBinding.revision ref revision job ctx

/-! ## Enqueue -/

/-- `dueMetricIds` for the one cycle of a resource: `now - last >= interval / 1000 * 1000`, in
doubles. -/
def cycleDue (intervalMs lastEndMs now : Nat) : Bool :=
  decide (Binary64.ofInt intervalMs / 1000 * 1000 ≤ Binary64.ofInt ((now : Int) - lastEndMs))

/-- The due time and the pending job a schedule row stands for under `revision`. -/
def slot (row : Option (ScheduleRow CounterState)) (revision jitterMs intervalMs now : Nat) :
    Nat × Option JobId :=
  match row with
  | none => (now + jitterMs, none)
  | some row =>
    if row.revision ≠ revision then
      (match row.lastEndMs with
        | none => now + jitterMs
        | some ended => ended + intervalMs, none)
    else (row.nextDueMs, row.jobId)

/-- `INSERT … ON DUPLICATE KEY UPDATE`: counter states survive only within a revision, the last end
always. -/
def upsert (row : Option (ScheduleRow CounterState)) (revision nextDueMs : Nat)
    (pending : Option JobId) : ScheduleRow CounterState :=
  match row with
  | none => ⟨revision, nextDueMs, none, none, .empty⟩
  | some row =>
    { row with
      revision, nextDueMs, jobId := pending
      states := if row.revision = revision then row.states else .empty }

def jobType : String := "metrics.collect"

/-- The job of one slot.  The queue rounds `new Date(now)` to its own seconds. -/
def jobInput (ref : Ref) (now : Nat) (id : JobId) : WorkflowJobInput where
  id
  jobType
  payload := {}
  idempotencyKey := "metric:" ++ refKey ref ++ ":" ++ id
  maxAttempts := some 3
  availableAt := some ((now + 500) / 1000)

/-- The end of both `enqueue` transactions: write the row, and queue a job when it is due. -/
def queueDue (ref : Ref) (revision nextDueMs : Nat)
    (pending : Option JobId) (intervalMs now : Nat) (id : JobId) :
    State Resolved CounterState Batch × Bool :=
  let row := upsert (s.schedule.get ref) revision nextDueMs pending
  let written := { s with schedule := s.schedule.put ref row }
  if now < nextDueMs then (written, false)
  else if ((s.schedule.get ref).bind (·.lastEndMs)).any (!cycleDue intervalMs · now) then
    (written, false)
  else
    ({ s with
      schedule := s.schedule.put ref { row with jobId := some id }
      queue := { s.queue with store := s.queue.store.enqueue (jobInput ref now id) }
      issued := id :: s.issued }, true)

/-- `['completed', 'dead_letter', 'cancelled'].includes(state)`. -/
def terminal : WorkflowState → Bool
  | .completed | .deadLetter | .cancelled => true
  | _ => false

/-- The part both `enqueue` transactions share, from the read of the schedule row on. -/
def fillSlot (ref : Ref)
    (revision jitterMs intervalMs now : Nat) (id : JobId) :
    State Resolved CounterState Batch × Bool :=
  let (next, pending) := slot (s.schedule.get ref) revision jitterMs intervalMs now
  match pending with
  | none => s.queueDue ref revision next none intervalMs now id
  | some pending =>
    if (s.queue.store.jobs.get pending).any (!terminal ·.state) then (s, false)
    -- Exhausted retries resume at the next normal cadence.
    else s.queueDue ref revision (max next (now + intervalMs)) none intervalMs now id

variable (compiler : Compiler Resolved)

def enqueue (s : State Resolved CounterState Batch) (input : StoredBinding Resolved) (now : Nat)
    (id : JobId) : Except String (State Resolved CounterState Batch × Bool) := do
  let .package published := input | throw "TEMPLATE_BINDING_UNSUPPORTED"
  let ref := published.resource
  if (s.assertAvailable ref).toOption.isNone then return (s, false)
  let plan ← compiler.compilePlan published.resolved
  if ¬ (plan.revision = published.revision ∧ plan.resource = ref) then throw "PLAN_IDENTITY"
  let some current ← s.current ref | return (s, false)
  if current.revision ≠ plan.revision then return (s, false)
  if !s.assetCollectionEnabled ref then return (s, false)
  if !compiler.enabled current.resolved ∧ current.application.status = .applied ∧
      current.application.appliedRevision = some plan.revision then return (s, false)
  if (s.rollout.get ref).any fun c => c.phase == .legacy && decide (plan.revision ≤ c.revision) then
    return (s, false)
  return s.fillSlot ref plan.revision plan.jitterMs plan.intervalMs now id

def enqueueTemplate (s : State Resolved CounterState Batch) (item : TemplateBinding) (now : Nat)
    (id : JobId) : Except String (State Resolved CounterState Batch × Bool) := do
  let ref := item.resource
  if !item.enabled then return (s, false)
  if (s.assertAvailable ref).toOption.isNone then return (s, false)
  let some current ← s.currentTemplate ref | return (s, false)
  if current.revision ≠ item.revision then return (s, false)
  if !s.assetCollectionEnabled ref then return (s, false)
  return s.fillSlot ref item.revision item.jitterMs item.intervalMs now id

/-! ## Begin -/

/-- `begin`: `effective` is what the policy resolver makes of the binding, its group, its
capabilities and the resource at this moment. -/
def beginPackage (s : State Resolved CounterState Batch) (ref : Ref) (revision : Nat)
    (job : ClaimedJob) (ctx : JobExecutionContext) (now : Nat)
    (effective : Except String Resolved) :
    Except String (State Resolved CounterState Batch × Bool) := do
  let some published ← s.valid ref revision job ctx | return (s, false)
  let plan ← effective >>= compiler.compilePlan
  if ((s.schedule.get ref).bind (·.jobId)) ≠ some job.id then return (s, false)
  if ¬ (published.publishedAt ≤ now ∧ published.application.reportedAt.all (decide <| · ≤ now)) then
    throw "SCHEDULE_APPLICATION_TIME"
  let applied : Applied := ⟨some revision, some now, .applied⟩
  return ({ s with
    bindings := s.bindings.put ref (.package { published with application := applied })
    begun := (ctx.workerId, job, .package plan) :: s.begun }, true)

def beginTemplate (s : State Resolved CounterState Batch) (ref : Ref) (revision : Nat)
    (job : ClaimedJob) (ctx : JobExecutionContext) (now : Nat) :
    Except String (State Resolved CounterState Batch × Bool) := do
  let some decoded ← s.validTemplate ref revision job ctx | return (s, false)
  let some row := s.scheduled ref revision job.id | return (s, false)
  if now < decoded.publishedAt then throw "SCHEDULE_APPLICATION_TIME"
  return ({ s with
    begun := (ctx.workerId, job, .template ⟨decoded, row.states⟩) :: s.begun }, true)

/-! ## Commit -/

/-- The clock of the database moves on. -/
def tick (s : State Resolved CounterState Batch) (now : Nat) : State Resolved CounterState Batch :=
  { s with queue := { s.queue with store := { s.queue.store with now } } }

/-- `UPDATE metric_schedule SET states = ?, job_id = NULL, last_end_ms = ?, next_due_ms = ?`. -/
def finishCycle (s : State Resolved CounterState Batch) (ref : Ref) (id : JobId) (batch : Batch)
    (states : Table String CounterState) (now intervalMs : Nat) :
    State Resolved CounterState Batch :=
  { s with
    batches := s.batches ++ [(id, batch)]
    schedule := (s.schedule.updateWhere ref (fun _ => true) fun row =>
      { row with
        states, jobId := none, lastEndMs := some now, nextDueMs := now + intervalMs }).1 }

/-- Both commits: the fence, the writer, and the fence again at a later time of the database.
`written` is the writer's answer; a signal or an asset that fails meanwhile throws as a failed
writer does. -/
def commitFenced {Binding : Type} (s : State Resolved CounterState Batch)
    (valid : State Resolved CounterState Batch → Except String (Option Binding)) (ref : Ref)
    (id : JobId) (states : Table String CounterState) (intervalMs : Nat)
    (written : Except String Batch) (now later : Nat) :
    Except String (State Resolved CounterState Batch × Bool) := do
  let some _ ← valid s | return (s, false)
  if ((s.schedule.get ref).bind (·.jobId)) ≠ some id then return (s, false)
  let batch ← written
  let some _ ← valid (s.tick later) | throw "SCHEDULE_STALE_EXECUTION"
  return ((s.tick later).finishCycle ref id batch states now intervalMs, true)

/-- `commit`: the states of the result replace the stored ones. -/
def commitPackage (s : State Resolved CounterState Batch) (plan : CollectorPlan)
    (states : Table String CounterState) (written : Except String Batch) (job : ClaimedJob)
    (ctx : JobExecutionContext) (now later : Nat) :
    Except String (State Resolved CounterState Batch × Bool) :=
  s.commitFenced (·.valid plan.resource plan.revision job ctx) plan.resource job.id states
    plan.intervalMs written now later

/-- `new Map(snapshot.states)` with the entries of every result set over it. -/
def overlay (states : Table String CounterState) (results : List (List (String × CounterState))) :
    Table String CounterState :=
  results.foldl (fun states result => result.foldl (fun t entry => t.put entry.1 entry.2) states)
    states

def commitTemplate (s : State Resolved CounterState Batch) (snapshot : TemplateSnapshot CounterState)
    (results : List (List (String × CounterState))) (written : Except String Batch)
    (job : ClaimedJob) (ctx : JobExecutionContext) (now later : Nat) :
    Except String (State Resolved CounterState Batch × Bool) :=
  s.commitFenced (·.validTemplate snapshot.decoded.resource snapshot.decoded.revision job ctx)
    snapshot.decoded.resource job.id (overlay snapshot.states results) snapshot.decoded.intervalMs
    written now later

end State

end Slide.Scheduler
