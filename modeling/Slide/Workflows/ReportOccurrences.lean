import Mathlib.Data.List.Dedup
import Slide.Library.Transaction
import Slide.Workflows.Store

/-!
# Occurrences of scheduled reports

`MysqlReportOccurrenceStore` of `workflows/report-occurrence-store.ts` over the queue of
`Slide.Workflows.Store`, one transaction at a time.  What `claim` has returned may be used at any later time,
in any order and any number of times, so that an owner may have lost its lease or stop anywhere.
-/

namespace Slide.ReportOccurrences

open Transaction
open Slide.Workflows (Store WorkflowJobInput ClaimFilter JobPayload)

/-! ## Rows -/

/-- `config_id` and `occurrence_at`, in seconds. -/
abbrev Slot := Nat × Nat

/-- `ReportConfig`, as far as an occurrence reads it. -/
structure ReportConfig where
  id : Nat
  (name type : String)
  (instanceId serverId : Option Nat)
  notificationChannelIds : List Int
  format : String
deriving DecidableEq

/-- `ReportOccurrence`; its time in milliseconds. -/
structure ReportOccurrence where
  (configId occurrenceAt : Nat)
deriving DecidableEq

/-- The row of an occurrence: a `DATETIME` column rounds to seconds. -/
def ReportOccurrence.slot (o : ReportOccurrence) : Slot := (o.configId, (o.occurrenceAt + 500) / 1000)

inductive OccurrenceState
  | queued | running | completed | failed
deriving DecidableEq

structure OccurrenceRow where
  state : OccurrenceState
  workflowJobId : String
  configSnapshot : ReportConfig
  leaseOwner : Option String
  fencingToken : Nat
  (stagedReportId reportId : Option Nat)
  lastError : Option String

inductive ReportStatus
  | pending | completed | failed
deriving DecidableEq

structure Report where
  (name type format : String)
  (instanceId serverId : Option Nat)
  (content data : Option String)
  generatedBy : Option Nat
  status : ReportStatus

/-- `CreateReportData`; `data` is what it is serialized to. -/
structure CreateReportData where
  (name type : String)
  format : Option String
  (instanceId serverId : Option Nat)
  (content data : Option String)
  generatedBy : Option Nat
  status : Option ReportStatus

def CreateReportData.values (d : CreateReportData) : Report where
  name := d.name
  type := d.type
  format := d.format.getD "html"
  instanceId := d.instanceId
  serverId := d.serverId
  content := d.content
  data := d.data
  generatedBy := d.generatedBy
  status := d.status.getD .pending

structure OutboxEvent where
  (eventType aggregateType aggregateId : String)
  payload : JobPayload
  published : Bool

structure Db where
  store : Store
  occurrences : Table Slot OccurrenceRow
  reports : Table Nat Report
  /-- The next `AUTO_INCREMENT` value of `reports`. -/
  nextReport : Nat
  /-- By idempotency key. -/
  outbox : Table String OutboxEvent
  /-- The completions that have been committed: an occurrence and its report. -/
  completions : List (Slot × Nat)

abbrev Tx (α : Type) := Body Db String α

/-- SHA-256 in hexadecimal, and `toISOString`. -/
structure Host where
  sha256 : String → String
  /-- A digest has 64 hexadecimal digits. -/
  hex : ∀ s, (sha256 s).toList.length = 64 ∧ ∀ c ∈ (sha256 s).toList, c.isDigit = true ∨ 'a' ≤ c ∧ c ≤ 'f'
  iso : Nat → String

/-- What `claim` returns. -/
structure OwnedReportOccurrence where
  occurrence : ReportOccurrence
  (jobId workerId : String)
  fencingToken : Nat
  config : ReportConfig
deriving DecidableEq

/-! ## Jobs -/

def slice (s : String) (first last : Nat) : String := String.ofList ((s.toList.take last).drop first)

def occurrenceKey (host : Host) (o : ReportOccurrence) : String :=
  "report-occurrence:" ++ toString o.configId ++ ":" ++ host.iso o.occurrenceAt

def createReportOccurrenceJob (host : Host) (o : ReportOccurrence) : WorkflowJobInput :=
  let hash := host.sha256 (occurrenceKey host o)
  { id := slice hash 0 8 ++ "-" ++ slice hash 8 12 ++ "-" ++ slice hash 12 16 ++ "-" ++ slice hash 16 20 ++ "-" ++
      slice hash 20 32
    jobType := "report.occurrence"
    payload := {}
    idempotencyKey := occurrenceKey host o
    maxAttempts := some 5
    availableAt := none }

/-- A job that notifies a channel of a report. -/
def notificationJob (reportId channelId : Nat) : WorkflowJobInput where
  id := s!"report-notify-{reportId}-{channelId}"
  jobType := "report.notify"
  payload := { reportId := some (toString reportId), channelId := some (toString channelId) }
  idempotencyKey := s!"report-notify:{reportId}:{channelId}"
  maxAttempts := some 5
  availableAt := none

def maxSafeInteger : Nat := 9007199254740991

/-- `createReportNotificationJob`, which throws where it is `none`. -/
def createReportNotificationJob (reportId : Nat) (channelId : Int) : Option WorkflowJobInput :=
  if 0 < reportId ∧ reportId ≤ maxSafeInteger ∧ 0 < channelId ∧ channelId ≤ maxSafeInteger then
    some (notificationJob reportId channelId.toNat)
  else none

/-! ## Statements -/

namespace Db

def setOccurrence (db : Db) (slot : Slot) (f : OccurrenceRow → OccurrenceRow) : Db :=
  { db with occurrences := (db.occurrences.updateWhere slot (fun _ => true) f).1 }

/-- `outbox.append`, the enqueued job and its publication. -/
def publish (db : Db) (reportId : Nat) (job : WorkflowJobInput) : Db :=
  let appended := db.outbox.insertNew job.idempotencyKey
    ⟨job.jobType, "report", toString reportId, job.payload, false⟩
  { db with
    store := db.store.enqueue job
    outbox := (appended.updateWhere job.idempotencyKey (fun _ => true) fun e => { e with published := true }).1 }

end Db

/-! ## Transactions -/

/-- `lockJob`: the job is running under this lease. -/
def lockJob (jobId workerId : String) (fencingToken : Nat) : Tx Unit := do
  let db ← reading id
  ensure
    ((db.store.jobs.get jobId).any fun job =>
      job.jobType = "report.occurrence" && job.state = .running && job.leaseOwner = some workerId &&
        job.fencingToken = fencingToken && job.leaseExpiresAt.any fun expires => db.store.now < expires)
    "REPORT_OCCURRENCE_LEASE_LOST"

/-- `transaction` with an owner, whose lease is checked once more before the commit. -/
def owned {α : Type} (jobId workerId : String) (fencingToken : Nat) (work : Tx α) : Tx α := do
  let result ← work
  lockJob jobId workerId fencingToken
  return result

variable (o : OwnedReportOccurrence)

def lock : Tx OccurrenceRow := do
  lockJob o.jobId o.workerId o.fencingToken
  let occurrences ← reading (·.occurrences)
  need
    ((occurrences.get o.occurrence.slot).filter fun row =>
      row.workflowJobId = o.jobId && row.leaseOwner = some o.workerId && row.fencingToken = o.fencingToken)
    "REPORT_OCCURRENCE_LEASE_LOST"

def schedule (host : Host) (o : ReportOccurrence) (config : ReportConfig) : Tx Bool := do
  let job := createReportOccurrenceJob host o
  write fun db =>
    -- `INSERT IGNORE`, under both unique keys
    if db.occurrences.toList.any (·.workflowJobId = job.id) then db
    else
      { db with
        occurrences := db.occurrences.insertNew o.slot ⟨.queued, job.id, config, none, 0, none, none, none⟩ }
  let occurrences ← reading (·.occurrences)
  if (occurrences.get o.slot).map (·.workflowJobId) ≠ some job.id then return false
  write fun db => { db with store := db.store.enqueue job }
  return true

def claim (o : ReportOccurrence) (jobId workerId : String) (fencingToken : Nat) :
    Tx (Option OwnedReportOccurrence) :=
  owned jobId workerId fencingToken do
    lockJob jobId workerId fencingToken
    let occurrences ← reading (·.occurrences)
    let row ← need ((occurrences.get o.slot).filter (·.workflowJobId = jobId)) "REPORT_OCCURRENCE_NOT_FOUND"
    if row.state = .completed then return none
    ensure (row.fencingToken ≤ fencingToken) "REPORT_OCCURRENCE_LEASE_LOST"
    write fun db => db.setOccurrence o.slot fun row =>
      { row with state := .running, leaseOwner := some workerId, fencingToken, lastError := none }
    return some ⟨o, jobId, workerId, fencingToken, row.configSnapshot⟩

/-- The report that a row has staged, if it is there. -/
def staged (row : OccurrenceRow) : Tx (Option (Nat × Report)) := do
  let reports ← reading (·.reports)
  return row.stagedReportId.bind fun id => (reports.get id).map fun report => (id, report)

def savedReport : Tx (Option (Nat × Report)) :=
  owned o.jobId o.workerId o.fencingToken do
    let row ← lock o
    let saved ← staged row
    ensure (¬(row.stagedReportId.isSome ∧ saved = none)) "REPORT_OCCURRENCE_CONTENT_MISSING"
    return saved

def createReport (data : CreateReportData) : Tx (Nat × Report) :=
  owned o.jobId o.workerId o.fencingToken do
    let row ← lock o
    ensure (row.state = .running) "REPORT_OCCURRENCE_NOT_RUNNING"
    let saved ← staged row
    match saved with
    | some (id, report) =>
      if report.status = .completed then return (id, report)
      write fun db => { db with reports := db.reports.put id data.values }
      return (id, data.values)
    | none =>
      ensure (row.stagedReportId = none) "REPORT_OCCURRENCE_CONTENT_MISSING"
      let id ← reading (·.nextReport)
      write fun db => { db with reports := db.reports.put id data.values, nextReport := id + 1 }
      write fun db => db.setOccurrence o.occurrence.slot fun row => { row with stagedReportId := some id }
      return (id, data.values)

def updateReport (id : Nat) (status : ReportStatus) (content data : Option String) :
    Tx Unit :=
  owned o.jobId o.workerId o.fencingToken do
    let row ← lock o
    ensure (row.state = .running ∧ row.stagedReportId = some id) "REPORT_OCCURRENCE_REPORT_MISMATCH"
    let reports ← reading (·.reports)
    let saved ← need ((reports.get id).filter (·.status ≠ .completed)) "REPORT_OCCURRENCE_CONTENT_IMMUTABLE"
    write fun db =>
      { db with
        reports := db.reports.put id
          { saved with status, content := content <|> saved.content, data := data <|> saved.data } }

/-- The notifications of `complete`, a channel at a time. -/
def publishAll (reportId : Nat) : List Int → Tx Unit
  | [] => pure ()
  | channelId :: rest => do
    let job ← need (createReportNotificationJob reportId channelId) "REPORT_NOTIFICATION_JOB_INVALID"
    write (·.publish reportId job)
    publishAll reportId rest

/-- A `Set` of the channels, in the order of their first occurrences. -/
def ReportConfig.channels (config : ReportConfig) : List Int := config.notificationChannelIds.reverse.dedup.reverse

def complete (reportId : Nat) : Tx Unit :=
  owned o.jobId o.workerId o.fencingToken do
    let row ← lock o
    ensure (row.state = .running ∧ row.stagedReportId = some reportId) "REPORT_OCCURRENCE_REPORT_MISMATCH"
    let reports ← reading (·.reports)
    ensure ((reports.get reportId).any (·.status = .completed)) "REPORT_GENERATION_INCOMPLETE"
    publishAll reportId o.config.channels
    write fun db =>
      { db.setOccurrence o.occurrence.slot fun row =>
          { row with state := .completed, reportId := some reportId, lastError := none } with
        completions := db.completions ++ [(o.occurrence.slot, reportId)] }

def fail (message : String) : Tx Unit :=
  owned o.jobId o.workerId o.fencingToken do
    let row ← lock o
    if row.state = .completed then return
    write fun db => db.setOccurrence o.occurrence.slot fun row =>
      { row with state := .failed, lastError := some (String.ofList (message.toList.take 4096)) }

/-! ## Runs -/

/-- A call of the store by an owner. -/
inductive Call
  | savedReport
  | createReport (data : CreateReportData)
  | updateReport (id : Nat) (status : ReportStatus) (content data : Option String)
  | complete (reportId : Nat)
  | fail (message : String)

/-- A statement of the queue. -/
inductive QueueStatement
  | enqueue (input : WorkflowJobInput)
  | claim (workerId : String) (leaseSeconds : Nat) (id : String)
  | heartbeat (id workerId : String) (fencingToken leaseSeconds : Nat)
  | complete (id workerId : String) (fencingToken : Nat)
  | fail (job : Slide.Workflows.ClaimedJob) (workerId message : String) (retryAt : Option Nat) (workerNow : Nat)
  | replay (id : String)

/-- Only `complete` makes jobs of this kind. -/
def ofNotification (input : WorkflowJobInput) : Bool :=
  input.jobType = "report.notify" || "report-notify-".toList.isPrefixOf input.id.toList ||
    "report-notify:".toList.isPrefixOf input.idempotencyKey.toList

def QueueStatement.run (store : Store) : QueueStatement → Store
  | .enqueue input => if ofNotification input then store else store.enqueue input
  | .claim workerId leaseSeconds id => (store.claimUpdate workerId leaseSeconds id).1
  | .heartbeat id workerId fencingToken leaseSeconds => (store.heartbeat id workerId fencingToken leaseSeconds).1
  | .complete id workerId fencingToken => (store.complete id workerId fencingToken).1
  | .fail job workerId message retryAt workerNow => (store.fail job workerId message retryAt workerNow).1
  | .replay id => (store.replayDeadLetter id).1

inductive Event
  | tick (seconds : Nat)
  | queue (statement : QueueStatement)
  /-- A report that belongs to no occurrence. -/
  | report (report : Report)
  | schedule (o : ReportOccurrence) (config : ReportConfig) (commit : Commit)
  | claim (o : ReportOccurrence) (jobId workerId : String) (fencingToken : Nat) (commit : Commit)
  | call (o : OwnedReportOccurrence) (call : Call) (commit : Commit)

structure World where
  db : Db
  /-- What `claim` has returned so far. -/
  owned : List OwnedReportOccurrence

variable (host : Host)

/-- A call of an owner, with its commit. -/
def Call.run (db : Db) (o : OwnedReportOccurrence) (commit : Commit) : Call → Db
  | .savedReport => (perform (ReportOccurrences.savedReport o) commit db).2
  | .createReport data => (perform (ReportOccurrences.createReport o data) commit db).2
  | .updateReport id status content data => (perform (ReportOccurrences.updateReport o id status content data) commit db).2
  | .complete reportId => (perform (ReportOccurrences.complete o reportId) commit db).2
  | .fail message => (perform (ReportOccurrences.fail o message) commit db).2

def World.step (w : World) : Event → World
  | .tick seconds => { w with db := { w.db with store := { w.db.store with now := w.db.store.now + seconds } } }
  | .queue statement => { w with db := { w.db with store := statement.run w.db.store } }
  | .report report =>
    { w with
      db := { w.db with reports := w.db.reports.put w.db.nextReport report, nextReport := w.db.nextReport + 1 } }
  | .schedule o config commit => { w with db := (perform (schedule host o config) commit w.db).2 }
  | .claim o jobId workerId fencingToken commit =>
    let done := perform (claim o jobId workerId fencingToken) commit w.db
    ⟨done.2, w.owned ++ (done.1.bind id).toList⟩
  | .call o call commit => if o ∈ w.owned then { w with db := call.run w.db o commit } else w

def initial : World := ⟨⟨⟨0, Table.empty, []⟩, Table.empty, Table.empty, 1, Table.empty, []⟩, []⟩

def reached (events : List Event) : World := events.foldl (World.step host) initial

end Slide.ReportOccurrences
