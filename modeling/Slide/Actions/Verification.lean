import Slide.Actions.Evidence
import Slide.Library.Versioned

/-!
# Verification of an action

`prepare` and `run` of `verification-service.ts` and `ActionVerificationStore.append`, for one execution.
Every transaction locks the row of the execution first, so they follow one another; between them any
worker may take its next step.  What a report hashes of itself, and the decoding that checks it, are
left out: a stored report is read back as it was written.
-/

namespace Slide.Actions

/-! ## Reports -/

/-- The fields that no version of a report changes. -/
structure ReportIdentity where
  (id executionId planId : String)
  planVersion : Nat
  investigationId : String
  (resultVersion schemaVersion : Nat)
  (planHash definitionHash verifierHash : String)
  registeredAt : Int
  investigationVersion : Nat
  requestId : Option String
  validUntil : Int
deriving DecidableEq

structure VerificationReport where
  identity : ReportIdentity
  version : Nat
  state : ReportState
  reason : Option String
  evidence : List String
  missingSamples : Nat
  (before readiness observation : List SampleSlot)
  (executionSentAt observedFrom observedUntil : Option Int)
  createdAt : Int
deriving DecidableEq

def ReportState.final (s : ReportState) : Bool :=
  s = .passed || s = .failed || s = .inconclusive

inductive SlotKind
  | readiness | observation
deriving DecidableEq

variable (r : VerificationReport)

def VerificationReport.slots : SlotKind → List SampleSlot
  | .readiness => r.readiness
  | .observation => r.observation

/-- `[kind]: [...latest[kind], slot]`. -/
def VerificationReport.push (kind : SlotKind) (slot : SampleSlot) :
    VerificationReport :=
  match kind with
  | .readiness => { r with readiness := r.readiness ++ [slot] }
  | .observation => { r with observation := r.observation ++ [slot] }

/-! ## The rows -/

inductive ExecutionState
  | queued | prechecking | dispatching | succeeded | failed | cancelled | outcome_unknown
deriving DecidableEq

/-- What verification reads of a row of `action_executions`. -/
structure Execution where
  (id operationId : String)
  state : ExecutionState
  (sentAt cancelRequestedAt : Option Int)
  receipt : Option ActionReceipt
  receiptHash : Option String

/-- What verification reads of an investigation, its latest result and its latest request. -/
structure Investigation where
  version : Nat
  closed : Bool
  resultVersion : Option Nat
  requestId : Option String

/-- What an execution is verified with: its plan, whose content is never rewritten, the adapter and
`operationsContentHash`. -/
structure Verification where
  plan : ActionPlan
  definition : VerificationDefinition
  definitionHash : String
  verifierHash : Verifier → String
  receiptHash : ActionReceipt → String
  slotsHash : List SampleSlot → String
  evidenceHash : List String → String

structure Db where
  execution : Execution
  investigation : Investigation
  reports : List VerificationReport

variable (v : Verification)

/-- `ActionVerificationStore.latest`: the row of the highest version. -/
def latest (reports : List VerificationReport) : Option VerificationReport :=
  Versioned.latest (·.version) reports

variable (db : Db)

/-- The last check of `ActionVerificationStore.binding`. -/
def Verification.binding : Except String Unit :=
  if db.execution.state = .succeeded ∧
      (db.execution.receiptHash = none ∨
        db.execution.receipt.map v.receiptHash ≠ db.execution.receiptHash) then
    .error preconditionFailed
  else .ok ()

def Verification.assertChain (report : VerificationReport) (execution : Execution) : Except String Unit :=
  let i := report.identity
  if i.executionId ≠ execution.id ∨ i.planId ≠ v.plan.id ∨ i.planVersion ≠ v.plan.version ∨
      i.planHash ≠ v.plan.contentHash ∨ i.investigationId ≠ v.plan.content.investigationId ∨
      i.resultVersion ≠ v.plan.content.resultVersion ∨
      i.definitionHash ≠ v.plan.content.verifier.definitionHash ∨
      i.verifierHash ≠ v.verifierHash v.plan.content.verifier then
    .error preconditionFailed
  else .ok ()

/-- Whether a list of slots neither keeps nor extends by one the list before it. -/
def Verification.rewrites (old new : List SampleSlot) : Bool :=
  new.length < old.length || old.length + 1 < new.length ||
    v.slotsHash (new.take old.length) ≠ v.slotsHash old

/-- What `append` refuses of a version after another. -/
def Verification.conflicts (previous value : VerificationReport) : Bool :=
  v.slotsHash previous.before ≠ v.slotsHash value.before ||
    v.evidenceHash previous.evidence ≠ v.evidenceHash value.evidence ||
    (previous.executionSentAt ≠ none && previous.executionSentAt ≠ value.executionSentAt) ||
    v.rewrites previous.readiness value.readiness || v.rewrites previous.observation value.observation

/-- Whether a version comes next. -/
def follows (previous : Option VerificationReport) (value : VerificationReport) : Bool :=
  match previous with
  | none => value.version = 1
  | some p => p.version + 1 = value.version && !p.state.final

def Verification.append (value : VerificationReport) : Except String Db :=
  let previous := latest db.reports
  if !follows previous value then .error versionConflict
  else if previous.any (·.identity ≠ value.identity) then .error preconditionFailed
  else if value.before.length ≠ 13 ∨ 6 < value.readiness.length ∨ 30 < value.observation.length ∨
      previous.any (v.conflicts · value) = true then .error preconditionFailed
  else .ok { db with reports := db.reports ++ [value] }

/-! ## `prepare` -/

def Verification.assertPlan : Except String Unit :=
  v.definition.assertPlan v.definitionHash v.plan

/-- Whether an execution can still be registered. -/
def Execution.unsent (e : Execution) : Bool :=
  e.sentAt = none && (e.state = .queued || e.state = .prechecking)

/-- The first transaction of `prepare`: the time of registration, unless there is a report. -/
def Verification.prepareRead (now : Int) : Except String (Option Int) := do
  v.binding db
  v.assertPlan
  match latest db.reports with
  | some prior => (v.assertChain prior db.execution).map fun _ => none
  | none => if db.execution.unsent then .ok (some now) else .error preconditionFailed

/-- The first version of a report. -/
def Verification.register (registeredAt validUntil now : Int) (before : List SampleSlot) :
    VerificationReport where
  identity := {
    id := db.execution.id
    executionId := db.execution.id
    planId := v.plan.id
    planVersion := v.plan.version
    investigationId := v.plan.content.investigationId
    resultVersion := v.plan.content.resultVersion
    schemaVersion := 1
    planHash := v.plan.contentHash
    definitionHash := v.definitionHash
    verifierHash := v.verifierHash v.plan.content.verifier
    registeredAt
    investigationVersion := db.investigation.version
    requestId := db.investigation.requestId
    validUntil }
  version := 1
  state := .pending
  reason := none
  evidence := []
  missingSamples := before.countP (·.sample = none)
  before
  readiness := []
  observation := []
  executionSentAt := none
  observedFrom := none
  observedUntil := none
  createdAt := now

/-- The second transaction of `prepare`, with what was read of the time before `registeredAt`. -/
def Verification.prepareWrite (registeredAt : Int) (history : List HealthSample) (now : Int) :
    Except String Db := do
  v.binding db
  v.assertPlan
  if (latest db.reports).isSome then .ok db
  else if db.execution.unsent = false ∨
      db.investigation.resultVersion ≠ some v.plan.content.resultVersion ∨
      db.investigation.closed = true then .error preconditionFailed
  else
    match v.plan.content.evidence.min? with
    | none => .error "RangeError"
    | some validUntil =>
      v.append db
        (v.register db registeredAt validUntil now (v.definition.before history registeredAt))

/-! ## `run` -/

/-- The slot that a worker waits for, with the report it read. -/
structure Wait where
  report : VerificationReport
  kind : SlotKind
  nextAt : Int
deriving DecidableEq

/-- `save`, after which the call returns. -/
def Verification.save (now : Int) (value : VerificationReport) :
    Except String (Db × Option Wait) :=
  (v.append db { value with version := value.version + 1, createdAt := now }).map (·, none)

/-- A report that cannot be measured. -/
def VerificationReport.inconclusive (reason : String) : VerificationReport :=
  { r with state := .inconclusive, reason := some reason, missingSamples := max 1 r.missingSamples }

/-- The first readiness slot that shows the new invocation healthy. -/
def VerificationReport.ready (r : VerificationReport) (receipt : ActionReceipt) : Option SampleSlot :=
  r.readiness.find? (·.shows receipt.after)

/-- The report of a target that never became ready. -/
def VerificationReport.timeout : VerificationReport :=
  { r with
    state := if r.missingSamples ≠ 0 then .inconclusive else .failed
    reason := some (if r.missingSamples ≠ 0 then "MISSING_SAMPLES" else "READINESS_TIMEOUT") }

/-- The report of a full observation. -/
def VerificationReport.conclude (receipt : ActionReceipt) (ready : SampleSlot)
    (sentAt : Option Int) : VerificationReport :=
  let verdict := evaluateActionEffect r.before r.readiness r.observation receipt
  { r with
    state := verdict.state
    reason := verdict.reason
    missingSamples := verdict.missingSamples
    observedFrom := some ready.at_
    observedUntil := r.observation.getLast?.map (·.at_)
    executionSentAt := sentAt }

/-- The slot after those of one kind. -/
def VerificationReport.wait (kind : SlotKind) (start : Int) : Wait :=
  ⟨r, kind, start + ((r.slots kind).length + 1) * 10000⟩

/-- The rest of the first transaction of a round, for an execution that was sent and succeeded. -/
def Verification.measure (report : VerificationReport) (sent now : Int) :
    Except String (Db × Option Wait) := do
  let receipt ← checkedActionReceipt db.execution.receipt db.execution.operationId v.plan
  match report.before.getLast? with
  | none => .error "TypeError"
  | some baseline =>
    if sent < report.identity.registeredAt ∨ sent < baseline.at_ ∨ 10000 < sent - baseline.at_ then
      v.save db now (report.inconclusive "BEFORE_WINDOW_NOT_ADJACENT")
    else
      match report.ready receipt with
      | none =>
        if 6 ≤ report.readiness.length then v.save db now report.timeout
        else .ok (db, some (report.wait .readiness sent))
      | some ready =>
        if report.observation.length = 30 then
          v.save db now (report.conclude receipt ready db.execution.sentAt)
        else .ok (db, some (report.wait .observation ready.at_))

/-- The first transaction of a round, for a report that is not final. -/
def Verification.proceed (report : VerificationReport) (now : Int) :
    Except String (Db × Option Wait) :=
  let e := db.execution
  if (e.state = .queued ∨ e.state = .prechecking ∨ e.state = .dispatching) ∧
      e.cancelRequestedAt = none then .error preconditionFailed
  else
    match e.sentAt with
    | none => v.save db now (report.inconclusive "EXECUTION_NOT_CONFIRMED")
    | some sent =>
      if e.state ≠ .succeeded ∨ e.cancelRequestedAt ≠ none then
        v.save db now (report.inconclusive "EXECUTION_NOT_CONFIRMED")
      else v.measure db report sent now

/-- The first transaction of a round of `run`: the slot to wait for, or none when the call returns. -/
def Verification.runRead (now : Int) : Except String (Db × Option Wait) := do
  v.binding db
  match latest db.reports with
  | none => .error preconditionFailed
  | some report => do
    v.assertChain report db.execution
    v.assertPlan
    if report.state.final then .ok (db, none) else v.proceed db report now

/-- The second transaction of a round, after the wait. -/
def Verification.recheck (wait : Wait) : Except String Unit := do
  v.binding db
  v.assertChain wait.report db.execution

/-- The third transaction of a round: nothing, when another worker has committed first. -/
def Verification.runWrite (wait : Wait) (slot : SampleSlot) (now : Int) : Except String Db := do
  v.binding db
  match latest db.reports with
  | none => .ok db
  | some report =>
    if report.version ≠ wait.report.version then .ok db
    else do
      v.assertChain report db.execution
      v.append db { report.push wait.kind slot with
        state := .observing
        version := report.version + 1
        missingSamples := report.missingSamples + if slot.sample = none then 1 else 0
        executionSentAt := db.execution.sentAt
        createdAt := now }

/-! ## Workers -/

/-- Where a worker is; a call of `run` counts the rounds it has ended. -/
inductive Phase
  | idle
  | prepared (registeredAt : Int)
  | running (rounds : Nat)
  | waiting (rounds : Nat) (wait : Wait)
  | sampling (rounds : Nat) (wait : Wait)
deriving DecidableEq

abbrev WorkerId := Nat

structure State where
  db : Db
  worker : WorkerId → Phase

/-- `now` is the clock of the database and `clock` the one of the worker. -/
inductive Event
  | prepareRead (w : WorkerId) (now : Int)
  | prepareWrite (w : WorkerId) (history : List HealthSample) (now : Int)
  | call (w : WorkerId)
  | runRead (w : WorkerId) (now : Int)
  | recheck (w : WorkerId) (clock : Int)
  | runWrite (w : WorkerId) (clock : Int) (reading : Reading) (now : Int)
  /-- The worker stops, or its transaction fails or is not acknowledged. -/
  | stop (w : WorkerId)
  /-- A transaction of the executor; none changes an execution that has succeeded. -/
  | execute (execution : Execution)
  | investigate (investigation : Investigation)

def State.goto (s : State) (w : WorkerId) (phase : Phase) : State :=
  { s with worker := Function.update s.worker w phase }

/-- A transaction that throws ends the call and writes nothing. -/
def State.commit {α : Type} (s : State) (w : WorkerId) (tx : Except String α)
    (next : α → Db × Phase) : State :=
  match tx with
  | .error _ => s.goto w .idle
  | .ok a => { s.goto w (next a).2 with db := (next a).1 }

/-- The slot that a worker brings: it does not read once the time has passed. -/
def Verification.slotOf (wait : Wait) (clock : Int) (reading : Reading) : SampleSlot :=
  if 1000 < clock - wait.nextAt then ⟨wait.nextAt, none⟩
  else v.definition.sample reading wait.nextAt

/-- One step, when the worker is where the event takes place. -/
def Verification.after (s : State) : Event → Option State
  | .prepareRead w now =>
    if s.worker w = .idle then
      some (s.commit w (v.prepareRead s.db now) fun at_ => (s.db, at_.elim .idle .prepared))
    else none
  | .prepareWrite w history now =>
    match s.worker w with
    | .prepared registeredAt =>
      some (s.commit w (v.prepareWrite s.db registeredAt history now) fun db => (db, .idle))
    | _ => none
  | .call w => if s.worker w = .idle then some (s.goto w (.running 0)) else none
  | .runRead w now =>
    match s.worker w with
    | .running rounds =>
      some (s.commit w (v.runRead s.db now) fun r => (r.1, r.2.elim .idle (.waiting rounds)))
    | _ => none
  | .recheck w clock =>
    match s.worker w with
    | .waiting rounds wait =>
      if clock < wait.nextAt then none
      else some (s.commit w (v.recheck s.db wait) fun _ => (s.db, .sampling rounds wait))
    | _ => none
  | .runWrite w clock reading now =>
    match s.worker w with
    | .sampling rounds wait =>
      some (s.commit w (v.runWrite s.db wait (v.slotOf wait clock reading) now) fun db =>
        (db, .running (rounds + 1)))
    | _ => none
  | .stop w => some (s.goto w .idle)
  | .execute execution =>
    if s.db.execution.state = .succeeded ∨ execution.id ≠ s.db.execution.id ∨
        execution.operationId ≠ s.db.execution.operationId then none
    else some { s with db := { s.db with execution } }
  | .investigate investigation => some { s with db := { s.db with investigation } }

/-- No report, and no worker at work. -/
def State.initial (execution : Execution) (investigation : Investigation) : State where
  db := ⟨execution, investigation, []⟩
  worker := fun _ => .idle

end Slide.Actions
