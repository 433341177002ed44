import Slide.Display.MessageParts
import Slide.Library.Table
import Slide.Library.Transaction

/-!
# The runs of cron jobs

`CronRunStore` keeps one row for each request to run a job, next to the workflow job that executes it.
The business result of a run is its completion; what the runner reports afterwards never overwrites it.
-/

namespace Slide.Cron

open Display Transaction

inductive CronRunStatus
  | queued
  | running
  | success
  | partly
  | failed
  | unknown
  | cancelled
deriving DecidableEq

inductive CompletionStatus
  | success
  | failure
  | partly

/-- A `CronCompletion` whose status is one of the three. -/
structure CronCompletion where
  status : CompletionStatus
  summary : String
  (result details : Option Json)

/-- The status of a run with this completion. -/
def CronCompletion.runStatus (completion : CronCompletion) : CronRunStatus :=
  match completion.status with
  | .success => .success
  | .failure => .failed
  | .partly => .partly

/-- A row of `cron_runs`: of its times only whether they are set, a completion with its hash. -/
structure CronRunRow where
  jobId : Nat
  triggeredBy : Option Nat
  (requestKey requestHash : String)
  status : CronRunStatus
  (started runnerFinished : Bool)
  completion : Option (CronCompletion × String)
  outputSchema : Option Json
  errorCode : Option String

/-- The rows, and of each workflow job whether a live lease owns it. -/
structure CronStore where
  runs : Table Nat CronRunRow
  workflows : Table Nat Bool

/-- What the store uses of the platform: the digest, the texts of numbers, the order of `localeCompare`,
and whether a schema accepts a result. -/
structure CronHost where
  sha256 : String → String
  numberText : Rat → String
  localeLe : String → String → Bool
  accepts : Json → Option Json → Bool

/-! ## Digests -/

/-- The fields of an object in the order of their keys. -/
def sortFields (host : CronHost) (fields : List (String × String)) : List (String × String) :=
  fields.insertionSort fun a b => host.localeLe a.1 b.1 = true

mutual

def canonical (host : CronHost) : Json → String
  | .null => "null"
  | .bool value => if value then "true" else "false"
  | .number value => host.numberText value
  | .string value => JsString.quote value
  | .array items => JsString.array (canonicalItems host items)
  | .object fields =>
    "\x7b" ++ ",".intercalate ((sortFields host (canonicalFields host fields)).map fun field =>
      JsString.quote field.1 ++ ":" ++ field.2) ++ "\x7d"

def canonicalItems (host : CronHost) : List Json → List String
  | [] => []
  | value :: rest => canonical host value :: canonicalItems host rest

def canonicalFields (host : CronHost) : List (String × Json) → List (String × String)
  | [] => []
  | (key, value) :: rest => (key, canonical host value) :: canonicalFields host rest

end

def hash (host : CronHost) (value : Json) : String := host.sha256 (canonical host value)

/-- `hash([triggeredBy, jobId, key])`. -/
def requestKey (host : CronHost) (triggeredBy : Option Nat) (jobId : Nat) (key : String) : String :=
  hash host (.array [match triggeredBy with | some user => .number user | none => .null,
    .number jobId, .string key])

/-- A completion as it is hashed. -/
def CronCompletion.toJson (completion : CronCompletion) : Json :=
  .object ([("status", .string (match completion.status with
      | .success => "success"
      | .failure => "failure"
      | .partly => "partial")),
    ("summary", .string completion.summary)] ++
    (completion.result.toList.map fun result => ("result", result)) ++
    completion.details.toList.map fun details => ("details", details))

/-! ## Statements and transactions -/

/-- The row of a request. -/
def CronStore.byRequest (store : CronStore) (requestKey : String) : Option (Nat × CronRunRow) :=
  store.runs.entries.find? fun entry => entry.2.requestKey = requestKey

/-- The transaction of `enqueue`, with the id that it has drawn. -/
def enqueue (host : CronHost) (runId : Nat) (triggeredBy : Option Nat) (jobId : Nat) (key : String)
    (params : Json) (outputSchema : Option Json) : Body CronStore String Nat := fun store =>
  if key = "" ∨ 200 < JsString.length key then .error "CRON_IDEMPOTENCY_KEY_INVALID"
  else
    let request := requestKey host triggeredBy jobId key
    let runs := if (store.byRequest request).isSome then store.runs
      else store.runs.insertNew runId
        ⟨jobId, triggeredBy, request, hash host params, .queued, false, false, none, outputSchema, none⟩
    match ({ store with runs } : CronStore).byRequest request with
    | none => .error "TypeError"
    | some (id, row) =>
      if row.requestHash ≠ hash host params then .error "CRON_IDEMPOTENCY_CONFLICT"
      else .ok (id, ⟨runs, store.workflows.insertNew id false⟩)

/-- `start`, and whether a row was affected. -/
def start (store : CronStore) (runId : Nat) : CronStore × Bool :=
  let (runs, affectedRows) := store.runs.updateWhere runId (fun row => row.status = .queued)
    fun row => { row with status := .running, started := true }
  ({ store with runs }, affectedRows = 1)

/-- The status with which a runner may finish. -/
abbrev FinishStatus := { status : CronRunStatus // status ≠ .queued ∧ status ≠ .running }

def CronCompletion.finishStatus (completion : CronCompletion) : FinishStatus :=
  ⟨completion.runStatus, by
    unfold CronCompletion.runStatus
    split <;> exact ⟨nofun, nofun⟩⟩

def finish (store : CronStore) (runId : Nat) (status : FinishStatus) (errorCode : Option String) :
    CronStore :=
  let set (row : CronRunRow) : CronRunRow := { row with
    runnerFinished := true
    -- A runner result never overwrites a committed business completion.
    status := if row.completion.isNone then status.1 else row.status
    errorCode }
  { store with runs := (store.runs.updateWhere runId (fun row => row.started) set).1 }

/-- The transaction of `saveCompletion`. -/
def saveCompletion (host : CronHost) (runId : Nat) (completion : CronCompletion) :
    Body CronStore String Unit := fun store =>
  let digest := hash host completion.toJson
  match store.runs.get runId with
  | none => .error "CRON_RUN_NOT_FOUND"
  | some row =>
    if JsString.trim completion.summary = "" then .error "CRON_COMPLETION_INVALID"
    else match row.completion with
      | some (_, stored) =>
        if stored ≠ digest then .error "CRON_COMPLETION_CONFLICT" else .ok ((), store)
      | none =>
        if ¬ row.outputSchema.all fun schema => host.accepts schema completion.result then
          .error "CRON_OUTPUT_SCHEMA_INVALID"
        else if row.status ≠ .running then .error "CRON_RUN_NOT_RUNNING"
        else
          let stored : CronRunRow := { row with
            completion := some (completion, digest)
            status := completion.runStatus }
          .ok ((), { store with runs := store.runs.put runId stored })

/-- The first statement of `recover`: started runs that no live lease owns. -/
def recover (store : CronStore) : CronStore :=
  let set (row : CronRunRow) : CronRunRow := { row with
    status := if row.completion.isNone then .unknown else row.status
    runnerFinished := true
    errorCode := some "CRON_RESTART_INTERRUPTED" }
  let guard (id : Nat) (row : CronRunRow) : Bool :=
    row.started ∧ ¬ row.runnerFinished ∧ store.workflows.get id ≠ some true
  { store with runs := store.runs.updateAll guard set }

end Slide.Cron
