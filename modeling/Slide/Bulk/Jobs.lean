import Slide.Library.Table

/-!
# Bulk configuration jobs

The rows of `metric_bulk_jobs`, and what a request of `BulkConfigurationService` makes of them
(`metrics/bulk/service.ts`, `metrics/bulk/store.ts`).  Of an item the model leaves out what only its owner looks
at: the checks, the choices, the cost.
-/

namespace Slide.Bulk

inductive ItemState
  | eligible | unsupported | skipped | queued | running | succeeded | pendingTakeover | failed | cancelled
deriving DecidableEq

inductive JobState
  | draft | queued | running | completed | cancelled
deriving DecidableEq

/-- `MetricConfigurationStatus`, as far as the state of an item depends on it. -/
structure Status where
  publishedRevision : Nat
  (applied available blocked : Bool)

structure BulkItem where
  resource : String
  state : ItemState
  code : Option String
  /-- `change.expected_revision` -/
  (expectedRevision revision : Option Nat)
  status : Option Status

structure BulkInput where
  key : String
  resources : List String
  overrides : Option String
  packages : Option (List (List String × String))

/-- Times in milliseconds. -/
structure BulkJob where
  owner : Nat
  (key inputDigest digest : String)
  state : JobState
  expiresAt : Nat
  input : BulkInput
  items : List BulkItem
  retryOf : Option String

/-- A cancellation is a column of its own, which no saved job overwrites. -/
structure Row where
  payload : BulkJob
  cancelRequested : Bool

abbrev Jobs := Table String Row

/-- `hash` of the input, and of the input with its items. -/
structure Host where
  inputDigest : BulkInput → String
  digest : BulkInput → List BulkItem → String

/-! ## Previews -/

/-- What a preview has found out about a resource. -/
inductive Assessment
  | eligible (expectedRevision : Nat)
  | unsupported (code : String)
  | failed (code : String)

def item (resource : String) : Assessment → BulkItem
  | .eligible expected => ⟨resource, .eligible, none, some expected, none, none⟩
  | .unsupported code => ⟨resource, .unsupported, some code, none, none, none⟩
  | .failed code => ⟨resource, .failed, some code, none, none, none⟩

/-- The job of a `preview`. -/
def draft (host : Host) (owner now : Nat) (input : BulkInput) (assess : String → Assessment)
    (retryOf : Option String) : BulkJob :=
  let items := input.resources.map fun resource => item resource (assess resource)
  { owner
    key := input.key
    inputDigest := host.inputDigest input
    digest := host.digest input items
    state := .draft
    expiresAt := now + 30 * 60000
    input
    items
    retryOf }

/-- The input of a `retry`: the failed resources under a new key. -/
def BulkJob.retryInput (job : BulkJob) (key : String) : BulkInput :=
  let resources := (job.items.filter (·.state = .failed)).map (·.resource)
  { job.input with
    key
    resources
    packages := job.input.packages.map fun groups =>
      (groups.map fun g => (g.1.filter fun r => decide (r ∈ resources), g.2)).filter (·.1 ≠ []) }

namespace Jobs

def ofKey (jobs : Jobs) (owner : Nat) (key : String) : Option Row :=
  jobs.toList.find? fun row => row.payload.owner = owner && row.payload.key = key

/-- The jobs that count for the limits of the queue. -/
def Row.counts (now : Nat) (row : Row) : Bool :=
  (row.payload.state = .draft && now < row.payload.expiresAt) || row.payload.state = .queued ||
    row.payload.state = .running

/-- `create`, which the `admission` lock makes one step; what it answers, or `none` where it throws. -/
def create (jobs : Jobs) (now : Nat) (id : String) (job : BulkJob) : Jobs × Option BulkJob :=
  match jobs.ofKey job.owner job.key with
  | some saved => (jobs, if saved.payload.inputDigest = job.inputDigest then some saved.payload else none)
  | none =>
    let counted := jobs.toList.filter (Row.counts now)
    if counted.length < 100 ∧ (counted.filter (·.payload.owner = job.owner)).length < 10 ∧ jobs.get id = none then
      (jobs.put id ⟨job, false⟩, some job)
    else (jobs, none)

def save (jobs : Jobs) (id : String) (job : BulkJob) : Jobs :=
  (jobs.updateWhere id (fun _ => true) fun row => { row with payload := job }).1

def cancel (jobs : Jobs) (id : String) : Jobs :=
  (jobs.updateWhere id (fun _ => true) fun row => { row with cancelRequested := true }).1

/-- `cancelled`: a job that is gone counts as cancelled. -/
def cancelled (jobs : Jobs) (id : String) : Bool := (jobs.get id).all (·.cancelRequested)

end Jobs

/-- What `confirm` makes of a draft. -/
def BulkJob.confirmed (job : BulkJob) : BulkJob :=
  let items := job.items.map fun i => if i.state = .eligible then { i with state := .queued } else i
  { job with items, state := if items.any (·.state = .queued) then .queued else .completed }

end Slide.Bulk
