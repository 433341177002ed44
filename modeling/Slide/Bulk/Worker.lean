import Slide.Bulk.Jobs

/-!
# A worker of the bulk queue

`run` of `BulkConfigurationService`, from one `await` to the next: three lanes take the items of one job in
order, and every outcome is saved through a chain of snapshots.  `config.activate` publishes through
`changeBinding`, which compares the revision.
-/

namespace Slide.Bulk

/-! ## The run of one job -/

/-- Where a lane is with an item. -/
inductive Phase
  /-- No lane has taken it. -/
  | waiting
  /-- Before the audits have been read. -/
  | reconciling
  /-- No audit was there: before `check`. -/
  | checking
  /-- `running` is being saved. -/
  | starting
  /-- Inside `config.activate`, before its commit. -/
  | activating
  /-- The publication is committed, and the worker does not know it. -/
  | committed (revision : Nat)
  /-- The revision is known; before the status has been read. -/
  | published
  /-- The outcome is being saved. -/
  | persisting
  | done
  | rejected
deriving DecidableEq

/-- A snapshot on its way to the store, and the item that waits for it. -/
structure Save where
  snapshot : BulkJob
  awaiting : Option Nat

structure Run where
  id : String
  job : BulkJob
  /-- `tail`, and whether it has failed. -/
  due : List Save
  (broken started : Bool)
  cursor : Nat
  /-- Lanes without an item. -/
  lanes : Nat
  phases : Nat → Phase
  closing : Bool

def Phase.active : Phase → Bool
  | .reconciling | .checking | .starting | .activating | .committed _ | .published => true
  | .waiting | .persisting | .done | .rejected => false

def ItemState.open : ItemState → Bool
  | .queued | .running => true
  | _ => false

variable (w : World) (p : Nat) (r : Run) (i : Nat)

namespace Run

def setPhase (p : Phase) : Run := { r with phases := Function.update r.phases i p }

def setItem (f : BulkItem → BulkItem) : Run :=
  { r with job := { r.job with items := r.job.items.modify i f } }

/-- `persist`, awaited by an item in the phase `p`. -/
def persist (p : Phase) : Run :=
  if r.broken then r.setPhase i .rejected
  else setPhase { r with due := r.due ++ [⟨r.job, some i⟩] } i p

/-- The job as it has been read, with its first save. -/
def start (id : String) (job : BulkJob) : Run :=
  let job := { job with state := .running }
  ⟨id, job, [⟨job, none⟩], false, false, 0, min 3 job.items.length, fun _ => .waiting, false⟩

/-- What the first save of the chain resumes. -/
def saved (rest : List Save) (awaiting : Option Nat) : Run :=
  match awaiting with
  | none => { r with due := rest, started := true }
  | some i =>
    match r.phases i with
    | .starting => setPhase { r with due := rest } i .activating
    | .persisting => setPhase { r with due := rest, lanes := r.lanes + 1 } i .done
    | _ => { r with due := rest }

/-- A save that fails rejects all that wait for it, and all later ones. -/
def saveFailed : Run :=
  { r with
    due := []
    broken := true
    phases := fun i => match r.phases i with
      | .starting | .persisting => .rejected
      | p => p }

/-- A lane takes the next item, and returns at once where it is not queued. -/
def take : Run :=
  match r.job.items[r.cursor]? with
  | some item =>
    if r.started ∧ 0 < r.lanes then
      if item.state.open then
        setPhase { r with cursor := r.cursor + 1, lanes := r.lanes - 1 } r.cursor .reconciling
      else setPhase { r with cursor := r.cursor + 1 } r.cursor .done
    else r
  | none => r

/-- The audits of the item have been read. -/
def reconcile (found : Option Nat) : Run :=
  if r.phases i = .reconciling then
    match found with
    | some revision => (r.setItem i fun item => { item with revision := some revision }).setPhase i .published
    | none => r.setPhase i .checking
  else r

/-- `check` has passed. -/
def check : Run :=
  if r.phases i = .checking then (r.setItem i fun item => { item with state := .running }).persist i .starting else r

/-- The publication of the item is committed. -/
def publish (i revision : Nat) : Run := r.setPhase i (.committed revision)

/-- `published` and the answer of `activate`. -/
def acknowledge : Run :=
  match r.phases i with
  | .committed revision => (r.setItem i fun item => { item with revision := some revision }).setPhase i .published
  | _ => r

/-- The state that a status gives the item of a known revision. -/
def verdict (revision : Option Nat) (s : Status) : ItemState :=
  if some s.publishedRevision = revision ∧ s.applied ∧ s.available ∧ ¬s.blocked then .succeeded else .pendingTakeover

/-- The status has been read. -/
def conclude (s : Status) : Run :=
  if r.phases i = .published then
    (r.setItem i fun item => { item with status := some s, state := verdict item.revision s, code := none }).persist i
      .persisting
  else r

/-- What the `catch` of an item writes. -/
def failure (stopping : Bool) (code : String) (item : BulkItem) : BulkItem :=
  if item.revision ≠ none then
    { item with state := .pendingTakeover, status := none, code := some "BULK_STATUS_UNAVAILABLE" }
  else if code = "BULK_CANCELLED" ∨ stopping then
    { item with state := if stopping then .queued else .cancelled, code := some "BULK_CANCELLED" }
  else { item with state := .failed, code := some code }

/-- Phases in which something that is awaited may throw. -/
def Phase.throws : Phase → Bool
  | .reconciling | .checking | .activating | .committed _ | .published => true
  | _ => false

def fail (stopping : Bool) (code : String) : Run :=
  if Phase.throws (r.phases i) then (r.setItem i (failure stopping code)).persist i .persisting else r

/-- All items are through: every save of theirs has been awaited. -/
def closes : Bool :=
  r.started && !r.closing && !r.broken && r.due.isEmpty && r.cursor = r.job.items.length &&
    (List.range r.job.items.length).all fun i => r.phases i = .done

/-- The last state of the job, and its save. -/
def close (cancelled : Bool) : Run :=
  let job :=
    { r.job with
      state := if r.job.items.any (·.state.open) then .queued else if cancelled then .cancelled else .completed }
  { r with job, due := r.due ++ [⟨job, none⟩], closing := true }

/-- `run` returns, or throws once all its lanes have come to an end. -/
def returns : Bool :=
  r.due.isEmpty && (r.closing || r.broken &&
    (!r.started || r.lanes = 0 || r.cursor = r.job.items.length) &&
      (List.range r.job.items.length).all fun i => !(r.phases i).active)

end Run

/-! ## All processes -/

/-- `bulk:<job>:<item>`, or the request of another client. -/
inductive RequestId
  | bulk (job : String) (item : Nat)
  | other (id : String)
deriving DecidableEq

/-- A `binding.publish` audit. -/
structure Audit where
  target : String
  requestId : RequestId
  revision : Nat
deriving DecidableEq

structure Worker where
  stopping : Bool
  /-- Inside `exclusive`. -/
  entered : Bool
  run : Option Run

structure World where
  now : Nat
  jobs : Jobs
  /-- The revisions of the published bindings. -/
  revisions : Table String Nat
  audits : List Audit
  /-- The process whose connection holds the worker lock. -/
  lock : Option Nat
  workers : Nat → Worker
  /-- The drafts that a `confirm` has read under the control lock of its job. -/
  controls : String → Option BulkJob
  /-- The previews that have been answered: owner, key, digest of the input. -/
  previews : List (Nat × String × String)

def idle : Worker := ⟨false, false, none⟩

def initial : World := ⟨0, Table.empty, Table.empty, [], none, fun _ => idle, fun _ => none, []⟩

namespace World

def revision (resource : String) : Nat := (w.revisions.get resource).getD 0

def setWorker (worker : Worker) : World :=
  { w with workers := Function.update w.workers p worker }

def setRun : World := w.setWorker p { w.workers p with run := some r }

/-- `preview` of an input, the last steps of `retry` too. -/
def preview (host : Host) (owner : Nat) (id : String) (input : BulkInput) (assess : String → Assessment)
    (retryOf : Option String) : World :=
  let job := draft host owner w.now input assess retryOf
  let created := w.jobs.create w.now id job
  { w with
    jobs := created.1
    previews := w.previews ++ (created.2.map fun _ => (owner, input.key, job.inputDigest)).toList }

/-- The publication that `config.activate` makes of an item, with its audit. -/
def publish : World :=
  match r.job.items[i]? with
  | some item =>
    if r.phases i = .activating ∧ item.expectedRevision = some (w.revision item.resource) then
      let revision := w.revision item.resource + 1
      setRun
        { w with
          revisions := w.revisions.put item.resource revision
          audits := w.audits ++ [⟨item.resource, .bulk r.id i, revision⟩] }
        p (r.publish i revision)
    else w
  | none => w

/-- The audit of an item. -/
def audit : Option Audit :=
  w.audits.find? fun a => a.requestId = .bulk r.id i && (r.job.items[i]?).any fun item => a.target = item.resource

end World

/-- What happens next: a request, another publication, or a worker that goes on. -/
inductive Event
  | tick (ms : Nat)
  | preview (owner : Nat) (id : String) (input : BulkInput) (assess : String → Assessment)
  | retry (owner : Nat) (job key id : String) (assess : String → Assessment)
  | confirmRead (owner : Nat) (id digest : String)
  | confirmSave (id : String)
  | confirmDrop (id : String)
  | cancel (owner : Nat) (id : String)
  | publication (target request : String)
  | acquire (p : Nat)
  | load (p : Nat) (id : String)
  | save (p : Nat) (ok : Bool)
  | take (p : Nat)
  | reconcile (p i : Nat)
  | check (p i : Nat)
  | publish (p i : Nat)
  | acknowledge (p i : Nat)
  | conclude (p i : Nat) (status : Status)
  /-- Something that an item awaits throws an error of this code. -/
  | fail (p i : Nat) (code : String)
  | close (p : Nat)
  | leave (p : Nat)
  | disconnect (p : Nat)
  | stop (p : Nat)
  | crash (p : Nat)

namespace World

/-- A step of the run of a process. -/
def ofRun (f : Run → World) : World :=
  match (w.workers p).run with
  | some r => f r
  | none => w

def unlock : World := if w.lock = some p then { w with lock := none } else w

def step (host : Host) (w : World) : Event → World
  | .tick ms => { w with now := w.now + ms }
  | .preview owner id input assess => w.preview host owner id input assess none
  | .retry owner job key id assess =>
    match w.jobs.get job with
    | some row =>
      if row.payload.owner = owner ∧ (row.payload.state = .completed ∨ row.payload.state = .cancelled) ∧
          row.payload.items.any (·.state = .failed) then
        w.preview host owner id (row.payload.retryInput key) assess (some job)
      else w
    | none => w
  | .confirmRead owner id digest =>
    match w.jobs.get id with
    | some row =>
      if w.controls id = none ∧ row.payload.owner = owner ∧ row.payload.digest = digest ∧ row.payload.state = .draft ∧
          w.now < row.payload.expiresAt ∧ ¬row.cancelRequested then
        { w with controls := Function.update w.controls id (some row.payload) }
      else w
    | none => w
  | .confirmSave id =>
    match w.controls id with
    | some job => { w with jobs := w.jobs.save id job.confirmed, controls := Function.update w.controls id none }
    | none => w
  | .confirmDrop id => { w with controls := Function.update w.controls id none }
  | .cancel owner id =>
    if (w.jobs.get id).any (·.payload.owner = owner) then { w with jobs := w.jobs.cancel id } else w
  | .publication target request =>
    let revision := w.revision target + 1
    { w with
      revisions := w.revisions.put target revision
      audits := w.audits ++ [⟨target, .other request, revision⟩] }
  | .acquire p =>
    if w.lock = none ∧ (w.workers p).entered = false ∧ (w.workers p).stopping = false then
      setWorker { w with lock := some p } p ⟨false, true, none⟩
    else w
  | .load p id =>
    match w.jobs.get id with
    | some row =>
      if (w.workers p).entered ∧ (w.workers p).run = none ∧
          (row.payload.state = .queued ∨ row.payload.state = .running) then
        w.setRun p (.start id row.payload)
      else w
    | none => w
  | .save p ok => w.ofRun p fun r =>
    match r.due with
    | [] => w
    | s :: rest =>
      -- the connection that holds the lock is the one that writes
      if ok ∧ w.lock = some p then setRun { w with jobs := w.jobs.save r.id s.snapshot } p (r.saved rest s.awaiting)
      else w.setRun p r.saveFailed
  | .take p => w.ofRun p fun r => w.setRun p r.take
  | .reconcile p i => w.ofRun p fun r => w.setRun p (r.reconcile i ((w.audit r i).map (·.revision)))
  | .check p i => w.ofRun p fun r =>
    if w.lock = some p ∧ (w.workers p).stopping = false ∧ w.jobs.cancelled r.id = false then w.setRun p (r.check i)
    else w
  | .publish p i => w.ofRun p fun r => w.publish p r i
  | .acknowledge p i => w.ofRun p fun r => w.setRun p (r.acknowledge i)
  | .conclude p i status => w.ofRun p fun r => w.setRun p (r.conclude i status)
  | .fail p i code => w.ofRun p fun r =>
    if code = "BULK_CANCELLED" → (w.workers p).stopping = true ∨ w.jobs.cancelled r.id = true then
      w.setRun p (r.fail i (w.workers p).stopping code)
    else w
  | .close p => w.ofRun p fun r => if r.closes then w.setRun p (r.close (w.jobs.cancelled r.id)) else w
  | .leave p =>
    if (w.workers p).run.all (·.returns) then (w.setWorker p { w.workers p with entered := false, run := none }).unlock p
    else w
  | .disconnect p => w.unlock p
  | .stop p => w.setWorker p { w.workers p with stopping := true }
  | .crash p => (w.setWorker p idle).unlock p

def reached (host : Host) (events : List Event) : World := events.foldl (step host) initial

end World

end Slide.Bulk
