import Slide.Library.Run
import Slide.Workflows.Store

/-!
# Workers on one queue

Any number of workers issue the statements of `Slide.Workflows.Store`, one statement at a time in
any order.  `System` keeps, beside the store, what the workers have learned from it: the candidates
their selects returned, the claims they won and the jobs they read back.  Nothing is ever forgotten
from that knowledge, so a worker may stop for good at any point, issue a statement late, or issue
one again after its lease is gone; workers are told apart by their ids alone.

`RowStep` says once what a step can do to one row; every invariant below the store is read off it.
-/

namespace Slide.Workflows

open Transition

/-- One atomic statement with its answer, or a change from outside the store. -/
inductive Statement
  /-- The database clock moves on. -/
  | clock (now : Nat)
  /-- Another module rewrites the delivery states. -/
  | deliveries (states : List Delivery)
  | enqueue (input : WorkflowJobInput)
  | select (workerId : WorkerId) (analysisDispatch : Bool) (filter : Option ClaimFilter)
      (found : Option JobId)
  | claim (workerId : WorkerId) (leaseSeconds : Nat) (id : JobId) (won : Bool)
  | readBack (workerId : WorkerId) (id : JobId) (job : Option ClaimedJob)
  | heartbeat (workerId : WorkerId) (id : JobId) (fencingToken leaseSeconds : Nat) (renewed : Bool)
  | complete (workerId : WorkerId) (id : JobId) (fencingToken : Nat) (done : Bool)
  | fail (workerId : WorkerId) (job : ClaimedJob) (message : String) (retryAt : Option Nat)
      (workerNow : Nat) (recorded : Bool)
  | replay (id : JobId) (queued : Bool)

/-- The store and what each worker has learned from it. -/
structure System where
  store : Store
  candidates : List (WorkerId × JobId) := []
  claims : List (WorkerId × JobId) := []
  received : List (WorkerId × ClaimedJob) := []

/-- An empty queue at time zero. -/
def System.initial : System where
  store := { now := 0, jobs := Table.empty, deliveries := [] }

/-- One step: a worker uses only ids and jobs the store has given it. -/
inductive Step : System → Statement → System → Prop
  | clock {s : System} {now : Nat} : s.store.now ≤ now →
    Step s (.clock now) { s with store := { s.store with now } }
  | deliveries {s : System} {states : List Delivery} :
    Step s (.deliveries states) { s with store := { s.store with deliveries := states } }
  | enqueue {s : System} {input : WorkflowJobInput} :
    Step s (.enqueue input) { s with store := s.store.enqueue input }
  | select {s : System} {w : WorkerId} {dispatch : Bool} {filter : Option ClaimFilter} :
    Step s (.select w dispatch filter (s.store.claimCandidate dispatch filter))
      { s with
        candidates := (s.store.claimCandidate dispatch filter).toList.map (w, ·) ++ s.candidates }
  | claim {s : System} {w : WorkerId} {lease : Nat} {id : JobId} : (w, id) ∈ s.candidates →
    Step s (.claim w lease id (s.store.claimUpdate w lease id).2)
      { s with
        store := (s.store.claimUpdate w lease id).1
        claims := if (s.store.claimUpdate w lease id).2 then (w, id) :: s.claims else s.claims }
  | readBack {s : System} {w : WorkerId} {id : JobId} : (w, id) ∈ s.claims →
    Step s (.readBack w id (s.store.claimReadBack w id))
      { s with received := (s.store.claimReadBack w id).toList.map (w, ·) ++ s.received }
  | heartbeat {s : System} {w : WorkerId} {job : ClaimedJob} {lease : Nat} :
    (w, job) ∈ s.received →
    Step s (.heartbeat w job.id job.fencingToken lease
        (s.store.heartbeat job.id w job.fencingToken lease).2)
      { s with store := (s.store.heartbeat job.id w job.fencingToken lease).1 }
  | complete {s : System} {w : WorkerId} {job : ClaimedJob} : (w, job) ∈ s.received →
    Step s (.complete w job.id job.fencingToken (s.store.complete job.id w job.fencingToken).2)
      { s with store := (s.store.complete job.id w job.fencingToken).1 }
  | fail {s : System} {w : WorkerId} {job : ClaimedJob} {message : String} {retryAt : Option Nat}
      {workerNow : Nat} : (w, job) ∈ s.received →
    Step s (.fail w job message retryAt workerNow (s.store.fail job w message retryAt workerNow).2)
      { s with store := (s.store.fail job w message retryAt workerNow).1 }
  | replay {s : System} {id : JobId} :
    Step s (.replay id (s.store.replayDeadLetter id).2)
      { s with store := (s.store.replayDeadLetter id).1 }

/-- The row a granted statement rewrote. -/
def Statement.target : Statement → Option JobId
  | .claim _ _ id true | .heartbeat _ id _ _ true | .complete _ id _ true | .replay id true => some id
  | .fail _ job _ _ _ true => some job.id
  | _ => none

/-- What one step does to the row of `id`: leave it, or rewrite it as its statement says, under the
statement's own guard. -/
inductive RowStep (store : Store) (id : JobId) (row : WorkflowJob) :
    Statement → WorkflowJob → Prop
  | keep {e : Statement} : e.target ≠ some id → RowStep store id row e row
  | claimed {w : WorkerId} {lease : Nat} : eligible store row = true →
    RowStep store id row (.claim w lease id true) (row.claimedBy w (store.now + lease))
  | renewed {w : WorkerId} {token lease : Nat} : holds store w token row = true →
    RowStep store id row (.heartbeat w id token lease true)
      { row with leaseExpiresAt := some (store.now + lease) }
  | completed {w : WorkerId} {token : Nat} : holds store w token row = true →
    RowStep store id row (.complete w id token true)
      { row with
        state := .completed, completedAt := some store.now
        leaseOwner := none, leaseExpiresAt := none }
  | failed {w : WorkerId} {job : ClaimedJob} {message : String} {retryAt : Option Nat}
      {workerNow : Nat} : job.id = id → holds store w job.fencingToken row = true →
    RowStep store id row (.fail w job message retryAt workerNow true)
      { row with
        state := if retryAt.isSome then .retry else .deadLetter
        availableAt := retryAt.getD workerNow
        lastError := some (String.ofList (message.toList.take 4096))
        leaseOwner := none, leaseExpiresAt := none }
  | replayed : replayable store row = true →
    RowStep store id row (.replay id true)
      { row with
        state := .queued, attempts := 0, availableAt := store.now
        leaseOwner := none, leaseExpiresAt := none, lastError := none }

variable {s t : System} {e : Statement} {id : JobId} {row : WorkflowJob}

private theorem rowStep_of_update {target : JobId} {guard : WorkflowJob → Bool}
    {set : WorkflowJob → WorkflowJob} (answer : Bool → Statement)
    (refused : (answer false).target = none) (found : s.store.jobs.get id = some row)
    (aim : (answer true).target = some target)
    (granted : target = id → guard row = true → RowStep s.store id row (answer true) (set row)) :
    ∃ row', (s.store.update target guard set).1.jobs.get id = some row' ∧
      RowStep s.store id row (answer (s.store.update target guard set).2) row' := by
  cases won : (s.store.update target guard set).2 with
  | false =>
    refine ⟨row, by rw [Store.update_refused won]; exact found, .keep ?_⟩
    rw [refused]
    exact nofun
  | true =>
    obtain ⟨old, stored, pass⟩ := Store.update_won.mp won
    rw [Store.update_get stored pass]
    by_cases same : id = target
    · subst same
      obtain rfl : old = row := some.inj (stored.symm.trans found)
      exact ⟨_, if_pos rfl, granted rfl pass⟩
    · refine ⟨row, by rw [if_neg same]; exact found, .keep ?_⟩
      rw [aim]
      exact fun eq => same (some.inj eq).symm

private theorem absent_of_update {target : JobId} {guard : WorkflowJob → Bool}
    {set : WorkflowJob → WorkflowJob} (answer : Bool → Statement)
    (refused : (answer false).target = none) (absent : s.store.jobs.get id = none)
    (aim : (answer true).target = some target) :
    (answer (s.store.update target guard set).2).target ≠ some id ∧
      (s.store.update target guard set).1.jobs.get id = none := by
  cases won : (s.store.update target guard set).2 with
  | false =>
    rw [refused, Store.update_refused won]
    exact ⟨nofun, absent⟩
  | true =>
    obtain ⟨old, stored, pass⟩ := Store.update_won.mp won
    have differ : id ≠ target := by
      rintro rfl
      rw [absent] at stored
      cases stored
    rw [aim, Store.update_get stored pass, if_neg differ]
    exact ⟨fun eq => differ (some.inj eq).symm, absent⟩

theorem Step.of_some (step : Step s e t) (found : s.store.jobs.get id = some row) :
    ∃ row', t.store.jobs.get id = some row' ∧ RowStep s.store id row e row' := by
  cases step with
  | clock | deliveries | select | readBack => exact ⟨row, found, .keep nofun⟩
  | enqueue => exact ⟨row, Store.enqueue_get_of_some found, .keep nofun⟩
  | @claim w lease target =>
    exact rowStep_of_update (.claim w lease target) rfl found rfl
      (by rintro rfl pass; exact .claimed pass)
  | @heartbeat w job lease =>
    exact rowStep_of_update (.heartbeat w job.id job.fencingToken lease) rfl found rfl
      (by rintro rfl pass; exact .renewed pass)
  | @complete w job =>
    exact rowStep_of_update (.complete w job.id job.fencingToken) rfl found rfl
      (by rintro rfl pass; exact .completed pass)
  | @fail w job message retryAt workerNow =>
    exact rowStep_of_update (.fail w job message retryAt workerNow) rfl found rfl .failed
  | @replay target =>
    exact rowStep_of_update (.replay target) rfl found rfl
      (by rintro rfl pass; exact .replayed pass)

theorem Step.of_none (step : Step s e t) (absent : s.store.jobs.get id = none) :
    e.target ≠ some id ∧ (t.store.jobs.get id = none ∨
      ∃ input, e = .enqueue input ∧ id = input.id ∧
        t.store.jobs.get id = some (input.row s.store.now)) := by
  cases step with
  | clock | deliveries | select | readBack => exact ⟨nofun, .inl absent⟩
  | @enqueue input =>
    refine ⟨nofun, ?_⟩
    cases after : (s.store.enqueue input).jobs.get id with
    | none => exact .inl rfl
    | some row =>
      rcases Store.of_enqueue_get after with before | ⟨same, -, rowEq⟩
      · rw [absent] at before
        cases before
      · exact .inr ⟨input, rfl, same, by rw [rowEq]⟩
  | @claim w lease target =>
    exact (absent_of_update (.claim w lease target) rfl absent rfl).imp_right .inl
  | @heartbeat w job lease =>
    exact (absent_of_update (.heartbeat w job.id job.fencingToken lease) rfl absent rfl).imp_right
      .inl
  | @complete w job =>
    exact (absent_of_update (.complete w job.id job.fencingToken) rfl absent rfl).imp_right .inl
  | @fail w job message retryAt workerNow =>
    exact (absent_of_update (.fail w job message retryAt workerNow) rfl absent rfl).imp_right .inl
  | @replay target => exact (absent_of_update (.replay target) rfl absent rfl).imp_right .inl

end Slide.Workflows
