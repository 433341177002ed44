import Slide.Library.Ticket
import Slide.Scheduler.Store
import Slide.Workflows.LeaseFencing

/-!
# Workers on one schedule

Any number of schedulers and workers take the transactions of `Slide.Scheduler.Store` in any order,
between the statements of the queue, publications and changes of the assets.  A worker begins and
commits under any job the queue has given it, for any resource and revision, and commits any
snapshot it has begun, however late; the fence alone decides.

`Effect` says once what a step can do to the schedule; the invariants are read off it.
-/

namespace Slide.Scheduler

open Slide.Workflows Transition

variable {Resolved CounterState Batch : Type}

/-- One transaction with its answer, a statement of the queue, or a change from outside. -/
inductive Event (Resolved CounterState Batch : Type)
  | queue (statement : Statement)
  /-- A publication, always under a higher revision. -/
  | publish (ref : Ref) (binding : StoredBinding Resolved)
  | asset (ref : Ref) (asset : Asset)
  | coordinate (ref : Ref) (row : Coordination)
  | enqueue (input : StoredBinding Resolved) (now : Nat) (id : JobId) (answer : Except String Bool)
  | enqueueTemplate (item : TemplateBinding) (now : Nat) (id : JobId) (answer : Except String Bool)
  | beginPackage (ref : Ref) (revision : Nat) (job : ClaimedJob) (ctx : JobExecutionContext)
      (now : Nat) (answer : Except String Bool)
  | beginTemplate (ref : Ref) (revision : Nat) (job : ClaimedJob) (ctx : JobExecutionContext)
      (now : Nat) (answer : Except String Bool)
  | commitPackage (plan : CollectorPlan) (job : ClaimedJob) (ctx : JobExecutionContext)
      (now later : Nat) (answer : Except String Bool)
  | commitTemplate (snapshot : TemplateSnapshot CounterState) (job : ClaimedJob)
      (ctx : JobExecutionContext) (now later : Nat) (answer : Except String Bool)

namespace Event

/-- The job this event queued, for a resource at a revision. -/
def admission : Event Resolved CounterState Batch → Option (Ref × Nat × JobId)
  | .enqueue (.package published) _ id (.ok true) =>
    some (published.resource, published.revision, id)
  | .enqueueTemplate item _ id (.ok true) => some (item.resource, item.revision, id)
  | _ => none

/-- The job this event committed, for a resource at a revision. -/
def commitment : Event Resolved CounterState Batch → Option (Ref × Nat × JobId)
  | .commitPackage plan job _ _ _ (.ok true) => some (plan.resource, plan.revision, job.id)
  | .commitTemplate snapshot job _ _ _ (.ok true) =>
    some (snapshot.decoded.resource, snapshot.decoded.revision, job.id)
  | _ => none

/-- The worker's clock in this event. -/
def now : Event Resolved CounterState Batch → Nat
  | .enqueue _ now _ _ | .enqueueTemplate _ now _ _ | .beginPackage _ _ _ _ now _
  | .beginTemplate _ _ _ _ now _ | .commitPackage _ _ _ now _ _
  | .commitTemplate _ _ _ now _ _ => now
  | .queue _ | .publish _ _ | .asset _ _ | .coordinate _ _ => 0

/-- The interval of the plan this event commits. -/
def intervalMs : Event Resolved CounterState Batch → Nat
  | .commitPackage plan _ _ _ _ _ => plan.intervalMs
  | .commitTemplate snapshot _ _ _ _ _ => snapshot.decoded.intervalMs
  | _ => 0

/-- The statements of the queue this event is. -/
def statements : Event Resolved CounterState Batch → List Statement
  | .queue statement => [statement]
  | .enqueue (.package published) now id (.ok true) =>
    [.enqueue (State.jobInput published.resource now id)]
  | .enqueueTemplate item now id (.ok true) => [.enqueue (State.jobInput item.resource now id)]
  | .commitPackage _ _ _ _ later _ | .commitTemplate _ _ _ _ later _ => [.clock later]
  | _ => []

end Event

/-- What a transaction leaves: its writes, or the state before it when it throws. -/
def State.settle (s : State Resolved CounterState Batch)
    (tx : Except String (State Resolved CounterState Batch × Bool)) :
    State Resolved CounterState Batch :=
  match tx with
  | .ok (t, _) => t
  | .error _ => s

/-- What a transaction answers. -/
abbrev answer (tx : Except String (State Resolved CounterState Batch × Bool)) :
    Except String Bool := tx.map Prod.snd

/-- One step.  A job id is drawn fresh; a commit takes the database clock from its first check to
its second. -/
inductive Step (compiler : Compiler Resolved) :
    State Resolved CounterState Batch → Event Resolved CounterState Batch →
      State Resolved CounterState Batch → Prop
  | queue {s : State Resolved CounterState Batch} {statement : Statement} {queue : System} :
    Workflows.Step s.queue statement queue → Step compiler s (.queue statement) { s with queue }
  | publish {s : State Resolved CounterState Batch} {ref : Ref} {binding : StoredBinding Resolved} :
    (∀ old, s.bindings.get ref = some old → old.revision < binding.revision) →
    Step compiler s (.publish ref binding) { s with bindings := s.bindings.put ref binding }
  | asset {s : State Resolved CounterState Batch} {ref : Ref} {asset : Asset} :
    Step compiler s (.asset ref asset) { s with assets := Function.update s.assets ref asset }
  | coordinate {s : State Resolved CounterState Batch} {ref : Ref} {row : Coordination} :
    Step compiler s (.coordinate ref row) { s with rollout := s.rollout.put ref row }
  | enqueue {s : State Resolved CounterState Batch} {input : StoredBinding Resolved} {now : Nat}
      {id : JobId} : id ∉ s.issued →
    Step compiler s (.enqueue input now id (answer (s.enqueue compiler input now id)))
      (s.settle (s.enqueue compiler input now id))
  | enqueueTemplate {s : State Resolved CounterState Batch} {item : TemplateBinding} {now : Nat}
      {id : JobId} : id ∉ s.issued →
    Step compiler s (.enqueueTemplate item now id (answer (s.enqueueTemplate item now id)))
      (s.settle (s.enqueueTemplate item now id))
  | beginPackage {s : State Resolved CounterState Batch} {ref : Ref} {revision : Nat}
      {job : ClaimedJob} {ctx : JobExecutionContext} {now : Nat}
      {effective : Except String Resolved} :
    (ctx.workerId, job) ∈ s.queue.received → ctx.fencingToken = job.fencingToken →
    Step compiler s
      (.beginPackage ref revision job ctx now
        (answer (s.beginPackage compiler ref revision job ctx now effective)))
      (s.settle (s.beginPackage compiler ref revision job ctx now effective))
  | beginTemplate {s : State Resolved CounterState Batch} {ref : Ref} {revision : Nat}
      {job : ClaimedJob} {ctx : JobExecutionContext} {now : Nat} :
    (ctx.workerId, job) ∈ s.queue.received → ctx.fencingToken = job.fencingToken →
    Step compiler s
      (.beginTemplate ref revision job ctx now
        (answer (s.beginTemplate ref revision job ctx now)))
      (s.settle (s.beginTemplate ref revision job ctx now))
  | commitPackage {s : State Resolved CounterState Batch} {plan : CollectorPlan}
      {states : Table String CounterState} {written : Except String Batch} {job : ClaimedJob}
      {ctx : JobExecutionContext} {now later : Nat} :
    (ctx.workerId, job, .package plan) ∈ s.begun → ctx.fencingToken = job.fencingToken →
    s.queue.store.now ≤ later →
    Step compiler s
      (.commitPackage plan job ctx now later
        (answer (s.commitPackage plan states written job ctx now later)))
      ((s.settle (s.commitPackage plan states written job ctx now later)).tick later)
  | commitTemplate {s : State Resolved CounterState Batch} {snapshot : TemplateSnapshot CounterState}
      {results : List (List (String × CounterState))} {written : Except String Batch}
      {job : ClaimedJob} {ctx : JobExecutionContext} {now later : Nat} :
    (ctx.workerId, job, .template snapshot) ∈ s.begun → ctx.fencingToken = job.fencingToken →
    s.queue.store.now ≤ later →
    Step compiler s
      (.commitTemplate snapshot job ctx now later
        (answer (s.commitTemplate snapshot results written job ctx now later)))
      ((s.settle (s.commitTemplate snapshot results written job ctx now later)).tick later)

/-! ## What each transaction does -/

section Transactions

variable {s t : State Resolved CounterState Batch} {ref : Ref} {revision now later intervalMs : Nat}
  {id : JobId} {job : ClaimedJob} {ctx : JobExecutionContext} {b : Bool}

/-- What a passed fence says about the tables. -/
structure Fence (s : State Resolved CounterState Batch) (ref : Ref) (revision : Nat) (id : JobId)
    (ctx : JobExecutionContext) : Prop where
  published : ∃ binding, s.bindings.get ref = some binding ∧ binding.revision = revision
  leased : s.leased id ctx = true
  scheduled : ∃ row, s.schedule.get ref = some row ∧ row.revision = revision ∧ row.jobId = some id

theorem State.of_scheduled {row : ScheduleRow CounterState}
    (found : s.scheduled ref revision id = some row) :
    s.schedule.get ref = some row ∧ row.revision = revision ∧ row.jobId = some id := by
  obtain ⟨stored, pass⟩ := Option.filter_eq_some_iff.mp found
  simpa [stored] using pass

theorem State.of_fenced {Binding : Type} {current : Except String (Option Binding)}
    {revisionOf : Binding → Nat} {binding : Binding}
    (passed : s.fenced current revisionOf ref revision job ctx = .ok (some binding)) :
    current = .ok (some binding) ∧ revisionOf binding = revision ∧ s.leased job.id ctx = true ∧
      ∃ row, s.schedule.get ref = some row ∧ row.revision = revision ∧ row.jobId = some job.id := by
  unfold State.fenced at passed
  obtain ⟨_, -, passed⟩ := bind_eq_ok.mp passed
  obtain ⟨_, -, passed⟩ := bind_eq_ok.mp passed
  split at passed
  next => cases passed
  obtain ⟨found, read, passed⟩ := bind_eq_ok.mp passed
  cases found with
  | none => cases passed
  | some found =>
    dsimp only at passed
    split at passed
    next => cases passed
    next same =>
      split at passed
      next => cases passed
      next lease =>
        split at passed
        next => cases passed
        next named =>
          obtain rfl : found = binding := some.inj (Except.ok.inj passed)
          cases row : s.scheduled ref revision job.id with
          | none => exact absurd (row ▸ rfl) named
          | some row' =>
            exact ⟨read, not_not.mp same, by simpa using lease, row', State.of_scheduled row⟩

theorem State.of_current {published : Published Resolved}
    (read : s.current ref = .ok (some published)) :
    s.bindings.get ref = some (.package published) := by
  unfold State.current at read
  split at read
  next => cases read
  next found =>
    cases read
    exact found
  next => cases read

theorem State.of_valid {published : Published Resolved}
    (passed : s.valid ref revision job ctx = .ok (some published)) :
    Fence s ref revision job.id ctx ∧ s.bindings.get ref = some (.package published) := by
  obtain ⟨read, same, lease, named⟩ := State.of_fenced passed
  have stored := State.of_current read
  exact ⟨⟨⟨_, stored, same⟩, lease, named⟩, stored⟩

theorem State.of_currentTemplate {decoded : TemplateBinding}
    (read : s.currentTemplate ref = .ok (some decoded)) :
    s.bindings.get ref = some (.template decoded) := by
  unfold State.currentTemplate at read
  split at read
  next found =>
    cases read
    exact found
  next => cases read

theorem State.of_validTemplate {decoded : TemplateBinding}
    (passed : s.validTemplate ref revision job ctx = .ok (some decoded)) :
    Fence s ref revision job.id ctx := by
  obtain ⟨read, same, lease, named⟩ := State.of_fenced passed
  exact ⟨⟨_, State.of_currentTemplate read, same⟩, lease, named⟩

/-- The row both `enqueue` transactions write before they queue anything. -/
structure Prepared (s : State Resolved CounterState Batch) (ref : Ref) (revision : Nat)
    (row : ScheduleRow CounterState) : Prop where
  revision_eq : row.revision = revision
  jobId_eq : row.jobId = none
  kept : ∀ old, s.schedule.get ref = some old → row.lastEndMs = old.lastEndMs ∧
    (old.revision = revision → row.states = old.states ∧ old.nextDueMs ≤ row.nextDueMs)

/-- What the shared part of the `enqueue` transactions can do. -/
inductive Filled (s : State Resolved CounterState Batch) (ref : Ref) (revision now : Nat)
    (id : JobId) : State Resolved CounterState Batch → Bool → Prop
  | idle : Filled s ref revision now id s false
  | waiting {row : ScheduleRow CounterState} : Prepared s ref revision row →
    Filled s ref revision now id { s with schedule := s.schedule.put ref row } false
  | queued {row : ScheduleRow CounterState} : Prepared s ref revision row → row.nextDueMs ≤ now →
    Filled s ref revision now id
      { s with
        schedule := s.schedule.put ref { row with jobId := some id }
        queue := { s.queue with store := s.queue.store.enqueue (State.jobInput ref now id) }
        issued := id :: s.issued } true

theorem State.queueDue_filled {next : Nat}
    (later : ∀ old, s.schedule.get ref = some old → old.revision = revision →
      old.nextDueMs ≤ next) :
    Filled s ref revision now id (s.queueDue ref revision next none intervalMs now id).1
      (s.queueDue ref revision next none intervalMs now id).2 := by
  have prepared : Prepared s ref revision
      (State.upsert (s.schedule.get ref) revision next none) := by
    unfold State.upsert
    cases found : s.schedule.get ref with
    | none => exact ⟨rfl, rfl, fun old same => by rw [found] at same; cases same⟩
    | some row =>
      refine ⟨rfl, rfl, fun old same => ?_⟩
      obtain rfl := some.inj (found.symm.trans same)
      exact ⟨rfl, fun current => ⟨if_pos current, later row found current⟩⟩
  have due : (State.upsert (s.schedule.get ref) revision next none).nextDueMs = next := by
    unfold State.upsert
    split <;> rfl
  unfold State.queueDue
  dsimp only
  split
  next => exact .waiting prepared
  next soon =>
    split
    next => exact .waiting prepared
    next => exact .queued prepared (by rw [due]; omega)

theorem State.fillSlot_filled {jitterMs : Nat} :
    Filled s ref revision now id (s.fillSlot ref revision jitterMs intervalMs now id).1
      (s.fillSlot ref revision jitterMs intervalMs now id).2 := by
  have later : ∀ old, s.schedule.get ref = some old → old.revision = revision →
      (State.slot (s.schedule.get ref) revision jitterMs intervalMs now).1 = old.nextDueMs := by
    intro old found current
    rw [found, State.slot, if_neg (not_not.mpr current)]
  unfold State.fillSlot
  dsimp only
  split
  next => exact State.queueDue_filled fun old found current => (later old found current).ge
  next =>
    split
    next => exact .idle
    next =>
      apply State.queueDue_filled
      intro old found current
      have same := later old found current
      omega

private theorem refused (done : (pure (s, false) : Except String _) = .ok (t, b)) :
    t = s ∧ b = false := by
  cases done
  exact ⟨rfl, rfl⟩

theorem State.of_enqueue {compiler : Compiler Resolved} {input : StoredBinding Resolved}
    (done : s.enqueue compiler input now id = .ok (t, b)) :
    t = s ∧ b = false ∨ ∃ published, input = .package published ∧
      (∃ binding, s.bindings.get published.resource = some binding ∧
        binding.revision = published.revision) ∧
      Filled s published.resource published.revision now id t b := by
  unfold State.enqueue at done
  split at done
  next published =>
    dsimp only at done
    split at done
    next => exact .inl (refused done)
    obtain ⟨plan, -, done⟩ := bind_eq_ok.mp done
    obtain ⟨identity, done⟩ := guard_eq_ok.mp done
    obtain ⟨found, read, done⟩ := bind_eq_ok.mp done
    cases found with
    | none => exact .inl (refused done)
    | some current =>
      dsimp only at done
      split at done
      next => exact .inl (refused done)
      next same =>
        split at done
        next => exact .inl (refused done)
        split at done
        next => exact .inl (refused done)
        split at done
        next => exact .inl (refused done)
        right
        obtain ⟨revisions, -⟩ := not_not.mp identity
        refine ⟨published, rfl, ⟨_, State.of_current read, (not_not.mp same).trans revisions⟩, ?_⟩
        have filled := @State.fillSlot_filled _ _ _ s published.resource plan.revision now
          plan.intervalMs id plan.jitterMs
        rw [Except.ok.inj done, revisions] at filled
        exact filled
  next => cases done

theorem State.of_enqueueTemplate {item : TemplateBinding}
    (done : s.enqueueTemplate item now id = .ok (t, b)) :
    t = s ∧ b = false ∨
      (∃ binding, s.bindings.get item.resource = some binding ∧
        binding.revision = item.revision) ∧
      Filled s item.resource item.revision now id t b := by
  unfold State.enqueueTemplate at done
  dsimp only at done
  split at done
  next => exact .inl (refused done)
  split at done
  next => exact .inl (refused done)
  obtain ⟨found, read, done⟩ := bind_eq_ok.mp done
  cases found with
  | none => exact .inl (refused done)
  | some current =>
    dsimp only at done
    split at done
    next => exact .inl (refused done)
    next same =>
      split at done
      next => exact .inl (refused done)
      right
      refine ⟨⟨_, State.of_currentTemplate read, not_not.mp same⟩, ?_⟩
      have filled := @State.fillSlot_filled _ _ _ s item.resource item.revision now
        item.intervalMs id item.jitterMs
      rw [Except.ok.inj done] at filled
      exact filled

/-- The schedule and what hangs on it stay, and no binding falls back. -/
structure Quiet (s t : State Resolved CounterState Batch) : Prop where
  schedule : t.schedule = s.schedule
  issued : t.issued = s.issued
  batches : t.batches = s.batches
  rises : ∀ ref old, s.bindings.get ref = some old →
    ∃ new, t.bindings.get ref = some new ∧ old.revision ≤ new.revision

theorem Quiet.refl : Quiet s s := ⟨rfl, rfl, rfl, fun _ old found => ⟨old, found, le_rfl⟩⟩

theorem State.of_beginPackage {compiler : Compiler Resolved} {effective : Except String Resolved}
    (done : s.beginPackage compiler ref revision job ctx now effective = .ok (t, b)) :
    Quiet s t ∧ t.queue = s.queue := by
  unfold State.beginPackage at done
  obtain ⟨found, passed, done⟩ := bind_eq_ok.mp done
  cases found with
  | none =>
    obtain ⟨rfl, -⟩ := refused done
    exact ⟨.refl, rfl⟩
  | some published =>
    obtain ⟨plan, -, done⟩ := bind_eq_ok.mp done
    split at done
    next =>
      obtain ⟨rfl, -⟩ := refused done
      exact ⟨.refl, rfl⟩
    obtain ⟨-, done⟩ := guard_eq_ok.mp done
    cases done
    refine ⟨⟨rfl, rfl, rfl, fun other old stored => ?_⟩, rfl⟩
    by_cases same : other = ref
    · subst same
      obtain rfl := some.inj ((State.of_valid passed).2.symm.trans stored)
      exact ⟨_, Table.get_put_self, le_rfl⟩
    · exact ⟨old, by rw [Table.get_put_ne same]; exact stored, le_rfl⟩

theorem State.of_beginTemplate
    (done : s.beginTemplate ref revision job ctx now = .ok (t, b)) :
    Quiet s t ∧ t.queue = s.queue := by
  unfold State.beginTemplate at done
  obtain ⟨found, -, done⟩ := bind_eq_ok.mp done
  cases found with
  | none =>
    obtain ⟨rfl, -⟩ := refused done
    exact ⟨.refl, rfl⟩
  | some decoded =>
    dsimp only at done
    split at done
    next =>
      obtain ⟨-, done⟩ := guard_eq_ok.mp done
      cases done
      exact ⟨⟨rfl, rfl, rfl, fun _ old stored => ⟨old, stored, le_rfl⟩⟩, rfl⟩
    next =>
      obtain ⟨rfl, -⟩ := refused done
      exact ⟨.refl, rfl⟩

theorem State.of_commitFenced {Binding : Type}
    {valid : State Resolved CounterState Batch → Except String (Option Binding)}
    {states : Table String CounterState} {written : Except String Batch}
    (done : s.commitFenced valid ref id states intervalMs written now later = .ok (t, b)) :
    t = s ∧ b = false ∨ b = true ∧ (∃ binding, valid s = .ok (some binding)) ∧
      (∃ binding, valid (s.tick later) = .ok (some binding)) ∧
      ∃ batch, t = (s.tick later).finishCycle ref id batch states now intervalMs := by
  unfold State.commitFenced at done
  obtain ⟨first, passed, done⟩ := bind_eq_ok.mp done
  cases first with
  | none => exact .inl (refused done)
  | some first =>
    dsimp only at done
    split at done
    next => exact .inl (refused done)
    obtain ⟨batch, -, done⟩ := bind_eq_ok.mp done
    obtain ⟨second, still, done⟩ := bind_eq_ok.mp done
    cases second with
    | none => cases done
    | some second =>
      cases done
      exact .inr ⟨rfl, ⟨first, passed⟩, ⟨second, still⟩, batch, rfl⟩

end Transactions

/-! ## What each step does -/

section Effects

variable {compiler : Compiler Resolved} {s t : State Resolved CounterState Batch}
  {e : Event Resolved CounterState Batch}

/-- What one step does to the schedule. -/
inductive Effect (s : State Resolved CounterState Batch) (e : Event Resolved CounterState Batch) :
    State Resolved CounterState Batch → Prop
  | quiet {t : State Resolved CounterState Batch} : e.admission = none → e.commitment = none →
    Quiet s t → Effect s e t
  /-- An `enqueue` of the current revision. -/
  | filled {t : State Resolved CounterState Batch} {ref : Ref} {revision : Nat} {id : JobId}
      {b : Bool} : e.admission = (if b then some (ref, revision, id) else none) →
    e.commitment = none → id ∉ s.issued →
    (∃ binding, s.bindings.get ref = some binding ∧ binding.revision = revision) →
    Filled s ref revision e.now id t b → Effect s e t
  /-- A commit, under the fence before and after its writes. -/
  | committed {ref : Ref} {revision : Nat} {id : JobId} {ctx : JobExecutionContext} {batch : Batch}
      {states : Table String CounterState} {later : Nat} : e.admission = none →
    e.commitment = some (ref, revision, id) → Fence s ref revision id ctx →
    Fence (s.tick later) ref revision id ctx →
    Effect s e ((s.tick later).finishCycle ref id batch states e.now e.intervalMs)

theorem Step.effect (step : Step compiler s e t) : Effect s e t := by
  cases step with
  | queue => exact .quiet rfl rfl ⟨rfl, rfl, rfl, fun _ old stored => ⟨old, stored, le_rfl⟩⟩
  | @publish ref binding higher =>
    refine .quiet rfl rfl ⟨rfl, rfl, rfl, fun other old stored => ?_⟩
    by_cases same : other = ref
    · subst same
      exact ⟨binding, Table.get_put_self, (higher old stored).le⟩
    · exact ⟨old, by rw [Table.get_put_ne same]; exact stored, le_rfl⟩
  | asset | coordinate =>
    exact .quiet rfl rfl ⟨rfl, rfl, rfl, fun _ old stored => ⟨old, stored, le_rfl⟩⟩
  | @enqueue input now id fresh =>
    cases done : s.enqueue compiler input now id with
    | error => exact .quiet (by cases input <;> rfl) rfl .refl
    | ok result =>
      obtain ⟨t, b⟩ := result
      rcases State.of_enqueue done with ⟨rfl, rfl⟩ | ⟨published, rfl, current, filled⟩
      · exact .quiet (by cases input <;> rfl) rfl .refl
      · exact .filled (by cases b <;> rfl) rfl fresh current filled
  | @enqueueTemplate item now id fresh =>
    cases done : s.enqueueTemplate item now id with
    | error => exact .quiet rfl rfl .refl
    | ok result =>
      obtain ⟨t, b⟩ := result
      rcases State.of_enqueueTemplate done with ⟨rfl, rfl⟩ | ⟨current, filled⟩
      · exact .quiet rfl rfl .refl
      · exact .filled (by cases b <;> rfl) rfl fresh current filled
  | @beginPackage ref revision job ctx now effective =>
    cases done : s.beginPackage compiler ref revision job ctx now effective with
    | error => exact .quiet rfl rfl .refl
    | ok => exact .quiet rfl rfl (State.of_beginPackage done).1
  | @beginTemplate ref revision job ctx now =>
    cases done : s.beginTemplate ref revision job ctx now with
    | error => exact .quiet rfl rfl .refl
    | ok => exact .quiet rfl rfl (State.of_beginTemplate done).1
  | @commitPackage plan states written job ctx now later =>
    have ticked : Quiet s (s.tick later) :=
      ⟨rfl, rfl, rfl, fun _ old stored => ⟨old, stored, le_rfl⟩⟩
    cases done : s.commitPackage plan states written job ctx now later with
    | error => exact .quiet rfl rfl ticked
    | ok result =>
      obtain ⟨t, b⟩ := result
      rcases State.of_commitFenced done with ⟨rfl, rfl⟩ | ⟨rfl, ⟨_, first⟩, ⟨_, second⟩, batch, rfl⟩
      · exact .quiet rfl rfl ticked
      · exact .committed rfl rfl (State.of_valid first).1 (State.of_valid second).1
  | @commitTemplate snapshot results written job ctx now later =>
    have ticked : Quiet s (s.tick later) :=
      ⟨rfl, rfl, rfl, fun _ old stored => ⟨old, stored, le_rfl⟩⟩
    cases done : s.commitTemplate snapshot results written job ctx now later with
    | error => exact .quiet rfl rfl ticked
    | ok result =>
      obtain ⟨t, b⟩ := result
      rcases State.of_commitFenced done with ⟨rfl, rfl⟩ | ⟨rfl, ⟨_, first⟩, ⟨_, second⟩, batch, rfl⟩
      · exact .quiet rfl rfl ticked
      · exact .committed rfl rfl (State.of_validTemplate first) (State.of_validTemplate second)

end Effects

end Slide.Scheduler
