import Slide.Scheduler.Steps

/-!
# One commit for each slot

The job ids of the schedule are tickets: `enqueue` issues one for a resource at its current revision,
a later revision or a finished job withdraws it, and a commit redeems it.  With that, the fence of
the queue and the order of the revisions, at most one job of a resource can commit at any moment, no
job commits twice, and none commits for a superseded revision.
-/

namespace Slide.Scheduler

open Slide.Workflows Transition List

variable {Resolved CounterState Batch : Type} {compiler : Compiler Resolved}
  {s t u : State Resolved CounterState Batch} {e : Event Resolved CounterState Batch}
  {es fs : List (Event Resolved CounterState Batch)}

/-- The jobs queued for a resource at a revision, in order. -/
def admissionsOf (es : List (Event Resolved CounterState Batch)) : List (Ref × Nat × JobId) :=
  es.filterMap Event.admission

/-- The jobs that committed, in order. -/
def commitsOf (es : List (Event Resolved CounterState Batch)) : List (Ref × Nat × JobId) :=
  es.filterMap Event.commitment

theorem admissionsOf_snoc : admissionsOf (es ++ [e]) = admissionsOf es ++ e.admission.toList := by
  cases answer : e.admission <;> simp [admissionsOf, answer]

theorem commitsOf_snoc : commitsOf (es ++ [e]) = commitsOf es ++ e.commitment.toList := by
  cases answer : e.commitment <;> simp [commitsOf, answer]

/-- What the queue saw of a run. -/
def statementsOf (es : List (Event Resolved CounterState Batch)) : List Statement :=
  es.flatMap Event.statements

/-- The commit fence of either path lets this job through. -/
def Passes (s : State Resolved CounterState Batch) (ref : Ref) (revision : Nat) (job : ClaimedJob)
    (ctx : JobExecutionContext) : Prop :=
  (∃ published, s.valid ref revision job ctx = .ok (some published)) ∨
    ∃ decoded, s.validTemplate ref revision job ctx = .ok (some decoded)

variable {ref : Ref} {revision : Nat} {ctx : JobExecutionContext}

theorem Passes.fence {job : ClaimedJob}
    (passes : Passes s ref revision job ctx) : Fence s ref revision job.id ctx := by
  rcases passes with ⟨_, passed⟩ | ⟨_, passed⟩
  · exact (State.of_valid passed).1
  · exact State.of_validTemplate passed

/-! ## The queue underneath -/

theorem Step.queue_run (step : Step compiler s e t) :
    Run Workflows.Step s.queue e.statements t.queue := by
  have clock : ∀ later, s.queue.store.now ≤ later →
      Run Workflows.Step s.queue [.clock later] (s.tick later).queue :=
    fun later le => .single (.clock le)
  cases step with
  | queue statement => exact .single statement
  | publish | asset | coordinate => exact .nil
  | @enqueue input now id =>
    cases done : s.enqueue compiler input now id with
    | error => cases input <;> exact .nil
    | ok result =>
      obtain ⟨t, b⟩ := result
      rcases State.of_enqueue done with ⟨rfl, rfl⟩ | ⟨published, rfl, -, filled⟩
      · cases input <;> exact .nil
      · cases filled with
        | idle | waiting => exact .nil
        | queued => exact .single .enqueue
  | @enqueueTemplate item now id =>
    cases done : s.enqueueTemplate item now id with
    | error => exact .nil
    | ok result =>
      obtain ⟨t, b⟩ := result
      rcases State.of_enqueueTemplate done with ⟨rfl, rfl⟩ | ⟨-, filled⟩
      · exact .nil
      · cases filled with
        | idle | waiting => exact .nil
        | queued => exact .single .enqueue
  | @beginPackage ref revision job ctx now effective =>
    cases done : s.beginPackage compiler ref revision job ctx now effective with
    | error => exact .nil
    | ok result =>
      have same := (State.of_beginPackage done).2
      change Run Workflows.Step s.queue [] result.1.queue
      rw [same]
      exact .nil
  | @beginTemplate ref revision job ctx now =>
    cases done : s.beginTemplate ref revision job ctx now with
    | error => exact .nil
    | ok result =>
      have same := (State.of_beginTemplate done).2
      change Run Workflows.Step s.queue [] result.1.queue
      rw [same]
      exact .nil
  | @commitPackage plan states written job ctx now later _ _ le =>
    cases done : s.commitPackage plan states written job ctx now later with
    | error => exact clock later le
    | ok result =>
      obtain ⟨t, b⟩ := result
      rcases State.of_commitFenced done with ⟨rfl, rfl⟩ | ⟨-, -, -, batch, rfl⟩
      · exact clock later le
      · exact clock later le
  | @commitTemplate snapshot results written job ctx now later _ _ le =>
    cases done : s.commitTemplate snapshot results written job ctx now later with
    | error => exact clock later le
    | ok result =>
      obtain ⟨t, b⟩ := result
      rcases State.of_commitFenced done with ⟨rfl, rfl⟩ | ⟨-, -, -, batch, rfl⟩
      · exact clock later le
      · exact clock later le

theorem queue_of_run (run : Run (Step compiler) s es t) :
    Run Workflows.Step s.queue (statementsOf es) t.queue := by
  induction run with
  | nil => exact .nil
  | snoc _ last ih =>
    rw [statementsOf, flatMap_append, flatMap_singleton]
    exact ih.trans last.queue_run

variable {id : JobId}

theorem leased_unique {ctx' : JobExecutionContext} (left : s.leased id ctx = true)
    (right : s.leased id ctx' = true) :
    ctx.workerId = ctx'.workerId ∧ ctx.fencingToken = ctx'.fencingToken := by
  obtain ⟨row, found, hold⟩ := (Option.any_eq_true _ _).mp left
  obtain ⟨row', found', hold'⟩ := (Option.any_eq_true _ _).mp right
  obtain rfl := some.inj (found.symm.trans found')
  obtain ⟨-, owner, token, -⟩ := holds_iff.mp hold
  obtain ⟨-, owner', token', -⟩ := holds_iff.mp hold'
  exact ⟨some.inj (owner.symm.trans owner'), token.symm.trans token'⟩

theorem leased_latest (run : Run (Step compiler) .initial es s) (lease : s.leased id ctx = true) :
    ctx.fencingToken = (claimsOf id (statementsOf es)).length ∧
      (claimsOf id (statementsOf es)).getLast? = some ctx.workerId := by
  obtain ⟨row, found, hold⟩ := (Option.any_eq_true _ _).mp lease
  obtain ⟨running, owner, token, -⟩ := holds_iff.mp hold
  have history := (recorded_of_run (queue_of_run run) id).2 row found
  exact ⟨token.symm.trans history.token, (history.owner running).symm.trans owner⟩

/-! ## Jobs are tickets -/

/-- The job each resource names, under the revision of its row. -/
def State.book (s : State Resolved CounterState Batch) : Ticket.Book Ref Nat JobId where
  named ref := (s.schedule.get ref).bind fun row => row.jobId.map (row.revision, ·)
  drawn := s.issued

theorem Fence.named
    (fence : Fence s ref revision id ctx) : s.book.named ref = some (revision, id) := by
  obtain ⟨row, found, same, named⟩ := fence.scheduled
  simp [State.book, found, same, named]

private theorem named_of_put {schedule : Table Ref (ScheduleRow CounterState)}
    {row : ScheduleRow CounterState}
    (after : ∀ other, schedule.get other = if other = ref then some row else s.schedule.get other) :
    (fun other => (schedule.get other).bind fun row => row.jobId.map (row.revision, ·)) =
      Function.update s.book.named ref (row.jobId.map (row.revision, ·)) := by
  funext other
  rw [after, Function.update_apply]
  split <;> rfl

theorem State.get_finishCycle {other : Ref} {batch : Batch}
    {states : Table String CounterState} {now later intervalMs : Nat}
    {row : ScheduleRow CounterState} (found : s.schedule.get ref = some row) :
    ((s.tick later).finishCycle ref id batch states now intervalMs).schedule.get other =
      if other = ref then
        some { row with
          states, jobId := none, lastEndMs := some now, nextDueMs := now + intervalMs }
      else s.schedule.get other := by
  have stored : (s.tick later).schedule.get ref = some row := found
  simp only [State.finishCycle, Table.get_updateWhere, stored, Option.map_some, if_true]
  rfl

theorem Step.kept (step : Step compiler s e t)
    (kept : Ticket.Kept (admissionsOf es) (commitsOf es) s.book) :
    Ticket.Kept (admissionsOf (es ++ [e])) (commitsOf (es ++ [e])) t.book := by
  rw [admissionsOf_snoc, commitsOf_snoc]
  cases step.effect with
  | quiet noAdmission noCommit same =>
    have books : t.book = s.book := by
      unfold State.book
      rw [same.schedule, same.issued]
    rw [noAdmission, noCommit, books]
    simpa using kept
  | @filled _ ref revision id b admission noCommit fresh current filled =>
    rw [admission, noCommit]
    cases filled with
    | idle => simpa using kept
    | @waiting row prepared =>
      have books : (State.book { s with schedule := s.schedule.put ref row }) =
          s.book.name ref none := by
        unfold State.book
        rw [named_of_put (fun _ => Table.get_put), prepared.jobId_eq]
        rfl
      rw [books]
      exact kept.step .withdraw
    | @queued row prepared due =>
      have books : ∀ queue, (State.book
          { s with
            schedule := s.schedule.put ref { row with jobId := some id }
            queue, issued := id :: s.issued }) =
          { s.book.name ref (some (revision, id)) with drawn := id :: s.issued } := by
        intro queue
        unfold State.book
        rw [named_of_put (fun _ => Table.get_put), prepared.revision_eq]
        rfl
      rw [books]
      exact kept.step (.issue fresh)
  | @committed ref revision id ctx batch states later noAdmission commit fence _ =>
    rw [noAdmission, commit]
    obtain ⟨row, found, same, named⟩ := fence.scheduled
    have books : ((s.tick later).finishCycle ref id batch states e.now e.intervalMs).book =
        s.book.name ref none := by
      unfold State.book
      rw [named_of_put (fun _ => State.get_finishCycle found)]
      rfl
    rw [books]
    exact kept.step (.redeem fence.named)

theorem kept_of_run (run : Run (Step compiler) .initial es s) :
    Ticket.Kept (admissionsOf es) (commitsOf es) s.book := by
  refine run.history (P := fun es s => Ticket.Kept (admissionsOf es) (commitsOf es) s.book) ?_
    fun _ _ _ _ kept step => step.kept kept
  exact Ticket.Kept.empty

/-! ## Revisions and cadence -/

/-- A resource's row never runs ahead of its binding. -/
def Behind (s : State Resolved CounterState Batch) : Prop :=
  ∀ ref row, s.schedule.get ref = some row →
    ∃ binding, s.bindings.get ref = some binding ∧ row.revision ≤ binding.revision

theorem Step.rises (step : Step compiler s e t) {old : StoredBinding Resolved}
    (found : s.bindings.get ref = some old) :
    ∃ new, t.bindings.get ref = some new ∧ old.revision ≤ new.revision := by
  cases step.effect with
  | quiet _ _ same => exact same.rises ref old found
  | filled _ _ _ _ filled => cases filled <;> exact ⟨old, found, le_rfl⟩
  | committed => exact ⟨old, found, le_rfl⟩

/-- What a step makes of the row of one resource: nothing, a row prepared for the current revision,
that row with a fresh job, or a finished cycle. -/
inductive RowEffect (s : State Resolved CounterState Batch) (e : Event Resolved CounterState Batch)
    (ref : Ref) : Option (ScheduleRow CounterState) → Prop
  | same : (∀ revision id, e.admission ≠ some (ref, revision, id)) →
    (∀ revision id, e.commitment ≠ some (ref, revision, id)) → RowEffect s e ref (s.schedule.get ref)
  | waiting {binding : StoredBinding Resolved} {row : ScheduleRow CounterState} :
    s.bindings.get ref = some binding → Prepared s ref binding.revision row →
    e.admission = none → e.commitment = none → RowEffect s e ref (some row)
  | queued {binding : StoredBinding Resolved} {row : ScheduleRow CounterState} {id : JobId} :
    s.bindings.get ref = some binding → Prepared s ref binding.revision row →
    e.admission = some (ref, binding.revision, id) → e.commitment = none → row.nextDueMs ≤ e.now →
    RowEffect s e ref (some { row with jobId := some id })
  | finished {row : ScheduleRow CounterState} {id : JobId} {states : Table String CounterState} :
    e.admission = none → e.commitment = some (ref, row.revision, id) →
    s.schedule.get ref = some row → row.jobId = some id →
    RowEffect s e ref (some
      { row with
        states, jobId := none, lastEndMs := some e.now, nextDueMs := e.now + e.intervalMs })

theorem Step.rowEffect (step : Step compiler s e t) (ref : Ref) :
    RowEffect s e ref (t.schedule.get ref) := by
  cases step.effect with
  | quiet noAdmission noCommit same =>
    rw [same.schedule]
    exact .same (by simp [noAdmission]) (by simp [noCommit])
  | @filled _ place revision id b admission noCommit _ current filled =>
    obtain ⟨binding, stored, rfl⟩ := current
    cases filled with
    | idle => exact .same (by simp [admission]) (by simp [noCommit])
    | @waiting row prepared =>
      rw [Table.get_put]
      split
      next same =>
        subst same
        exact .waiting stored prepared admission noCommit
      next => exact .same (by simp [admission]) (by simp [noCommit])
    | @queued row prepared due =>
      rw [Table.get_put]
      split
      next same =>
        subst same
        exact .queued stored prepared admission noCommit due
      next differ =>
        refine .same (fun revision id same => differ ?_) (by simp [noCommit])
        rw [admission] at same
        cases same
        rfl
  | @committed place revision id ctx batch states later noAdmission commit fence _ =>
    obtain ⟨row, found, rfl, named⟩ := fence.scheduled
    rw [State.get_finishCycle found]
    split
    next same =>
      subst same
      exact .finished noAdmission commit found named
    next differ =>
      refine .same (by simp [noAdmission]) fun revision id same => differ ?_
      rw [commit] at same
      cases same
      rfl

theorem Step.behind (step : Step compiler s e t) (behind : Behind s) : Behind t := by
  intro ref row stored
  have carry : ∀ {binding : StoredBinding Resolved}, s.bindings.get ref = some binding →
      row.revision ≤ binding.revision →
      ∃ binding, t.bindings.get ref = some binding ∧ row.revision ≤ binding.revision := by
    intro binding found le
    obtain ⟨new, after, rise⟩ := step.rises found
    exact ⟨new, after, le.trans rise⟩
  have change := step.rowEffect ref
  rw [stored] at change
  generalize after : some row = cell at change
  cases change with
  | same =>
    obtain ⟨binding, found, le⟩ := behind ref row after.symm
    exact carry found le
  | waiting found ready =>
    cases after
    exact carry found ready.revision_eq.le
  | queued found ready =>
    cases after
    exact carry found ready.revision_eq.le
  | finished _ _ before =>
    cases after
    obtain ⟨binding, found, le⟩ := behind ref _ before
    exact carry found le

theorem behind_of_run (run : Run (Step compiler) .initial es s) : Behind s :=
  run.invariant (P := Behind) (fun _ _ stored => by cases stored) fun _ _ _ behind step =>
    step.behind behind

theorem batches_of_run (run : Run (Step compiler) .initial es s) :
    s.batches.map Prod.fst = (commitsOf es).map (·.2.2) := by
  refine run.history (P := fun es s => s.batches.map Prod.fst = (commitsOf es).map (·.2.2)) rfl ?_
  intro es s e t same step
  rw [commitsOf_snoc, map_append, ← same]
  cases step.effect with
  | quiet _ noCommit still => rw [noCommit, still.batches]; simp
  | filled _ noCommit _ _ filled => rw [noCommit]; cases filled <;> simp
  | @committed ref revision id ctx batch states later _ commit =>
    rw [commit]
    simp [State.finishCycle, State.tick]

/-- No job of this revision is due before `due`: the row says so, or the resource has moved on. -/
def Paced (ref : Ref) (revision due : Nat) (s : State Resolved CounterState Batch) : Prop :=
  ∃ row, s.schedule.get ref = some row ∧
    (row.revision = revision ∧ due ≤ row.nextDueMs ∨ revision < row.revision)

theorem Step.paced (step : Step compiler s e t) (behind : Behind s)
    {due : Nat} (paced : Paced ref revision due s)
    (noCommit : ∀ id, e.commitment ≠ some (ref, revision, id)) :
    Paced ref revision due t ∧ ∀ id, e.admission = some (ref, revision, id) → due ≤ e.now := by
  obtain ⟨old, stored, pace⟩ := paced
  -- a row prepared for the current revision is of this one and no earlier, or of a later one
  have prepare : ∀ {binding : StoredBinding Resolved} {row : ScheduleRow CounterState},
      s.bindings.get ref = some binding → Prepared s ref binding.revision row →
      row.revision = revision ∧ due ≤ row.nextDueMs ∨ revision < row.revision := by
    intro binding row found ready
    obtain ⟨current, published, le⟩ := behind ref old stored
    obtain rfl := some.inj (found.symm.trans published)
    rw [ready.revision_eq]
    rcases pace with ⟨same, later⟩ | superseded
    · rcases Nat.lt_or_ge revision binding.revision with newer | older
      · exact .inr newer
      · have current : old.revision = binding.revision := by omega
        have rise := ((ready.kept old stored).2 current).2
        exact .inl ⟨by omega, by omega⟩
    · exact .inr (by omega)
  have change := step.rowEffect ref
  generalize after : t.schedule.get ref = cell at change
  cases change with
  | same noAdmission =>
    exact ⟨⟨old, after.trans stored, pace⟩, fun id same => (noAdmission _ _ same).elim⟩
  | waiting found ready noAdmission =>
    refine ⟨⟨_, after, prepare found ready⟩, fun id same => ?_⟩
    rw [noAdmission] at same
    cases same
  | queued found ready admission _ ripe =>
    have pace' := prepare found ready
    refine ⟨⟨_, after, pace'⟩, fun id same => ?_⟩
    rw [admission] at same
    cases same
    rcases pace' with ⟨-, later⟩ | newer
    · exact later.trans ripe
    · rw [ready.revision_eq] at newer
      exact absurd newer (lt_irrefl _)
  | @finished row id states noAdmission commit before =>
    refine ⟨⟨_, after, ?_⟩, fun id same => ?_⟩
    · obtain rfl := some.inj (before.symm.trans stored)
      rcases pace with ⟨same, -⟩ | superseded
      · exact absurd (same ▸ commit) (noCommit id)
      · exact .inr superseded
    · rw [noAdmission] at same
      cases same

theorem superseded_of_run (run : Run (Step compiler) .initial es s)
    (admitted : (ref, revision, id) ∈ admissionsOf es)
    {binding : StoredBinding Resolved} (stored : s.bindings.get ref = some binding)
    (newer : revision < binding.revision) (later : Run (Step compiler) s fs t) :
    id ∉ (commitsOf fs).map (·.2.2) := by
  have all : Run (Step compiler) .initial (es ++ fs) t ∧
      (∃ new, t.bindings.get ref = some new ∧ revision < new.revision) ∧
      id ∉ (commitsOf fs).map (·.2.2) := by
    refine later.history (P := fun fs t => Run (Step compiler) .initial (es ++ fs) t ∧
      (∃ new, t.bindings.get ref = some new ∧ revision < new.revision) ∧
      id ∉ (commitsOf fs).map (·.2.2)) ⟨by rwa [append_nil], ⟨binding, stored, newer⟩, nofun⟩ ?_
    rintro fs t e u ⟨before, ⟨new, found, above⟩, uncommitted⟩ step
    obtain ⟨new', found', rise⟩ := step.rises found
    refine ⟨by rw [← append_assoc]; exact before.snoc step, ⟨new', found', by omega⟩, ?_⟩
    rw [commitsOf_snoc, map_append, mem_append, not_or]
    refine ⟨uncommitted, fun last => ?_⟩
    cases step.effect with
    | quiet _ noCommit | filled _ noCommit =>
      rw [noCommit] at last
      cases last
    | @committed place current id' ctx batch states later _ commit fence _ =>
      rw [commit] at last
      obtain rfl : id = id' := by simpa using last
      have kept := kept_of_run before
      have issued := (kept.named fence.named).1
      have mine : (ref, revision, id) ∈ admissionsOf (es ++ fs) := by
        rw [admissionsOf, filterMap_append]
        exact mem_append_left _ admitted
      obtain ⟨rfl, rfl⟩ := kept.unique mine issued
      obtain ⟨published, same, current⟩ := fence.published
      obtain rfl := some.inj (found.symm.trans same)
      omega
  exact all.2.2

theorem paced_of_run (run : Run (Step compiler) s fs t) (behind : Behind s)
    {due : Nat} (paced : Paced ref revision due s)
    (noCommit : ∀ id, (ref, revision, id) ∉ commitsOf fs) :
    Behind t ∧ Paced ref revision due t := by
  induction run with
  | nil => exact ⟨behind, paced⟩
  | @snoc fs t u e before step ih =>
    simp only [commitsOf_snoc, mem_append, not_or, Option.mem_toList] at noCommit
    obtain ⟨behind, paced⟩ := ih fun id => (noCommit id).1
    exact ⟨step.behind behind, (step.paced behind paced fun id => (noCommit id).2).1⟩

theorem Step.of_no_commit (step : Step compiler s e t) (noCommit : e.commitment = none) :
    t.batches = s.batches ∧ ∀ ref row, s.schedule.get ref = some row →
      ∃ row', t.schedule.get ref = some row' ∧ row'.lastEndMs = row.lastEndMs ∧
        (row'.revision = row.revision → row'.states = row.states) := by
  constructor
  · cases step.effect with
    | quiet _ _ same => exact same.batches
    | filled _ _ _ _ filled => cases filled <;> rfl
    | committed _ commit =>
      rw [noCommit] at commit
      cases commit
  · intro ref row stored
    have change := step.rowEffect ref
    generalize t.schedule.get ref = cell at change ⊢
    cases change with
    | same => exact ⟨row, stored, rfl, fun _ => rfl⟩
    | waiting _ ready =>
      obtain ⟨ended, within⟩ := ready.kept row stored
      exact ⟨_, rfl, ended, fun same => (within (same.symm.trans ready.revision_eq)).1⟩
    | queued _ ready =>
      obtain ⟨ended, within⟩ := ready.kept row stored
      exact ⟨_, rfl, ended, fun same => (within (same.symm.trans ready.revision_eq)).1⟩
    | finished _ commit =>
      rw [noCommit] at commit
      cases commit

theorem Step.of_commit (step : Step compiler s e t)
    (commit : e.commitment = some (ref, revision, id)) :
    (∃ ctx, Fence s ref revision id ctx) ∧
      ∃ row, t.schedule.get ref = some row ∧ row.revision = revision ∧ row.jobId = none ∧
        row.lastEndMs = some e.now ∧ row.nextDueMs = e.now + e.intervalMs := by
  cases step.effect with
  | quiet _ noCommit | filled _ noCommit =>
    rw [noCommit] at commit
    cases commit
  | @committed place current id' ctx batch states later _ commit' fence _ =>
    rw [commit'] at commit
    cases commit
    obtain ⟨row, found, same, -⟩ := fence.scheduled
    exact ⟨⟨ctx, fence⟩, _, (State.get_finishCycle found).trans (if_pos rfl), same, rfl, rfl, rfl⟩

/-- **One commit for each schedule slot**, over every interleaving of schedulers, workers, lease
changes and publications. -/
theorem single_commit (run : Run (Step compiler) .initial es s) :
    -- at most one job can pass the fence of a resource, under one claim
    (∀ ref r r' job job' ctx ctx', Passes s ref r job ctx → Passes s ref r' job' ctx' →
      r = r' ∧ job.id = job'.id ∧ ctx.workerId = ctx'.workerId ∧
        ctx.fencingToken = ctx'.fencingToken) ∧
    -- it is the job the row names, queued for the binding's revision, not committed yet, and the
    -- claim is its latest
    (∀ ref r job ctx, Passes s ref r job ctx → Fence s ref r job.id ctx ∧
      (ref, r, job.id) ∈ admissionsOf es ∧ job.id ∉ (commitsOf es).map (·.2.2) ∧
      ctx.fencingToken = (claimsOf job.id (statementsOf es)).length ∧
      (claimsOf job.id (statementsOf es)).getLast? = some ctx.workerId) ∧
    -- each job commits at most once, and what is stored is what was committed
    ((commitsOf es).map (·.2.2)).Nodup ∧ s.batches.map Prod.fst = (commitsOf es).map (·.2.2) ∧
    -- a job queued for a superseded revision never commits
    (∀ ref r id, (ref, r, id) ∈ admissionsOf es →
      ∀ binding, s.bindings.get ref = some binding → r < binding.revision →
        ∀ fs t, Run (Step compiler) s fs t → id ∉ (commitsOf fs).map (·.2.2)) ∧
    ∀ e t, Step compiler s e t →
      -- nothing else writes what a commit writes
      (e.commitment = none → t.batches = s.batches ∧ ∀ ref row, s.schedule.get ref = some row →
        ∃ row', t.schedule.get ref = some row' ∧ row'.lastEndMs = row.lastEndMs ∧
          (row'.revision = row.revision → row'.states = row.states)) ∧
      -- a commit ends the cycle, and until the next one no job of the revision is queued before
      -- the end plus the interval
      ∀ ref r id, e.commitment = some (ref, r, id) →
        (∃ ctx, Fence s ref r id ctx) ∧
        (∃ row, t.schedule.get ref = some row ∧ row.revision = r ∧ row.jobId = none ∧
          row.lastEndMs = some e.now ∧ row.nextDueMs = e.now + e.intervalMs) ∧
        ∀ fs u f v, Run (Step compiler) t fs u → (∀ id', (ref, r, id') ∉ commitsOf fs) →
          Step compiler u f v → ∀ id', f.admission = some (ref, r, id') →
            e.now + e.intervalMs ≤ f.now := by
  have kept := kept_of_run run
  refine ⟨?_, ?_, kept.spent, batches_of_run run, ?_, ?_⟩
  · intro ref r r' job job' ctx ctx' left right
    have named := left.fence.named.symm.trans right.fence.named
    obtain ⟨rfl, same⟩ := Prod.mk.inj (some.inj named)
    have lease := right.fence.leased
    rw [← same] at lease
    exact ⟨rfl, same, leased_unique left.fence.leased lease⟩
  · intro ref r job ctx passes
    have fence := passes.fence
    obtain ⟨admitted, unspent⟩ := kept.named fence.named
    obtain ⟨token, owner⟩ := leased_latest run fence.leased
    exact ⟨fence, admitted, unspent, token, owner⟩
  · intro ref r id admitted binding stored newer fs t later
    exact superseded_of_run run admitted stored newer later
  · intro e t step
    refine ⟨step.of_no_commit, fun ref r id commit => ?_⟩
    obtain ⟨fence, row, stored, same, named, ended, due⟩ := step.of_commit commit
    refine ⟨fence, ⟨row, stored, same, named, ended, due⟩, ?_⟩
    intro fs u f v later quiet last id' admission
    obtain ⟨behind, paced⟩ := paced_of_run later (step.behind (behind_of_run run))
      ⟨row, stored, .inl ⟨same, due.ge⟩⟩ quiet
    by_cases commit' : ∃ id, f.commitment = some (ref, r, id)
    · obtain ⟨id'', commit'⟩ := commit'
      cases last.effect with
      | quiet noAdmission => rw [noAdmission] at admission; cases admission
      | filled _ noCommit => rw [noCommit] at commit'; cases commit'
      | committed noAdmission => rw [noAdmission] at admission; cases admission
    · exact (last.paced behind paced fun id same => commit' ⟨id, same⟩).2 id' admission

/-! A template binding is published, its job queued, claimed, begun and committed. -/

private def sampleRef : Ref := ⟨.server, 7⟩

private def sampleTemplate : TemplateBinding where
  resource := sampleRef
  revision := 1
  publishedAt := 0
  enabled := true
  intervalMs := 60000
  jitterMs := 0

private def sampleCompiler : Compiler Unit where
  compilePlan _ := .error "PLAN_IDENTITY"
  enabled _ := true

private def sampleJob : ClaimedJob where
  id := "job"
  jobType := State.jobType
  payload := {}
  attempts := 1
  maxAttempts := 3
  fencingToken := 1

private def sampleContext : JobExecutionContext where
  workerId := "worker"
  fencingToken := 1

/-- The cycle ends at 2000 ms, and the next one is due an interval later. -/
theorem single_commit_cycle : ∃ (es : List (Event Unit Nat Nat)) (s : State Unit Nat Nat),
    Run (Step sampleCompiler) .initial es s ∧ commitsOf es = [(sampleRef, 1, "job")] ∧
      s.batches.map Prod.fst = (commitsOf es).map (·.2.2) ∧
      (s.schedule.get sampleRef).map (·.nextDueMs) = some 62000 := by
  have published := Run.single (@Step.publish Unit Nat Nat sampleCompiler .initial sampleRef
    (.template sampleTemplate) nofun)
  have queued := published.snoc (@Step.enqueueTemplate _ _ _ sampleCompiler _ sampleTemplate 1000
    "job" (by decide))
  have ticked := queued.snoc (.queue (@Workflows.Step.clock _ 1 (by decide)))
  have selected := ticked.snoc (.queue (@Workflows.Step.select _ "worker" true none))
  have claimed := selected.snoc (.queue (@Workflows.Step.claim _ "worker" 30 "job" (by decide)))
  have received := claimed.snoc (.queue (@Workflows.Step.readBack _ "worker" "job" (by decide)))
  have begun := received.snoc (@Step.beginTemplate _ _ _ sampleCompiler _ sampleRef 1 sampleJob
    sampleContext 1500 (by decide) rfl)
  have committed := begun.snoc (@Step.commitTemplate _ _ _ sampleCompiler _
    ⟨sampleTemplate, .empty⟩ [[("cpu", 5)]] (.ok 8) sampleJob sampleContext 2000 2
    mem_cons_self rfl (by decide))
  exact ⟨_, _, committed, rfl, (single_commit committed).2.2.2.1, rfl⟩

end Slide.Scheduler
