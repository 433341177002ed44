import Mathlib.Algebra.Group.Nat.Defs
import Slide.Workflows.LeaseFencing

/-!
# The attempt budget

`WorkerRuntime.runOnce` turns a failure into a dead letter once the job it read back has used up
`max_attempts` (`retryTime`).  A worker that stops without reporting leaves a running row whose
lease lapses, and the claim that takes such a row over counts an attempt without looking at the
budget.  `bounded_iff_within`: a run keeps every job within its budget exactly when none of its
claims takes over a lapsed lease of an exhausted job.
-/

namespace Slide.Workflows

open Transition List

/-- `runOnce`'s retry time after a failed handler: none once the attempts are used up, otherwise
an exponential delay of at most a minute after the start of the run. -/
def retryTime (job : ClaimedJob) (now : Nat) : Option Nat :=
  if job.maxAttempts ≤ job.attempts then none else some (now + min 60 (2 ^ (job.attempts - 1)))

/-- A failure is reported with the retry time `runOnce` computes. -/
def Statement.ByRunOnce : Statement → Prop
  | .fail _ job _ retryAt _ _ => ∃ now, retryAt = retryTime job now
  | _ => True

/-- A step of workers that run `runOnce`. -/
def WorkerStep (s : System) (e : Statement) (t : System) : Prop := Step s e t ∧ e.ByRunOnce

/-- Claims of `id` since its last replay. -/
def claimsSinceReplay (id : JobId) (es : List Statement) : Nat :=
  es.foldl (fun n e => match e with
    | .claim _ _ target true => if target = id then n + 1 else n
    | .replay target true => if target = id then 0 else n
    | _ => n) 0

/-- After this step no job has used more than its budget, and no exhausted job was started. -/
def KeepsBudget (s : System) (e : Statement) (t : System) : Prop :=
  (∀ id row, t.store.jobs.get id = some row → row.attempts ≤ row.maxAttempts) ∧
    ∀ id row, s.store.jobs.get id = some row → row.maxAttempts ≤ row.attempts →
      e.claimOf id = none

/-- A granted claim that takes over a lapsed lease finds attempts left; one of a waiting row finds
a budget at all. -/
def WithinBudget (s : System) (e : Statement) : Prop :=
  ∀ id row, s.store.jobs.get id = some row → (e.claimOf id).isSome →
    if row.state = .running then row.attempts < row.maxAttempts else 1 ≤ row.maxAttempts

section Budget

variable {s t : System} {e : Statement} {es : List Statement} {id : JobId}
  {row row' : WorkflowJob}

/-- What the budget invariant says of one row. -/
structure RowBudget (row : WorkflowJob) : Prop where
  bound : row.attempts ≤ row.maxAttempts
  queued : row.state = .queued → row.attempts = 0
  retry : row.state = .retry → row.attempts < row.maxAttempts

/-- A job a worker read back is an older claim of its row, or the current one with its counters. -/
def ReadFrom (row : WorkflowJob) (job : ClaimedJob) : Prop :=
  job.fencingToken ≤ row.fencingToken ∧
    (job.fencingToken = row.fencingToken → row.state = .running →
      job.attempts = row.attempts ∧ job.maxAttempts = row.maxAttempts)

/-- Every job handed out belongs to a row. -/
def Handed (s : System) : Prop :=
  ∀ w job, (w, job) ∈ s.received →
    ∃ row, s.store.jobs.get job.id = some row ∧ ReadFrom row job

theorem ReadFrom.step {job : ClaimedJob} (read : ReadFrom row job)
    (change : RowStep s.store id row e row') : ReadFrom row' job := by
  obtain ⟨older, current⟩ := read
  cases change with
  | keep => exact ⟨older, current⟩
  | claimed =>
    refine ⟨Nat.le_succ_of_le older, fun same => ?_⟩
    simp only [WorkflowJob.claimedBy] at same
    omega
  | renewed => exact ⟨older, current⟩
  | completed | replayed => exact ⟨older, fun _ running => by cases running⟩
  | @failed _ _ _ retryAt =>
    refine ⟨older, fun _ running => ?_⟩
    cases retryAt <;> cases running

theorem claimReadBack_inv {w : WorkerId} {job : ClaimedJob}
    (read : s.store.claimReadBack w id = some job) :
    ∃ row, s.store.jobs.get id = some row ∧ job.id = row.id ∧ ReadFrom row job := by
  unfold Store.claimReadBack at read
  split at read
  next => cases read
  next row found =>
    split at read
    next =>
      obtain rfl := some.inj read
      exact ⟨row, found, rfl, le_rfl, fun _ _ => ⟨rfl, rfl⟩⟩
    next => cases read

theorem Step.received_cases {w : WorkerId} {job : ClaimedJob} (step : Step s e t)
    (mem : (w, job) ∈ t.received) :
    (w, job) ∈ s.received ∨ ∃ id, s.store.claimReadBack w id = some job := by
  cases step with
  | @readBack reader target =>
    simp only [mem_append, mem_map, Option.mem_toList,
      Prod.mk.injEq] at mem
    rcases mem with ⟨_, read, rfl, rfl⟩ | earlier
    · exact .inr ⟨target, read⟩
    · exact .inl earlier
  | _ => exact .inl mem

theorem Step.fail_received {w : WorkerId} {job : ClaimedJob} {message : String}
    {retryAt : Option Nat} {workerNow : Nat} {recorded : Bool}
    (step : Step s (.fail w job message retryAt workerNow recorded) t) :
    (w, job) ∈ s.received := by
  cases step with
  | fail mem => exact mem

theorem Handed.step (handed : Handed s) (keys : ∀ id row, s.store.jobs.get id = some row → row.id = id)
    (step : Step s e t) : Handed t := by
  intro w job mem
  have before : ∃ row, s.store.jobs.get job.id = some row ∧ ReadFrom row job := by
    rcases step.received_cases mem with earlier | ⟨target, read⟩
    · exact handed w job earlier
    · obtain ⟨row, found, same, from_⟩ := claimReadBack_inv read
      rw [same, keys target row found]
      exact ⟨row, found, from_⟩
  obtain ⟨row, found, read⟩ := before
  obtain ⟨row', after, change⟩ := step.of_some found
  exact ⟨row', after, read.step change⟩

theorem handed_of_run (run : Run Step System.initial es s) : Handed s := by
  induction run with
  | nil => exact nofun
  | snoc before step ih =>
    exact ih.step (fun id row found => ((recorded_of_run before id).2 row found).key) step

theorem attempts_eq_claimsSinceReplay (run : Run Step System.initial es s) :
    (s.store.jobs.get id = none → claimsSinceReplay id es = 0) ∧
      ∀ row, s.store.jobs.get id = some row → row.attempts = claimsSinceReplay id es := by
  induction run with
  | nil => exact ⟨fun _ => rfl, fun row found => by cases found⟩
  | @snoc es s t e before step ih =>
    have other : e.target ≠ some id →
        claimsSinceReplay id (es ++ [e]) = claimsSinceReplay id es := by
      intro miss
      simp only [claimsSinceReplay, foldl_append, foldl_cons, foldl_nil]
      split
      next => exact if_neg fun same => miss (congrArg some same)
      next => exact if_neg fun same => miss (congrArg some same)
      next => rfl
    cases found : s.store.jobs.get id with
    | none =>
      obtain ⟨miss, after⟩ := step.of_none found
      refine ⟨fun _ => (other miss).trans (ih.1 found), fun row stored => ?_⟩
      rw [other miss, ih.1 found]
      rcases after with absent | ⟨input, -, -, created⟩
      · rw [absent] at stored
        cases stored
      · rw [created] at stored
        obtain rfl := some.inj stored
        rfl
    | some row =>
      obtain ⟨row', after, change⟩ := step.of_some found
      have old := ih.2 row found
      refine ⟨fun absent => ?_, fun stored same => ?_⟩
      · rw [after] at absent
        cases absent
      rw [after] at same
      obtain rfl := some.inj same
      cases change with
      | keep miss => rw [other miss, old]
      | claimed =>
        simp only [claimsSinceReplay, foldl_append, foldl_cons, foldl_nil, if_pos]
        exact congrArg (· + 1) old
      | replayed =>
        simp only [claimsSinceReplay, foldl_append, foldl_cons, foldl_nil, if_pos]
      | renewed | completed | failed =>
        simpa only [claimsSinceReplay, foldl_append, foldl_cons, foldl_nil] using old

theorem RowBudget.step (budget : RowBudget row) (found : s.store.jobs.get id = some row)
    (within : WithinBudget s e) (handed : Handed s) (step : WorkerStep s e t)
    (change : RowStep s.store id row e row') : RowBudget row' := by
  obtain ⟨bound, queued, retry⟩ := budget
  cases change with
  | keep => exact ⟨bound, queued, retry⟩
  | claimed pass =>
    have left := within id row found (by simp [Statement.claimOf])
    refine ⟨?_, fun state => (by cases state), fun state => by cases state⟩
    have claimable := eligible_claimable pass
    change row.attempts + 1 ≤ row.maxAttempts
    cases state : row.state with
    | queued =>
      rw [if_neg (by simp [state])] at left
      rw [queued state]
      exact left
    | retry => exact retry state
    | running =>
      rw [if_pos state] at left
      exact left
    | completed | deadLetter | cancelled => rw [state] at claimable; cases claimable
  | renewed => exact ⟨bound, queued, retry⟩
  | completed => exact ⟨bound, fun state => (by cases state), fun state => by cases state⟩
  | @failed w job message retryAt now target pass =>
    refine ⟨bound, fun state => ?_, fun state => ?_⟩
    · cases retryAt <;> cases state
    obtain ⟨now', rule⟩ := step.2
    obtain ⟨running, -, token, -⟩ := holds_iff.mp pass
    have read : ReadFrom row job := by
      obtain ⟨row₀, found₀, read⟩ := handed w job step.1.fail_received
      rw [target, found] at found₀
      obtain rfl := some.inj found₀
      exact read
    obtain ⟨attempts, maxAttempts⟩ := read.2 token.symm running
    change row.attempts < row.maxAttempts
    by_contra exhausted
    have none : retryAt = none := by
      rw [rule, retryTime, if_pos (by omega)]
    rw [none] at state
    cases state
  | replayed => exact ⟨Nat.zero_le _, fun _ => rfl, fun state => by cases state⟩

/-- The steps of a run that stays within the budget. -/
abbrev BudgetStep (s : System) (e : Statement) (t : System) : Prop :=
  WorkerStep s e t ∧ WithinBudget s e

theorem rowBudget_of_run (run : Run BudgetStep System.initial es s) :
    ∀ id row, s.store.jobs.get id = some row → RowBudget row := by
  induction run with
  | nil => exact fun id row found => by cases found
  | @snoc es s t e before step ih =>
    intro id row' after
    have handed := handed_of_run (before.mono fun _ _ _ step => step.1.1)
    cases found : s.store.jobs.get id with
    | none =>
      rcases (step.1.1.of_none found).2 with absent | ⟨input, -, -, created⟩
      · rw [absent] at after
        cases after
      · rw [created] at after
        obtain rfl := some.inj after
        exact ⟨Nat.zero_le _, fun _ => rfl, nofun⟩
    | some row =>
      obtain ⟨row₁, after₁, change⟩ := step.1.1.of_some found
      rw [after] at after₁
      obtain rfl := some.inj after₁
      exact (ih id row found).step found step.2 handed step.1 change

theorem not_claimed_of_exhausted (budget : RowBudget row) (within : WithinBudget s e)
    (found : s.store.jobs.get id = some row) (step : Step s e t)
    (exhausted : row.maxAttempts ≤ row.attempts) : e.claimOf id = none := by
  obtain ⟨row', -, change⟩ := step.of_some found
  cases change with
  | keep miss => exact Statement.claimOf_of_target_ne miss
  | @claimed w lease pass =>
    exfalso
    have left := within id row found (by simp [Statement.claimOf])
    have claimable := eligible_claimable pass
    cases state : row.state with
    | queued =>
      rw [if_neg (by simp [state])] at left
      have := budget.queued state
      omega
    | retry =>
      have := budget.retry state
      omega
    | running =>
      rw [if_pos state] at left
      omega
    | completed | deadLetter | cancelled => rw [state] at claimable; cases claimable
  | renewed | completed | failed | replayed => rfl

theorem within_of_keepsBudget (step : Step s e t) (keeps : KeepsBudget s e t) :
    WithinBudget s e := by
  intro id row found claim
  obtain ⟨row', after, change⟩ := step.of_some found
  have left : row.attempts < row.maxAttempts := by
    by_contra exhausted
    rw [keeps.2 id row found (by omega)] at claim
    cases claim
  split
  next => exact left
  next => omega

/-- **The attempt budget.**  The counter of a job is the number of its claims since the last
replay, and a run never lets it pass `max_attempts` exactly when every claim that takes over a
lapsed lease finds attempts left (and every first claim a budget of at least one). -/
theorem bounded_iff_within (es : List Statement) (s : System) :
    (Run WorkerStep System.initial es s → ∀ id row, s.store.jobs.get id = some row →
      claimsSinceReplay id es = row.attempts) ∧
    (Run (fun s e t => WorkerStep s e t ∧ KeepsBudget s e t) System.initial es s ↔
      Run (fun s e t => WorkerStep s e t ∧ WithinBudget s e) System.initial es s) := by
  refine ⟨fun run id row found => ?_, fun run => ?_, fun run => ?_⟩
  · exact ((attempts_eq_claimsSinceReplay (run.mono fun _ _ _ step => step.1)).2 row found).symm
  · exact run.mono fun s e t step => ⟨step.1, within_of_keepsBudget step.1.1 step.2⟩
  · induction run with
    | nil => exact .nil
    | @snoc es s t e before step ih =>
      refine ih.snoc ⟨step.1, fun id row found => ?_, fun id row found exhausted => ?_⟩
      · exact (rowBudget_of_run (before.snoc step) id row found).bound
      · exact not_claimed_of_exhausted (rowBudget_of_run before id row found) step.2 found
          step.1.1 exhausted

/-- A job with a budget of one. -/
private def oneShot : WorkflowJobInput where
  id := "job"
  jobType := "cron.run"
  payload := {}
  idempotencyKey := "cron:1"
  maxAttempts := some 1
  availableAt := none

/-- A worker claims a job with one attempt and stops; after the lease lapses a second worker
claims it again. -/
theorem attempts_exceed_budget : ∃ es s row, Run WorkerStep System.initial es s ∧
    s.store.jobs.get "job" = some row ∧ row.maxAttempts < row.attempts ∧
      row.state = .running ∧ claimsSinceReplay "job" es = 2 := by
  have enqueued : Run WorkerStep System.initial [.enqueue oneShot] _ :=
    .single ⟨@Step.enqueue System.initial oneShot, trivial⟩
  have first := (enqueued.snoc ⟨@Step.select _ "a" true none, trivial⟩).snoc
    ⟨@Step.claim _ "a" 30 "job" (by decide), trivial⟩
  have lapsed := first.snoc ⟨@Step.clock _ 31 (by decide), trivial⟩
  have second := (lapsed.snoc ⟨@Step.select _ "b" true none, trivial⟩).snoc
    ⟨@Step.claim _ "b" 30 "job" (by decide), trivial⟩
  exact ⟨_, _, _, second, rfl, by decide, rfl, rfl⟩

end Budget

end Slide.Workflows
