import Slide.Workflows.Worker

/-!
# Leases are fenced

The history of a run counts the claims of a job (`claimsOf`) and the successful completions and
failures with the tokens they named (`finishesOf`).  `JobHistory` ties a row to that history; one
case of `RowStep` after the other keeps it, and the fencing results are read off it.
-/

namespace Slide.Workflows

open Transition List

/-- The worker whose claim of `id` this statement granted. -/
def Statement.claimOf (id : JobId) : Statement → Option WorkerId
  | .claim w _ target true => if target = id then some w else none
  | _ => none

/-- The token under which this statement completed or failed `id`. -/
def Statement.finishOf (id : JobId) : Statement → Option Nat
  | .complete _ target token true => if target = id then some token else none
  | .fail _ job _ _ _ true => if job.id = id then some job.fencingToken else none
  | _ => none

/-- The worker and token of a successful heartbeat, completion or failure of `id`. -/
def Statement.ownerOf (id : JobId) : Statement → Option (WorkerId × Nat)
  | .heartbeat w target token _ true => if target = id then some (w, token) else none
  | .complete w target token true => if target = id then some (w, token) else none
  | .fail w job _ _ _ true => if job.id = id then some (w, job.fencingToken) else none
  | _ => none

/-- Who claimed `id`, in order: the claim with token `n + 1` is entry `n`. -/
def claimsOf (id : JobId) (es : List Statement) : List WorkerId := es.filterMap (·.claimOf id)

/-- The tokens under which `id` was completed or failed, in order. -/
def finishesOf (id : JobId) (es : List Statement) : List Nat := es.filterMap (·.finishOf id)

/-- A row agrees with the history of its job. -/
structure JobHistory (id : JobId) (es : List Statement) (row : WorkflowJob) : Prop where
  key : row.id = id
  token : row.fencingToken = (claimsOf id es).length
  owner : row.state = .running → row.leaseOwner = (claimsOf id es).getLast?
  finished : ∀ n ∈ finishesOf id es,
    n ≤ row.fencingToken ∧ (row.state = .running → n < row.fencingToken)
  increasing : (finishesOf id es).Pairwise (· < ·)

/-- What a reachable store says about the history of `id`. -/
def Recorded (id : JobId) (es : List Statement) (s : System) : Prop :=
  (s.store.jobs.get id = none → claimsOf id es = [] ∧ finishesOf id es = []) ∧
    ∀ row, s.store.jobs.get id = some row → JobHistory id es row

section History

variable {s t : System} {e : Statement} {es : List Statement} {id : JobId}
  {row row' : WorkflowJob}

theorem Statement.claimOf_of_target_ne (other : e.target ≠ some id) : e.claimOf id = none := by
  cases e with
  | claim w lease target won =>
    cases won with
    | false => rfl
    | true => exact if_neg fun same => other (congrArg some same)
  | _ => rfl

theorem Statement.finishOf_of_target_ne (other : e.target ≠ some id) : e.finishOf id = none := by
  cases e with
  | complete w target token done =>
    cases done with
    | false => rfl
    | true => exact if_neg fun same => other (congrArg some same)
  | fail w job message retryAt now recorded =>
    cases recorded with
    | false => rfl
    | true => exact if_neg fun same => other (congrArg some same)
  | _ => rfl

theorem Statement.ownerOf_of_target_ne (other : e.target ≠ some id) : e.ownerOf id = none := by
  cases e with
  | heartbeat w target token lease renewed =>
    cases renewed with
    | false => rfl
    | true => exact if_neg fun same => other (congrArg some same)
  | complete w target token done =>
    cases done with
    | false => rfl
    | true => exact if_neg fun same => other (congrArg some same)
  | fail w job message retryAt now recorded =>
    cases recorded with
    | false => rfl
    | true => exact if_neg fun same => other (congrArg some same)
  | _ => rfl

theorem claimsOf_append (es fs : List Statement) :
    claimsOf id (es ++ fs) = claimsOf id es ++ claimsOf id fs := filterMap_append

theorem claimsOf_snoc (es : List Statement) (e : Statement) :
    claimsOf id (es ++ [e]) = claimsOf id es ++ (e.claimOf id).toList := by
  rw [claimsOf_append]
  cases h : e.claimOf id <;> simp [claimsOf, h]

theorem finishesOf_snoc (es : List Statement) (e : Statement) :
    finishesOf id (es ++ [e]) = finishesOf id es ++ (e.finishOf id).toList := by
  cases h : e.finishOf id <;> simp [finishesOf, h]

private theorem JobHistory.quiet (history : JobHistory id es row) (noClaim : e.claimOf id = none)
    (noFinish : e.finishOf id = none) (key : row'.id = row.id)
    (token : row'.fencingToken = row.fencingToken)
    (owner : row'.state = .running → row.state = .running ∧ row'.leaseOwner = row.leaseOwner) :
    JobHistory id (es ++ [e]) row' := by
  have claims : claimsOf id (es ++ [e]) = claimsOf id es := by
    rw [claimsOf_snoc, noClaim, Option.toList_none, append_nil]
  have finishes : finishesOf id (es ++ [e]) = finishesOf id es := by
    rw [finishesOf_snoc, noFinish, Option.toList_none, append_nil]
  refine ⟨key.trans history.key, ?_, fun running => ?_, ?_, ?_⟩
  · rw [token, claims, history.token]
  · obtain ⟨before, same⟩ := owner running
    rw [same, claims, history.owner before]
  · rw [finishes, token]
    exact fun n mem => ⟨(history.finished n mem).1,
      fun running => (history.finished n mem).2 (owner running).1⟩
  · rw [finishes]
    exact history.increasing

private theorem JobHistory.finish (history : JobHistory id es row)
    (running : row.state = .running) (noClaim : e.claimOf id = none)
    (finish : e.finishOf id = some row.fencingToken) (key : row'.id = row.id)
    (token : row'.fencingToken = row.fencingToken) (left : row'.state ≠ .running) :
    JobHistory id (es ++ [e]) row' := by
  have claims : claimsOf id (es ++ [e]) = claimsOf id es := by
    rw [claimsOf_snoc, noClaim, Option.toList_none, append_nil]
  have finishes : finishesOf id (es ++ [e]) = finishesOf id es ++ [row.fencingToken] := by
    rw [finishesOf_snoc, finish, Option.toList_some]
  refine ⟨key.trans history.key, ?_, fun still => (left still).elim, ?_, ?_⟩
  · rw [token, claims, history.token]
  · intro n mem
    rw [finishes, mem_append, mem_singleton] at mem
    refine ⟨?_, fun still => (left still).elim⟩
    rw [token]
    rcases mem with earlier | rfl
    · exact (history.finished n earlier).1
    · exact le_rfl
  · rw [finishes, pairwise_append]
    refine ⟨history.increasing, pairwise_singleton _ _, fun n mem m last => ?_⟩
    rw [mem_singleton.mp last]
    exact (history.finished n mem).2 running

theorem JobHistory.step (history : JobHistory id es row)
    (change : RowStep s.store id row e row') : JobHistory id (es ++ [e]) row' := by
  cases change with
  | keep other =>
    exact history.quiet (Statement.claimOf_of_target_ne other)
      (Statement.finishOf_of_target_ne other) rfl rfl fun running => ⟨running, rfl⟩
  | @claimed w lease pass =>
    have claims : claimsOf id (es ++ [.claim w lease id true]) = claimsOf id es ++ [w] := by
      rw [claimsOf_snoc, Statement.claimOf, if_pos rfl, Option.toList_some]
    have finishes : finishesOf id (es ++ [.claim w lease id true]) = finishesOf id es := by
      rw [finishesOf_snoc]
      exact append_nil _
    refine ⟨history.key, ?_, fun _ => ?_, fun n mem => ?_, by rw [finishes]; exact history.increasing⟩
    · rw [claims, length_append, ← history.token]
      rfl
    · rw [claims, List.getLast?_concat]
      rfl
    · rw [finishes] at mem
      have bound := (history.finished n mem).1
      exact ⟨Nat.le_succ_of_le bound, fun _ => Nat.lt_succ_of_le bound⟩
  | renewed => exact history.quiet rfl rfl rfl rfl fun running => ⟨running, rfl⟩
  | completed pass =>
    obtain ⟨running, -, same, -⟩ := holds_iff.mp pass
    exact history.finish running rfl (by simp [Statement.finishOf, same]) rfl rfl nofun
  | @failed w job message retryAt now target pass =>
    obtain ⟨running, -, same, -⟩ := holds_iff.mp pass
    refine history.finish running rfl (by simp [Statement.finishOf, target, same]) rfl rfl ?_
    cases retryAt <;> exact nofun
  | replayed => exact history.quiet rfl rfl rfl rfl nofun

theorem Recorded.step (recorded : Recorded id es s) (step : Step s e t) :
    Recorded id (es ++ [e]) t := by
  cases found : s.store.jobs.get id with
  | none =>
    obtain ⟨noClaims, noFinishes⟩ := recorded.1 found
    obtain ⟨other, after⟩ := step.of_none found
    have claims : claimsOf id (es ++ [e]) = [] := by
      rw [claimsOf_snoc, noClaims, Statement.claimOf_of_target_ne other]
      rfl
    have finishes : finishesOf id (es ++ [e]) = [] := by
      rw [finishesOf_snoc, noFinishes, Statement.finishOf_of_target_ne other]
      rfl
    refine ⟨fun _ => ⟨claims, finishes⟩, fun row stored => ?_⟩
    rcases after with absent | ⟨input, -, same, created⟩
    · rw [absent] at stored
      cases stored
    · rw [created] at stored
      obtain rfl := some.inj stored
      refine ⟨same.symm, by rw [claims]; rfl, nofun, ?_, ?_⟩
      · rw [finishes]
        exact nofun
      · rw [finishes]
        exact .nil
  | some row =>
    obtain ⟨row', after, change⟩ := step.of_some found
    refine ⟨fun absent => ?_, fun stored same => ?_⟩
    · rw [after] at absent
      cases absent
    · rw [after] at same
      obtain rfl := some.inj same
      exact (recorded.2 row found).step change

theorem recorded_of_run (run : Run Step System.initial es s) (id : JobId) : Recorded id es s :=
  run.history (P := Recorded id)
    ⟨fun _ => ⟨rfl, rfl⟩, fun _ found => by cases found⟩ fun _ _ _ _ => Recorded.step

end History

/-! ## Consequences -/

section Consequences

variable {s t : System} {e : Statement} {es fs : List Statement} {id : JobId}
  {row row' : WorkflowJob} {w w₁ w₂ : WorkerId} {n n₁ n₂ : Nat}

theorem RowStep.fencingToken (change : RowStep s.store id row e row') :
    row'.fencingToken = row.fencingToken + (e.claimOf id).toList.length := by
  cases change with
  | keep other => simp [Statement.claimOf_of_target_ne other]
  | claimed => simp [Statement.claimOf, WorkflowJob.claimedBy]
  | renewed | completed | failed | replayed => simp [Statement.claimOf]

theorem RowStep.holds_of_owner (change : RowStep s.store id row e row')
    (act : e.ownerOf id = some (w, n)) : holds s.store w n row = true := by
  cases change with
  | keep other => rw [Statement.ownerOf_of_target_ne other] at act; cases act
  | claimed | replayed => cases act
  | renewed pass =>
    simp only [Statement.ownerOf, if_pos] at act
    cases act
    exact pass
  | completed pass =>
    simp only [Statement.ownerOf, if_pos] at act
    cases act
    exact pass
  | failed target pass =>
    simp only [Statement.ownerOf, if_pos target] at act
    cases act
    exact pass

theorem RowStep.eq_of_terminal (change : RowStep s.store id row e row')
    (terminal : row.state = .completed ∨ row.state = .cancelled) : row' = row := by
  have idle : ∀ {w n}, holds s.store w n row = true → False := by
    intro w n pass
    have running := (holds_iff.mp pass).1
    rcases terminal with state | state <;> rw [running] at state <;> cases state
  cases change with
  | keep => rfl
  | claimed pass =>
    have claimable := eligible_claimable pass
    rcases terminal with state | state <;> rw [state] at claimable <;> cases claimable
  | renewed pass | completed pass | failed _ pass => exact (idle pass).elim
  | replayed pass =>
    simp only [replayable, Bool.and_eq_true, beq_iff_eq] at pass
    rcases terminal with state | state <;> rw [pass.1.1] at state <;> cases state

theorem RowStep.replay_of_dead (change : RowStep s.store id row e row')
    (dead : row.state = .deadLetter) (changed : row' ≠ row) : e = .replay id true := by
  have idle : ∀ {w n}, holds s.store w n row = true → False := by
    intro w n pass
    rw [(holds_iff.mp pass).1] at dead
    cases dead
  cases change with
  | keep => exact (changed rfl).elim
  | claimed pass =>
    have claimable := eligible_claimable pass
    rw [dead] at claimable
    cases claimable
  | renewed pass | completed pass | failed _ pass => exact (idle pass).elim
  | replayed => rfl

theorem terminal_frozen (run : Run Step s es t) (found : s.store.jobs.get id = some row)
    (terminal : row.state = .completed ∨ row.state = .cancelled) :
    t.store.jobs.get id = some row := by
  refine run.invariant (P := fun t => t.store.jobs.get id = some row) found
    fun t e u stored step => ?_
  obtain ⟨row', after, change⟩ := step.of_some stored
  rw [after, change.eq_of_terminal terminal]

/-- In some continuation of the run a fenced statement of `w` with token `n` matches the row. -/
def MaySucceed (s : System) (id : JobId) (w : WorkerId) (n : Nat) : Prop :=
  ∃ fs t row, Run Step s fs t ∧ t.store.jobs.get id = some row ∧ holds t.store w n row = true

/-- Claim number `n` of `id` was made by `w`. -/
def Claimed (es : List Statement) (id : JobId) (w : WorkerId) (n : Nat) : Prop :=
  0 < n ∧ (claimsOf id es)[n - 1]? = some w

theorem latest_of_maySucceed (run : Run Step System.initial es s) (made : Claimed es id w n)
    (may : MaySucceed s id w n) : n = (claimsOf id es).length := by
  obtain ⟨fs, t, row, later, found, pass⟩ := may
  have history := (recorded_of_run (run.trans later) id).2 row found
  have same : n = (claimsOf id (es ++ fs)).length :=
    (holds_iff.mp pass).2.2.1.symm.trans history.token
  rw [claimsOf_append, length_append] at same
  have inside := (List.getElem?_eq_some_iff.mp made.2).1
  have positive := made.1
  omega

/-- **Workflow lease fencing**, over every interleaving of any number of workers. -/
theorem lease_fencing (run : Run Step System.initial es s) :
    -- the token counts the claims, and each claim is finished at most once
    (∀ id row, s.store.jobs.get id = some row → row.fencingToken = (claimsOf id es).length) ∧
    (∀ id, (finishesOf id es).Nodup ∧ ∀ n ∈ finishesOf id es, n ≤ (claimsOf id es).length) ∧
    (∀ e t id row, Step s e t → s.store.jobs.get id = some row →
      ∃ row', t.store.jobs.get id = some row' ∧
        -- a granted claim raises the token, nothing else changes it
        row'.fencingToken = row.fencingToken + (e.claimOf id).toList.length ∧
        -- fenced statements succeed only for the latest claim, before its lease expires
        (∀ w n, e.ownerOf id = some (w, n) →
          n = (claimsOf id es).length ∧ (claimsOf id es).getLast? = some w ∧
            ∃ expires, row.leaseExpiresAt = some expires ∧ s.store.now < expires) ∧
        (row.state = .deadLetter → row' ≠ row → e = .replay id true)) ∧
    -- completed and cancelled jobs never change again
    (∀ id row, s.store.jobs.get id = some row → row.state = .completed ∨ row.state = .cancelled →
      ∀ fs t, Run Step s fs t → t.store.jobs.get id = some row) ∧
    -- of all claims made so far at most one may still succeed
    (∀ id w₁ n₁ w₂ n₂, Claimed es id w₁ n₁ → Claimed es id w₂ n₂ →
      MaySucceed s id w₁ n₁ → MaySucceed s id w₂ n₂ → w₁ = w₂ ∧ n₁ = n₂) := by
  have recorded := recorded_of_run run
  refine ⟨fun id row found => ((recorded id).2 row found).token, fun id => ?_, ?_, ?_, ?_⟩
  · cases found : s.store.jobs.get id with
    | none =>
      rw [((recorded id).1 found).2]
      exact ⟨nodup_nil, nofun⟩
    | some row =>
      have history := (recorded id).2 row found
      refine ⟨history.increasing.imp Nat.ne_of_lt, fun n mem => ?_⟩
      rw [← history.token]
      exact (history.finished n mem).1
  · intro e t id row step found
    obtain ⟨row', after, change⟩ := step.of_some found
    have history := (recorded id).2 row found
    refine ⟨row', after, change.fencingToken, fun w n act => ?_, change.replay_of_dead⟩
    obtain ⟨running, owner, token, unexpired⟩ := holds_iff.mp (change.holds_of_owner act)
    exact ⟨by rw [← history.token, token], by rw [← history.owner running, owner], unexpired⟩
  · exact fun id row found terminal fs t later => terminal_frozen later found terminal
  · intro id w₁ n₁ w₂ n₂ made₁ made₂ may₁ may₂
    have same : n₁ = n₂ :=
      (latest_of_maySucceed run made₁ may₁).trans (latest_of_maySucceed run made₂ may₂).symm
    subst same
    exact ⟨some.inj (made₁.2.symm.trans made₂.2), rfl⟩

/-- One job of the default budget. -/
private def sampleInput : WorkflowJobInput where
  id := "job"
  jobType := "report.generate"
  payload := {}
  idempotencyKey := "occurrence:1"
  maxAttempts := none
  availableAt := none

/-- Two workers: the lease of the first lapses, the second claims, and its token is the second. -/
theorem lease_fencing_takeover : ∃ es s row, Run Step System.initial es s ∧
    s.store.jobs.get "job" = some row ∧ row.leaseOwner = some "b" ∧
      row.fencingToken = (claimsOf "job" es).length ∧ claimsOf "job" es = ["a", "b"] := by
  have enqueued := Run.single (@Step.enqueue System.initial sampleInput)
  have first := (enqueued.snoc (@Step.select _ "a" true none)).snoc
    (@Step.claim _ "a" 30 "job" (by decide))
  have lapsed := first.snoc (@Step.clock _ 31 (by decide))
  have second := (lapsed.snoc (@Step.select _ "b" true none)).snoc
    (@Step.claim _ "b" 30 "job" (by decide))
  exact ⟨_, _, _, second, rfl, rfl, (lease_fencing second).1 _ _ rfl, rfl⟩

/-! ## No job is lost -/

/-- A running row, and no other, has an owner and a lease; a completed one, and no other, has an end. -/
structure WorkflowJob.Proper (row : WorkflowJob) : Prop where
  owner : row.leaseOwner.isSome ↔ row.state = .running
  lease : row.leaseExpiresAt.isSome ↔ row.state = .running
  claimed : row.state = .running → 0 < row.attempts
  done : row.completedAt.isSome ↔ row.state = .completed

/-- The columns that no statement rewrites. -/
def WorkflowJob.identity (row : WorkflowJob) : JobId × String × JobPayload × String × Nat × Nat :=
  (row.id, row.jobType, row.payload, row.idempotencyKey, row.maxAttempts, row.createdAt)

theorem RowStep.proper (change : RowStep s.store id row e row') (proper : row.Proper) :
    row'.Proper ∧ row'.identity = row.identity := by
  obtain ⟨owner, lease, claimed, done⟩ := proper
  have claimable := @eligible_claimable s.store row
  have running {w : WorkerId} {n : Nat} := @holds_iff s.store row w n
  cases change <;> refine ⟨⟨?_, ?_, ?_, ?_⟩, rfl⟩ <;>
    grind [WorkflowJob.claimedBy, WorkflowState.claimable, replayable]

/-- A row is an older one, or one that an insert has added and that found no row of its key. -/
theorem Step.of_get (step : Step s e t) (found : t.store.jobs.get id = some row') :
    (∃ row, s.store.jobs.get id = some row ∧ RowStep s.store id row e row') ∨
      ∃ input, e = .enqueue input ∧ id = input.id ∧ row' = input.row s.store.now ∧
        ∀ other job, s.store.jobs.get other = some job → job.idempotencyKey ≠ input.idempotencyKey := by
  cases stored : s.store.jobs.get id with
  | some row =>
    obtain ⟨later, at_, change⟩ := step.of_some stored
    cases at_.symm.trans found
    exact .inl ⟨row, rfl, change⟩
  | none =>
    obtain ⟨-, absent | ⟨input, rfl, same, new⟩⟩ := step.of_none stored
    · cases absent.symm.trans found
    · refine .inr ⟨input, rfl, same, some.inj (found.symm.trans new), fun other job there key => ?_⟩
      cases step
      unfold Store.enqueue at new
      rw [if_pos, stored] at new
      · cases new
      · exact any_eq_true.mpr ⟨job, Table.mem_toList.mpr ⟨other, there⟩, beq_iff_eq.mpr key⟩

/-- The rows are well formed, and no two have one idempotency key. -/
structure Store.Proper (store : Store) : Prop where
  rows : ∀ id row, store.jobs.get id = some row → row.Proper
  distinct : ∀ id id' row row', store.jobs.get id = some row → store.jobs.get id' = some row' →
    row'.idempotencyKey = row.idempotencyKey → id' = id

theorem Step.proper (step : Step s e t) (proper : s.store.Proper) : t.store.Proper := by
  have identity {id : JobId} {row row' : WorkflowJob} (found : s.store.jobs.get id = some row)
      (change : RowStep s.store id row e row') := (change.proper (proper.rows id row found)).2
  refine ⟨fun id row' found => ?_, fun id id' row row' found found' same => ?_⟩
  · obtain ⟨row, stored, change⟩ | ⟨input, -, -, rfl, -⟩ := step.of_get found
    · exact (change.proper (proper.rows id row stored)).1
    · exact ⟨by simp [WorkflowJobInput.row], by simp [WorkflowJobInput.row], nofun, by simp [WorkflowJobInput.row]⟩
  · rcases step.of_get found with ⟨old, stored, change⟩ | ⟨input, here, at_, rfl, new⟩ <;>
      rcases step.of_get found' with ⟨old', stored', change'⟩ | ⟨input', here', at_', rfl, new'⟩
    · grind [WorkflowJob.identity, Store.Proper]
    · grind [WorkflowJob.identity, WorkflowJobInput.row]
    · grind [WorkflowJob.identity, WorkflowJobInput.row]
    · grind

/-- Over any run every row is well formed, no two jobs have one idempotency key, and no job is lost or
becomes another job. -/
theorem jobs_kept (run : Run Step System.initial es s) :
    s.store.Proper ∧ ∀ id row, s.store.jobs.get id = some row → ∀ fs t, Run Step s fs t →
      ∃ row', t.store.jobs.get id = some row' ∧ row'.identity = row.identity := by
  have proper {fs : List Statement} {t : System} (run : Run Step System.initial fs t) : t.store.Proper :=
    run.invariant (P := fun s => s.store.Proper)
      ⟨fun _ _ absent => (by cases absent), fun _ _ _ _ absent => (by cases absent)⟩
      fun _ _ _ proper step => step.proper proper
  refine ⟨proper run, fun id row found fs t later => ?_⟩
  induction later with
  | nil => exact ⟨row, found, rfl⟩
  | snoc before last ih =>
    obtain ⟨row', found', same⟩ := ih
    obtain ⟨row'', found'', change⟩ := last.of_some found'
    exact ⟨row'', found'', (change.proper ((proper (run.trans before)).rows id row' found')).2.trans same⟩

/-- A job that was queued. -/
theorem jobs_kept_queued : ∃ s, Run Step System.initial [.enqueue sampleInput] s ∧ s.store.Proper :=
  have run : Run Step System.initial [.enqueue sampleInput] _ := .single .enqueue
  ⟨_, run, (jobs_kept run).1⟩

end Consequences

end Slide.Workflows
