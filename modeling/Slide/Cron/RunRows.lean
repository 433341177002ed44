import Slide.Cron.RunStore

/-!
# What the statements leave of a cron run

A completion that is stored decides the status of its run: no statement changes it, and none writes
success where no completion is stored, unless it is told to.
-/

namespace Slide.Cron

open Transaction

variable {host : CronHost} {s s' : CronStore} {row row' row'' : CronRunRow} {id : Nat}

/-! ## Rows -/

structure RowOk (row : CronRunRow) : Prop where
  queued : row.status = .queued → row.started = false
  completed : ∀ completion digest, row.completion = some (completion, digest) →
    row.status = completion.runStatus
  success : row.status = .success → row.completion.isSome

/-- A row later on: what was asked for stays, and so does a completion with its status. -/
structure CronRunRow.Later (row row' : CronRunRow) : Prop where
  job : row'.jobId = row.jobId
  request : row'.requestKey = row.requestKey
  params : row'.requestHash = row.requestHash
  started : row.started = true → row'.started = true
  completed : row.completion.isSome → row'.completion = row.completion ∧ row'.status = row.status

theorem CronRunRow.later_refl (row : CronRunRow) : row.Later row :=
  ⟨rfl, rfl, rfl, id, fun _ => ⟨rfl, rfl⟩⟩

theorem CronRunRow.Later.trans (first : row.Later row') (second : row'.Later row'') :
    row.Later row'' := by
  refine ⟨second.job.trans first.job, second.request.trans first.request,
    second.params.trans first.params, fun started => second.started (first.started started),
    fun stored => ?_⟩
  obtain ⟨same, status⟩ := first.completed stored
  obtain ⟨same', status'⟩ := second.completed (same ▸ stored)
  exact ⟨same'.trans same, status'.trans status⟩

theorem CronRunRow.Later.isSome (later : row.Later row') (stored : row.completion.isSome) :
    row'.completion.isSome := by
  rw [(later.completed stored).1]
  exact stored

/-- What a statement on the rows that are there leaves of the tables. -/
structure Grows (s s' : CronStore) : Prop where
  rows : ∀ id row, s.runs.get id = some row →
    ∃ row', s'.runs.get id = some row' ∧ (RowOk row → row.Later row' ∧ RowOk row')
  absent : ∀ id, s.runs.get id = none → s'.runs.get id = none
  workflows : ∀ id, (s.workflows.get id).isSome → (s'.workflows.get id).isSome

theorem grows_refl (s : CronStore) : Grows s s :=
  ⟨fun _ row found => ⟨row, found, fun ok => ⟨row.later_refl, ok⟩⟩, fun _ absent => absent,
    fun _ there => there⟩

theorem grows_of_get {runs : Table Nat CronRunRow} {set : Nat → CronRunRow → CronRunRow}
    (get : ∀ id, runs.get id = (s.runs.get id).map (set id))
    (each : ∀ id row, s.runs.get id = some row → RowOk row →
      row.Later (set id row) ∧ RowOk (set id row)) : Grows s { s with runs } := by
  refine ⟨fun id row found => ⟨set id row, ?_, each id row found⟩, fun id absent => ?_,
    fun _ there => there⟩
  · dsimp only
    rw [get, found]
    rfl
  · dsimp only
    rw [get, absent]
    rfl

theorem grows_updateWhere {runId : Nat} {guard : CronRunRow → Bool} {set : CronRunRow → CronRunRow}
    (each : ∀ row, s.runs.get runId = some row → guard row = true → RowOk row →
      row.Later (set row) ∧ RowOk (set row)) :
    Grows s { s with runs := (s.runs.updateWhere runId guard set).1 } := by
  apply @grows_of_get s _ fun id row => if id = runId ∧ guard row = true then set row else row
  · intro id
    rw [Table.get_updateWhere]
    split
    next same =>
      subst same
      cases s.runs.get id with
      | none => rfl
      | some row => simp only [Option.map_some, true_and]
    next differ =>
      cases s.runs.get id with
      | none => rfl
      | some row => rw [Option.map_some, if_neg fun both => differ both.1]
  · intro id row found ok
    split
    next both => exact each row (both.1 ▸ found) both.2 ok
    next => exact ⟨row.later_refl, ok⟩

/-! ## Statements -/

theorem CronCompletion.runStatus_finished (completion : CronCompletion) :
    completion.runStatus ≠ .queued ∧ completion.runStatus ≠ .running := completion.finishStatus.2

theorem RowOk.no_completion (ok : RowOk row) (waiting : row.status = .queued ∨ row.status = .running)
    (stored : row.completion.isSome) : False := by
  obtain ⟨⟨completion, digest⟩, found⟩ := Option.isSome_iff_exists.mp stored
  have same := ok.completed completion digest found
  obtain ⟨unqueued, finished⟩ := completion.runStatus_finished
  rcases waiting with queued | running
  · exact unqueued (same.symm.trans queued)
  · exact finished (same.symm.trans running)

theorem grows_start : Grows s (start s id).1 := by
  apply grows_updateWhere
  intro row _ passes ok
  have queued : row.status = .queued := of_decide_eq_true passes
  have none_stored := ok.no_completion (.inl queued)
  refine ⟨⟨rfl, rfl, rfl, fun _ => rfl, fun stored => (none_stored stored).elim⟩, nofun, ?_, nofun⟩
  intro completion digest stored
  exact (none_stored (Option.isSome_iff_exists.mpr ⟨_, stored⟩)).elim

theorem RowOk.finish (ok : RowOk row) {status : FinishStatus} {errorCode : Option String}
    (started : row.started = true) (earned : status.1 = .success → row.completion.isSome) :
    row.Later { row with
        runnerFinished := true
        status := if row.completion.isNone then status.1 else row.status
        errorCode } ∧
      RowOk { row with
        runnerFinished := true
        status := if row.completion.isNone then status.1 else row.status
        errorCode } := by
  by_cases stored : row.completion.isSome
  · have kept : (if row.completion.isNone then status.1 else row.status) = row.status := by
      rw [if_neg]
      rw [Option.isNone_eq_false_iff.mpr stored]
      nofun
    refine ⟨⟨rfl, rfl, rfl, id, fun _ => ⟨rfl, kept⟩⟩, fun queued => ?_, fun completion digest here => ?_,
      fun _ => stored⟩
    · have fresh := ok.queued (kept.symm.trans queued)
      exact absurd started (fresh ▸ nofun)
    · exact kept.trans (ok.completed completion digest here)
  · have none_stored : row.completion.isNone = true :=
      Option.isNone_iff_eq_none.mpr (Option.not_isSome_iff_eq_none.mp stored)
    have written : (if row.completion.isNone then status.1 else row.status) = status.1 :=
      if_pos none_stored
    refine ⟨⟨rfl, rfl, rfl, id, fun absurd => (stored absurd).elim⟩, fun queued => ?_,
      fun completion digest here => ?_, fun success => earned (written.symm.trans success)⟩
    · exact absurd (written.symm.trans queued) status.2.1
    · exact (stored (Option.isSome_iff_exists.mpr ⟨_, here⟩)).elim

theorem grows_finish {status : FinishStatus} {errorCode : Option String}
    (earned : status.1 = .success → ∀ row, s.runs.get id = some row → row.completion.isSome) :
    Grows s (finish s id status errorCode) := by
  apply grows_updateWhere
  intro row found started ok
  exact ok.finish started fun success => earned success row found

theorem grows_recover : Grows s (recover s) := by
  unfold recover
  dsimp only
  apply @grows_of_get s _ fun id row =>
    if (row.started ∧ ¬ row.runnerFinished ∧ s.workflows.get id ≠ some true : Bool) then { row with
      status := if row.completion.isNone then .unknown else row.status
      runnerFinished := true
      errorCode := some "CRON_RESTART_INTERRUPTED" } else row
  · intro id
    exact Table.get_updateAll
  · intro id row found ok
    split
    next passes =>
      have started := (of_decide_eq_true passes).1
      exact @RowOk.finish row ok ⟨.unknown, by decide, by decide⟩ (some "CRON_RESTART_INTERRUPTED") started
        fun same => by cases same
    next => exact ⟨row.later_refl, ok⟩

theorem saveCompletion_ok {completion : CronCompletion} {u : Unit}
    (ran : saveCompletion host id completion s = .ok (u, s')) :
    Grows s s' ∧ ∃ row, s'.runs.get id = some row ∧ row.completion.isSome := by
  unfold saveCompletion at ran
  dsimp only at ran
  split at ran
  · cases ran
  next row found =>
    split at ran
    · cases ran
    split at ran
    next stored old =>
      split at ran
      · cases ran
      · cases ran
        exact ⟨grows_refl s, row, found, old ▸ rfl⟩
    next none_stored =>
      split at ran
      · cases ran
      split at ran
      · cases ran
      next running =>
        cases ran
        have get (j : Nat) := @Table.get_put _ _ _ s.runs id j { row with
          completion := some (completion, hash host completion.toJson)
          status := completion.runStatus }
        refine ⟨⟨fun j other here => ?_, fun j absent => ?_, fun _ there => there⟩, _,
          Table.get_put_self, rfl⟩
        · dsimp only
          rw [get]
          split
          next same =>
            subst same
            cases found.symm.trans here
            refine ⟨_, rfl, fun ok => ⟨⟨rfl, rfl, rfl, fun started => started, fun stored => ?_⟩, ?_⟩⟩
            · rw [none_stored] at stored
              cases stored
            · refine ⟨fun queued => absurd queued completion.runStatus_finished.1, ?_, fun _ => rfl⟩
              intro stored digest same
              cases same
              rfl
          next => exact ⟨other, here, fun ok => ⟨other.later_refl, ok⟩⟩
        · dsimp only
          rw [get, if_neg, absent]
          rintro rfl
          cases found.symm.trans absent

end Slide.Cron
