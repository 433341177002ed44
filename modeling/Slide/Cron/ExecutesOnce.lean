import Mathlib.Data.List.Infix
import Slide.Cron.ManagerRun
import Slide.Library.Guarded

/-!
# A cron run executes once and keeps its result

Every event keeps what is known of requests, calls and bodies.  Two bodies of one run would have one
winner, and two live bodies of one job one lock; a request is its row, and a completion stays with the
status that it gives.
-/

namespace Slide.Cron

open Display Transaction Guarded List

variable {host : CronHost} {w : CronWorld} {s s' : CronStore} {e : Execution} {i b : Nat}
  {body : JobBody} {outcome : Outcome} {commit : Commit} {message : String}

/-! ## The statements of a call -/

theorem sound_prepare {phase : Phase} (here : w.executions[i]? = some e)
    (entering : e.phase = .entering) (next : phase = .preparing ∨ phase.late ∧ phase.status = none) :
    CronSound host w (w.move i { e with phase }) := by
  have left : e.phase ≠ .working := by
    rw [entering]
    nofun
  rcases next with rfl | ⟨late, silent⟩
  · refine sound_move here (fun _ => grows_refl w.store) fun _ ok _ => ⟨moves_phase left, ?_⟩
    have early := ok.early (entering ▸ rfl)
    have inside := ok.inside (entering ▸ rfl)
    have within := ok.within (entering ▸ rfl)
    have named := ok.named (entering ▸ rfl)
    exact ⟨fun _ => early, nofun, fun _ => inside, fun _ => within, ok.started, nofun, fun _ => named⟩
  · exact sound_late here left late fun _ success => by cases silent.symm.trans success

theorem getElem?_append_eq {α : Type} {l : List α} {a x : α} {j : Nat} (found : (l ++ [a])[j]? = some x) :
    l[j]? = some x ∨ (j = l.length ∧ x = a) := by
  rcases Nat.lt_or_ge j l.length with old | new
  · rw [getElem?_append_left old] at found
    exact .inl found
  · rw [List.getElem?_append_right new] at found
    obtain ⟨inside, same⟩ := List.getElem?_eq_some_iff.mp found
    have at_end : j = l.length := by
      rw [length_singleton] at inside
      omega
    exact .inr ⟨at_end, (mem_singleton.mp (mem_of_getElem? found))⟩

theorem getElem?_append_of {α : Type} {l : List α} {a x : α} {j : Nat} (found : l[j]? = some x) :
    (l ++ [a])[j]? = some x := by
  rw [List.getElem?_append_left (List.getElem?_eq_some_iff.mp found).1]
  exact found

theorem sound_body {kind : BodyKind} (here : w.executions[i]? = some e)
    (preparing : e.phase = .preparing) :
    CronSound host w { w.move i { e with body := some w.bodies.length, phase := .working } with
      bodies := w.bodies ++ [⟨i, e.process, e.run, e.job, kind, false, false, none⟩] } := by
  intro inv
  have ok := inv.calls i e here
  have no_body := ok.early (preparing ▸ rfl)
  have lock := ok.inside (preparing ▸ rfl)
  have won := ok.within (preparing ▸ rfl)
  have named := ok.named (preparing ▸ rfl)
  refine ⟨⟨inv.rows, inv.workflows, inv.requests, inv.creator, inv.answered, fun j other found => ?_,
    fun j k other other' at_j at_k => ?_, fun j k other other' at_j at_k => ?_, fun c other found => ?_,
    fun j c other found owns => ?_⟩, rowsLater_refl w.store⟩
  · rcases of_getElem?_move here found with ⟨-, rfl⟩ | ⟨-, old⟩
    · exact ⟨nofun, nofun, fun _ => lock, fun _ => won, ok.started, nofun, fun _ => named⟩
    · exact inv.calls j other old
  · rcases of_getElem?_move here at_j with ⟨rfl, rfl⟩ | ⟨-, old⟩
    · rcases of_getElem?_move here at_k with ⟨rfl, rfl⟩ | ⟨-, old'⟩
      · exact fun _ _ _ => rfl
      · exact inv.exclusive j k e other' here old'
    · rcases of_getElem?_move here at_k with ⟨rfl, rfl⟩ | ⟨-, old'⟩
      · exact inv.exclusive j k other e old here
      · exact inv.exclusive j k other other' old old'
  · rcases of_getElem?_move here at_j with ⟨rfl, rfl⟩ | ⟨-, old⟩
    · rcases of_getElem?_move here at_k with ⟨rfl, rfl⟩ | ⟨-, old'⟩
      · exact fun _ _ _ => rfl
      · exact inv.winner j k e other' here old'
    · rcases of_getElem?_move here at_k with ⟨rfl, rfl⟩ | ⟨-, old'⟩
      · exact inv.winner j k other e old here
      · exact inv.winner j k other other' old old'
  · have moved (j : Nat) := @getElem?_move e
      { e with body := some w.bodies.length, phase := .working } i w.executions here j
    rcases getElem?_append_eq found with old | ⟨rfl, rfl⟩
    · obtain ⟨owner, at_owner, of⟩ := inv.bodies c other old
      refine ⟨owner, ?_, of⟩
      change (w.executions.set i _)[other.execution]? = some owner
      rw [moved, if_neg]
      · exact at_owner
      · intro same
        rw [same] at at_owner
        cases here.symm.trans at_owner
        cases no_body.symm.trans of.owns
    · refine ⟨{ e with body := some w.bodies.length, phase := .working }, ?_, rfl, won, rfl, rfl, rfl,
        fun _ => ⟨lock, .inl rfl⟩, nofun, named⟩
      change (w.executions.set i _)[i]? = _
      rw [moved, if_pos rfl]
  · rcases of_getElem?_move here found with ⟨rfl, rfl⟩ | ⟨-, old⟩
    · cases owns
      exact ⟨⟨j, e.process, e.run, e.job, kind, false, false, none⟩, getElem?_concat_length, rfl⟩
    · obtain ⟨body, at_c, of_j⟩ := inv.owner j c other old owns
      exact ⟨body, getElem?_append_of at_c, of_j⟩

theorem sound_lock {phase : Phase} (here : w.executions[i]? = some e) (found : e.phase = .found)
    (next : phase = .locked ∨ phase = .rethrown message) :
    CronSound host w (w.move i { e with lock := ¬ w.lockedOut e.job, phase }) := by
  have left : e.phase ≠ .working := by
    rw [found]
    nofun
  refine sound_move here (fun _ => grows_refl w.store) fun _ ok _ => ⟨?_, ?_⟩
  · have no_body := ok.early (found ▸ rfl)
    have unlocked := ok.outside (found ▸ rfl)
    refine { @moves_phase w e phase left with lock := fun lock => ⟨rfl, .inr ?_⟩, held := ?_ }
    · exact Bool.eq_false_iff.mpr (of_decide_eq_true lock)
    · intro c other _ owns
      cases no_body.symm.trans owns
  · have no_body := ok.early (found ▸ rfl)
    have named := ok.named (found ▸ rfl)
    rcases next with rfl | rfl
    · exact ⟨fun _ => no_body, nofun, nofun, nofun, ok.started, nofun, fun _ => named⟩
    · exact ⟨nofun, nofun, nofun, nofun, ok.started, nofun, nofun⟩

theorem sound_called {phase : Phase} {job : Nat} (here : w.executions[i]? = some e)
    (called : e.phase = .called)
    (next : (phase = .found ∧ Known w.store e.run fun row => row.jobId = job) ∨ phase = .gone) :
    CronSound host w (w.move i { e with job, phase }) := by
  have left : e.phase ≠ .working := by
    rw [called]
    nofun
  refine sound_move here (fun _ => grows_refl w.store) fun _ ok _ => ⟨?_, ?_⟩
  · have no_body := ok.early (called ▸ rfl)
    have unlocked := ok.outside (called ▸ rfl)
    refine ⟨rfl, rfl, rfl, .inr ⟨no_body, unlocked⟩, fun lock => ?_, ?_, fun won => won,
      fun won => .inl won⟩
    · cases unlocked.symm.trans lock
    · intro c other _ owns
      cases no_body.symm.trans owns
  · have no_body := ok.early (called ▸ rfl)
    have unlocked := ok.outside (called ▸ rfl)
    rcases next with ⟨rfl, named⟩ | rfl
    · exact ⟨fun _ => no_body, fun _ => unlocked, nofun, nofun, ok.started, nofun, fun _ => named⟩
    · exact ⟨nofun, nofun, nofun, nofun, ok.started, nofun, nofun⟩

theorem sound_release (here : w.executions[i]? = some e) (leaving : e.phase = .leaving)
    (settled : w.unsettled e.process e.job = false) :
    CronSound host w (w.move i { e with lock := false, phase := .gone }) := by
  refine fun inv => sound_move here (fun _ => grows_refl w.store) (fun _ ok _ => ⟨?_, ?_⟩) inv
  · refine ⟨rfl, rfl, rfl, .inl rfl, nofun, fun c other at_c owns live _ at_work => ?_, fun won => won,
      fun won => .inl won⟩
    have reported : other.reported = true := by
      rcases at_work with working | reported
      · cases leaving.symm.trans working
      · exact reported
    have of := inv.bodyOf here owns at_c
    have silent := any_eq_false.mp settled other (mem_of_getElem? at_c)
    refine absurd (decide_eq_true ⟨of.process.symm, of.job.symm, ?_⟩) silent
    unfold JobBody.pending
    rw [reported, live]
    rfl
  · exact ⟨nofun, nofun, nofun, nofun, ok.started, nofun, nofun⟩

theorem sound_check {phase : Phase} (here : w.executions[i]? = some e) (locked : e.phase = .locked)
    (next : phase = .busy ∨ phase = .starting ∧ e.lock = true) :
    CronSound host w (w.move i { e with phase }) := by
  have left : e.phase ≠ .working := by
    rw [locked]
    nofun
  refine sound_move here (fun _ => grows_refl w.store) fun _ ok _ => ⟨moves_phase left, ?_⟩
  have no_body := ok.early (locked ▸ rfl)
  rcases next with rfl | ⟨rfl, lock⟩
  · exact ⟨fun _ => no_body, nofun, nofun, nofun, ok.started, nofun, nofun⟩
  · have named := ok.named (locked ▸ rfl)
    exact ⟨fun _ => no_body, nofun, fun _ => lock, nofun, ok.started, nofun, fun _ => named⟩

theorem sound_saving {completion : CronCompletion} (here : w.executions[i]? = some e)
    (saving : e.phase = .saving completion) :
    CronSound host w (w.go host i e outcome message) := by
  have left : e.phase ≠ .working := by
    rw [saving]
    nofun
  unfold CronWorld.go
  rw [saving]
  dsimp only
  rcases @perform_cases _ _ _ (saveCompletion host e.run completion) outcome.commit w.store with
    same | ⟨u, s', ran, done | lost⟩
  · rw [same]
    refine sound_move here (fun _ => grows_refl w.store) fun _ ok _ => ⟨moves_phase left, ?_⟩
    exact ok.late ⟨rfl, rfl, rfl, rfl, rfl⟩ nofun
  · rw [done]
    obtain ⟨grows, stored⟩ := saveCompletion_ok ran
    refine sound_move here (fun _ => grows) fun _ ok later => ⟨moves_phase left, ?_⟩
    exact (ok.later later).late (report_late (some completion) false "") fun _ => stored
  · rw [lost]
    obtain ⟨grows, -⟩ := saveCompletion_ok ran
    refine sound_move here (fun _ => grows) fun _ ok later => ⟨moves_phase left, ?_⟩
    exact (ok.later later).late ⟨rfl, rfl, rfl, rfl, rfl⟩ nofun

theorem sound_go (here : w.executions[i]? = some e) : CronSound host w (w.go host i e outcome message) := by
  have saving := fun completion => @sound_saving host w e i outcome message completion here
  unfold CronWorld.go at saving ⊢
  cases phase : e.phase with
  | saving completion =>
    have moved := saving completion phase
    rwa [phase] at moved
  | called =>
    dsimp only
    split
    next row found =>
      split
      · exact sound_called here phase (.inl ⟨rfl, row, found, rfl⟩)
      · exact sound_called here phase (.inr rfl)
    next => exact sound_called here phase (.inr rfl)
  | found =>
    dsimp only
    refine @sound_lock host w e i message _ here phase ?_
    split
    · exact .inr rfl
    · exact .inl rfl
  | locked =>
    dsimp only
    apply sound_check here phase
    split
    next => exact .inl rfl
    next free =>
      rw [not_or, not_not] at free
      exact .inr ⟨rfl, free.1⟩
  | busy =>
    dsimp only
    apply sound_starts here (by rw [phase]; nofun)
    intro s' ok started _
    exact ⟨nofun, nofun, nofun, nofun, fun _ => started, nofun, nofun⟩
  | starting =>
    dsimp only
    apply sound_starts here (by rw [phase]; nofun)
    intro s' ok started later
    have no_body := ok.early (phase ▸ rfl)
    have lock := ok.inside (phase ▸ rfl)
    have named := known_job (ok.named (phase ▸ rfl)) later
    exact ⟨fun _ => no_body, nofun, fun _ => lock, fun _ => rfl, fun _ => started, nofun,
      fun _ => named⟩
  | ending status errorCode =>
    dsimp only
    refine sound_finishes here (by rw [phase]; nofun) (fun inv success => ?_)
      ⟨⟨rfl, rfl, rfl, rfl, rfl⟩, rfl⟩ ⟨⟨rfl, rfl, rfl, rfl, rfl⟩, rfl⟩
    apply (inv.calls i e here).earned
    rw [phase]
    exact congrArg some success
  | entering =>
    dsimp only
    split
    · split
      · exact sound_prepare here phase (.inr ⟨⟨rfl, rfl, rfl, rfl, rfl⟩, rfl⟩)
      · exact sound_prepare here phase (.inl rfl)
    · exact sound_late here (by rw [phase]; nofun) ⟨rfl, rfl, rfl, rfl, rfl⟩ fun _ => nofun
    · exact sound_prepare here phase (.inr ⟨⟨rfl, rfl, rfl, rfl, rfl⟩, rfl⟩)
  | preparing =>
    dsimp only
    split
    · exact sound_body here phase
    · exact sound_late here (by rw [phase]; nofun) ⟨rfl, rfl, rfl, rfl, rfl⟩ fun _ => nofun
    · exact sound_late here (by rw [phase]; nofun) ⟨rfl, rfl, rfl, rfl, rfl⟩ fun _ => nofun
  | working =>
    dsimp only
    split
    next b owns =>
      split
      next body at_b => exact sound_works here owns at_b
      next => exact refl_of (CronSound host) w
    next => exact refl_of (CronSound host) w
  | reporting status errorCode followed =>
    dsimp only
    refine sound_finishes here (by rw [phase]; nofun) (fun inv success => ?_) ?_
      ⟨⟨rfl, rfl, rfl, rfl, rfl⟩, rfl⟩
    · apply (inv.calls i e here).earned
      rw [phase]
      exact congrArg some success
    · split <;> exact ⟨⟨rfl, rfl, rfl, rfl, rfl⟩, rfl⟩
  | reported =>
    dsimp only
    split
    · exact sound_late here (by rw [phase]; nofun) ⟨rfl, rfl, rfl, rfl, rfl⟩ fun _ => nofun
    · exact sound_late here (by rw [phase]; nofun) ⟨rfl, rfl, rfl, rfl, rfl⟩ fun _ => nofun
  | failing error =>
    exact sound_finishes here (by rw [phase]; nofun) (fun _ => nofun) ⟨⟨rfl, rfl, rfl, rfl, rfl⟩, rfl⟩
      ⟨⟨rfl, rfl, rfl, rfl, rfl⟩, rfl⟩
  | closing threw =>
    refine sound_late here (by rw [phase]; nofun) ?_ fun _ success => ?_
    · split <;> exact ⟨rfl, rfl, rfl, rfl, rfl⟩
    · split at success <;> cases success
  | rethrown error =>
    exact sound_finishes here (by rw [phase]; nofun) (fun _ => nofun) ⟨⟨rfl, rfl, rfl, rfl, rfl⟩, rfl⟩
      ⟨⟨rfl, rfl, rfl, rfl, rfl⟩, rfl⟩
  | leaving =>
    dsimp only
    split
    · exact refl_of (CronSound host) w
    next settled => exact sound_release here phase (Bool.eq_false_iff.mpr settled)
  | gone =>
    exact refl_of (CronSound host) w

/-! ## Requests -/

section Requests

variable {runId id jobId : Nat} {triggeredBy : Option Nat} {key : String} {params : Json}
  {outputSchema : Option Json}

theorem byRequest_eq_some {request : String} {row : CronRunRow}
    (found : s.byRequest request = some (id, row)) :
    s.runs.get id = some row ∧ row.requestKey = request := by
  unfold CronStore.byRequest at found
  have same := find?_some found
  exact ⟨Table.mem_entries.mp (mem_of_find?_eq_some found), of_decide_eq_true same⟩

theorem byRequest_eq_none {request : String} (missing : s.byRequest request = none) {row : CronRunRow}
    (found : s.runs.get id = some row) : row.requestKey ≠ request := by
  unfold CronStore.byRequest at missing
  intro same
  exact find?_eq_none.mp missing (id, row) (Table.mem_entries.mpr found) (decide_eq_true same)

/-- The row of a request that is new. -/
def requestRow (host : CronHost) (triggeredBy : Option Nat) (jobId : Nat) (key : String) (params : Json)
    (outputSchema : Option Json) : CronRunRow :=
  ⟨jobId, triggeredBy, requestKey host triggeredBy jobId key, hash host params, .queued, false, false,
    none, outputSchema, none⟩

theorem enqueue_ok (fresh : s.runs.get runId = none)
    (ran : enqueue host runId triggeredBy jobId key params outputSchema s = .ok (id, s')) :
    (∃ row, s.runs.get id = some row ∧ row.requestKey = requestKey host triggeredBy jobId key ∧
      row.requestHash = hash host params ∧ s' = ⟨s.runs, s.workflows.insertNew id false⟩) ∨
    (id = runId ∧ s.byRequest (requestKey host triggeredBy jobId key) = none ∧
      s' = ⟨s.runs.put runId (requestRow host triggeredBy jobId key params outputSchema),
        s.workflows.insertNew runId false⟩) := by
  unfold enqueue at ran
  dsimp only at ran
  split at ran
  · cases ran
  split at ran
  · cases ran
  next row found =>
    split at ran
    · cases ran
    next agrees =>
      cases ran
      obtain ⟨stored, request⟩ := byRequest_eq_some found
      cases known : s.byRequest (requestKey host triggeredBy jobId key) with
      | some old =>
        rw [known] at stored
        exact .inl ⟨row, stored, request, not_not.mp agrees, rfl⟩
      | none =>
        rw [known] at stored
        have inserted : s.runs.insertNew runId
            (requestRow host triggeredBy jobId key params outputSchema) =
              s.runs.put runId (requestRow host triggeredBy jobId key params outputSchema) := by
          unfold Table.insertNew
          rw [fresh]
          rfl
        change (s.runs.insertNew runId
          (requestRow host triggeredBy jobId key params outputSchema)).get id = some row at stored
        rw [inserted, Table.get_put] at stored
        split at stored
        next same =>
          subst same
          refine .inr ⟨rfl, rfl, ?_⟩
          exact congrArg (CronStore.mk · (s.workflows.insertNew id false)) inserted
        next => exact absurd request (byRequest_eq_none known stored)

theorem CronInv.fresh (inv : CronInv host w) : w.store.runs.get w.enqueues.length = none := by
  cases found : w.store.runs.get w.enqueues.length with
  | none => rfl
  | some row =>
    obtain ⟨call, here, -⟩ := inv.creator _ row found
    exact absurd (List.getElem?_eq_some_iff.mp here).1 (lt_irrefl _)

theorem workflow_insertNew {workflows : Table Nat Bool} {j : Nat} (there : (workflows.get j).isSome) :
    ((workflows.insertNew id false).get j).isSome := by
  rw [Table.get_insertNew]
  split
  · rfl
  · exact there

theorem sound_asked {call : EnqueueCall} {workflows : Table Nat Bool}
    (kept : ∀ j, (w.store.workflows.get j).isSome → (workflows.get j).isSome)
    (answer : ∀ id, call.answer = some id → Known w.store id fun row =>
      row.requestKey = requestKey host call.triggeredBy call.jobId call.key ∧
      row.requestHash = hash host call.params) :
    CronSound host w { w with
      store := { w.store with workflows }
      enqueues := w.enqueues ++ [call] } := by
  intro inv
  have grows : Grows w.store { w.store with workflows } :=
    ⟨fun _ row found => ⟨row, found, fun ok => ⟨row.later_refl, ok⟩⟩, fun _ absent => absent, kept⟩
  obtain ⟨inv', later⟩ := inv.grow grows
  refine ⟨{ inv' with
    creator := fun id row found => ?_
    answered := fun i other id here answered => ?_ }, later⟩
  · obtain ⟨other, here, same⟩ := inv'.creator id row found
    exact ⟨other, getElem?_append_of here, same⟩
  · rcases getElem?_append_eq here with old | ⟨-, rfl⟩
    · exact inv'.answered i other id old answered
    · exact answer id answered

theorem sound_new {call : EnqueueCall}
    (missing : w.store.byRequest (requestKey host call.triggeredBy call.jobId call.key) = none)
    (own : ∀ id, call.answer = some id → id = w.enqueues.length) :
    CronSound host w { w with
      store := ⟨w.store.runs.put w.enqueues.length
          (requestRow host call.triggeredBy call.jobId call.key call.params outputSchema),
        w.store.workflows.insertNew w.enqueues.length false⟩
      enqueues := w.enqueues ++ [call] } := by
  intro inv
  have get (j : Nat) := @Table.get_put _ _ _ w.store.runs w.enqueues.length j
    (requestRow host call.triggeredBy call.jobId call.key call.params outputSchema)
  have later : RowsLater w.store ⟨w.store.runs.put w.enqueues.length
      (requestRow host call.triggeredBy call.jobId call.key call.params outputSchema),
        w.store.workflows.insertNew w.enqueues.length false⟩ := by
    intro id row found
    refine ⟨row, ?_, row.later_refl⟩
    dsimp only
    rw [get, if_neg, found]
    rintro rfl
    cases inv.fresh.symm.trans found
  have cases_of (id : Nat) (row : CronRunRow)
      (found : (w.store.runs.put w.enqueues.length (requestRow host call.triggeredBy call.jobId call.key
        call.params outputSchema)).get id = some row) :
      (id = w.enqueues.length ∧ row = requestRow host call.triggeredBy call.jobId call.key call.params
        outputSchema) ∨ w.store.runs.get id = some row := by
    rw [get] at found
    split at found
    next same => exact .inl ⟨same, (some.inj found).symm⟩
    next => exact .inr found
  refine ⟨⟨fun id row found => ?_, fun id row found => ?_, fun i j row row' at_i at_j same => ?_,
    fun id row found => ?_, fun i other id here answered => ?_,
    fun i e here => (inv.calls i e here).later later, inv.exclusive, inv.winner,
    fun b body here => ?_, inv.owner⟩, later⟩
  · rcases cases_of id row found with ⟨-, rfl⟩ | old
    · exact ⟨fun _ => rfl, fun _ _ done => (by cases done), fun done => by cases done⟩
    · exact inv.rows id row old
  · rcases cases_of id row found with ⟨rfl, -⟩ | old
    · dsimp only
      rw [Table.get_insertNew]
      split
      · rfl
      next there => exact Option.ne_none_iff_isSome.mp fun absent => there ⟨rfl, absent⟩
    · exact workflow_insertNew (inv.workflows id row old)
  · rcases cases_of i row at_i with ⟨rfl, rfl⟩ | old
    · rcases cases_of j row' at_j with ⟨rfl, -⟩ | old'
      · rfl
      · exact absurd same.symm (byRequest_eq_none missing old')
    · rcases cases_of j row' at_j with ⟨rfl, rfl⟩ | old'
      · exact absurd same (byRequest_eq_none missing old)
      · exact inv.requests i j row row' old old' same
  · rcases cases_of id row found with ⟨rfl, rfl⟩ | old
    · exact ⟨call, getElem?_concat_length, rfl, rfl⟩
    · obtain ⟨other, here, same⟩ := inv.creator id row old
      exact ⟨other, getElem?_append_of here, same⟩
  · rcases getElem?_append_eq here with old | ⟨-, rfl⟩
    · apply (inv.answered i other id old answered).mono later
      intro row row' after same
      exact ⟨after.request.trans same.1, after.params.trans same.2⟩
    · obtain rfl := own id answered
      exact ⟨_, Table.get_put_self, rfl, rfl⟩
  · obtain ⟨e, at_e, of⟩ := inv.bodies b body here
    exact ⟨e, at_e, of.later later⟩

theorem sound_enqueue : CronSound host w
    (w.step host (.enqueue triggeredBy jobId key params outputSchema commit)) := by
  intro inv
  revert inv
  unfold CronWorld.step
  dsimp only
  rcases @perform_cases _ _ _ (enqueue host w.enqueues.length triggeredBy jobId key params outputSchema)
    commit w.store with same | ⟨id, s', ran, through⟩
  · rw [same]
    exact sound_asked (fun _ there => there) nofun
  · intro inv
    have answers : ∃ answer, perform (enqueue host w.enqueues.length triggeredBy jobId key params
        outputSchema) commit w.store = (answer, s') ∧ ∀ id', answer = some id' → id' = id := by
      rcases through with done | lost
      · exact ⟨some id, done, fun _ same => (some.inj same).symm⟩
      · exact ⟨none, lost, nofun⟩
    obtain ⟨answer, same, own⟩ := answers
    rw [same]
    rcases enqueue_ok inv.fresh ran with ⟨row, found, request, agrees, rfl⟩ | ⟨rfl, missing, rfl⟩
    · refine @sound_asked host w ⟨triggeredBy, jobId, key, params, answer⟩ _
        (fun _ there => workflow_insertNew there) (fun id' answered => ?_) inv
      rw [own id' answered]
      exact ⟨row, found, request, agrees⟩
    · exact @sound_new host w outputSchema ⟨triggeredBy, jobId, key, params, answer⟩ missing own inv

end Requests

/-! ## The other events -/

theorem sound_store (grows : Grows w.store s') : CronSound host w { w with store := s' } :=
  fun inv => inv.grow grows

theorem grows_saveCompletion {run : Nat} {completion : CronCompletion} :
    Grows s (perform (saveCompletion host run completion) commit s).2 :=
  perform_keeps (grows_refl s) fun _ _ ran => (saveCompletion_ok ran).1

theorem sound_execute (process run : Nat) : CronSound host w
    { w with executions := w.executions ++ [⟨process, run, 0, false, false, none, .called⟩] } := by
  intro inv
  refine ⟨⟨inv.rows, inv.workflows, inv.requests, inv.creator, inv.answered, fun i e here => ?_,
    fun i j e e' at_i at_j lock lock' same => ?_, fun i j e e' at_i at_j won won' same => ?_,
    fun b body here => ?_, fun i b e here owns => ?_⟩, rowsLater_refl w.store⟩
  · rcases getElem?_append_eq here with old | ⟨-, rfl⟩
    · exact inv.calls i e old
    · exact ⟨fun _ => rfl, fun _ => rfl, nofun, nofun, nofun, nofun, nofun⟩
  · rcases getElem?_append_eq at_i with old | ⟨-, rfl⟩
    · rcases getElem?_append_eq at_j with old' | ⟨-, rfl⟩
      · exact inv.exclusive i j e e' old old' lock lock' same
      · cases lock'
    · cases lock
  · rcases getElem?_append_eq at_i with old | ⟨-, rfl⟩
    · rcases getElem?_append_eq at_j with old' | ⟨-, rfl⟩
      · exact inv.winner i j e e' old old' won won' same
      · cases won'
    · cases won
  · obtain ⟨e, at_e, of⟩ := inv.bodies b body here
    exact ⟨e, getElem?_append_of at_e, of⟩
  · rcases getElem?_append_eq here with old | ⟨-, rfl⟩
    · exact inv.owner i b e old owns
    · cases owns

theorem sound_completes {completion : CronCompletion} (here : w.bodies[b]? = some body) :
    CronSound host w (w.completes host b body completion commit) := by
  unfold CronWorld.completes
  rcases @perform_cases _ _ _ (saveCompletion host body.run completion) commit w.store with
    same | ⟨u, s', ran, done | lost⟩
  · rw [same]
    refine sound_setBody here rfl rfl rfl rfl (fun live => live) (fun reported => reported)
      (grows_refl w.store) fun _ inv stored => ?_
    obtain ⟨e, -, of⟩ := inv.bodies b body here
    exact of.saved stored
  · rw [done]
    obtain ⟨grows, stored⟩ := saveCompletion_ok ran
    exact sound_setBody here rfl rfl rfl rfl (fun live => live) (fun reported => reported) grows
      fun _ _ _ => stored
  · rw [lost]
    obtain ⟨grows, -⟩ := saveCompletion_ok ran
    refine sound_setBody here rfl rfl rfl rfl (fun live => live) (fun reported => reported) grows
      fun later inv stored => ?_
    obtain ⟨e, -, of⟩ := inv.bodies b body here
    exact known_completion (of.saved stored) later

theorem sound_settle (here : w.bodies[b]? = some body) :
    CronSound host w { w with bodies := w.bodies.set b { body with settled := true } } := by
  refine sound_setBody here rfl rfl rfl rfl nofun (fun reported => reported) (grows_refl w.store)
    fun _ inv stored => ?_
  obtain ⟨e, -, of⟩ := inv.bodies b body here
  exact of.saved stored

theorem sound_stop (process : Nat) : CronSound host w (w.step host (.stop process)) := by
  intro inv
  have stopped {i : Nat} {e' : Execution} (here : (w.step host (.stop process)).executions[i]? = some e') :
      ∃ e, w.executions[i]? = some e ∧ e' = if e.process = process then
        { e with lock := false, phase := .gone } else e := by
    change (w.executions.map _)[i]? = some e' at here
    rw [getElem?_map] at here
    obtain ⟨e, found, same⟩ := Option.map_eq_some_iff.mp here
    exact ⟨e, found, same.symm⟩
  have kept (e : Execution) : let e' := if e.process = process then
      { e with lock := false, phase := .gone } else e
      e'.run = e.run ∧ e'.job = e.job ∧ e'.process = e.process ∧ e'.body = e.body ∧ e'.won = e.won ∧
        (e'.lock = true → e.lock = true) := by
    dsimp only
    split
    · exact ⟨rfl, rfl, rfl, rfl, rfl, nofun⟩
    · exact ⟨rfl, rfl, rfl, rfl, rfl, id⟩
  refine ⟨⟨inv.rows, inv.workflows, inv.requests, inv.creator, inv.answered, fun i e' here => ?_,
    fun i j e e' at_i at_j lock lock' same => ?_, fun i j e e' at_i at_j won won' same => ?_,
    fun b body' here => ?_, fun i b e' here owns => ?_⟩, rowsLater_refl w.store⟩
  · obtain ⟨e, found, rfl⟩ := stopped here
    have ok := inv.calls i e found
    split
    · exact ⟨nofun, nofun, nofun, nofun, ok.started, nofun, nofun⟩
    · exact ok
  · obtain ⟨old, found, rfl⟩ := stopped at_i
    obtain ⟨old', found', rfl⟩ := stopped at_j
    obtain ⟨-, job, -, -, -, held⟩ := kept old
    obtain ⟨-, job', -, -, -, held'⟩ := kept old'
    exact inv.exclusive i j old old' found found' (held lock) (held' lock')
      (job.symm.trans (same.trans job'))
  · obtain ⟨old, found, rfl⟩ := stopped at_i
    obtain ⟨old', found', rfl⟩ := stopped at_j
    obtain ⟨run, -, -, -, before, -⟩ := kept old
    obtain ⟨run', -, -, -, before', -⟩ := kept old'
    exact inv.winner i j old old' found found' (before.symm.trans won) (before'.symm.trans won')
      (run.symm.trans (same.trans run'))
  · change (w.bodies.map _)[b]? = some body' at here
    rw [getElem?_map] at here
    obtain ⟨body, found, rfl⟩ := Option.map_eq_some_iff.mp here
    obtain ⟨e, at_e, of⟩ := inv.bodies b body found
    have moved : (w.step host (.stop process)).executions[body.execution]? = some (if e.process = process
        then { e with lock := false, phase := .gone } else e) := by
      change (w.executions.map _)[body.execution]? = _
      rw [getElem?_map, at_e]
      rfl
    by_cases own : body.process = process
    · rw [if_pos (of.process.trans own)] at moved
      rw [if_pos own]
      exact ⟨_, moved, of.owns, of.won, of.run, of.job, of.process, nofun, of.saved, of.named⟩
    · rw [if_neg fun same => own (of.process.symm.trans same)] at moved
      rw [if_neg own]
      exact ⟨e, moved, of⟩
  · obtain ⟨e, found, rfl⟩ := stopped here
    obtain ⟨-, -, -, body_kept, -⟩ := kept e
    obtain ⟨body, at_b, of_i⟩ := inv.owner i b e found (body_kept.symm.trans owns)
    refine ⟨if body.process = process then { body with settled := true } else body, ?_, ?_⟩
    · change (w.bodies.map _)[b]? = _
      rw [getElem?_map, at_b]
      rfl
    · split <;> exact of_i

theorem sound_step (w : CronWorld) (event : CronEvent) : CronSound host w (w.step host event) := by
  cases event with
  | enqueue => exact sound_enqueue
  | lease run owned =>
    dsimp only [CronWorld.step]
    split
    · apply sound_store
      refine ⟨fun _ row found => ⟨row, found, fun ok => ⟨row.later_refl, ok⟩⟩, fun _ absent => absent,
        fun id there => ?_⟩
      dsimp only
      rw [Table.get_put]
      split
      · rfl
      · exact there
    · exact refl_of (CronSound host) w
  | recover => exact sound_store grows_recover
  | saveCompletion run completion commit => exact sound_store grows_saveCompletion
  | execute process run => exact sound_execute process run
  | go i outcome message =>
    dsimp only [CronWorld.step]
    split
    next e here => exact sound_go here
    next => exact refl_of (CronSound host) w
  | complete b completion commit =>
    dsimp only [CronWorld.step]
    split
    next body here =>
      split
      · exact sound_completes here
      · exact refl_of (CronSound host) w
    next => exact refl_of (CronSound host) w
  | settle b =>
    dsimp only [CronWorld.step]
    split
    next body here => exact sound_settle here
    next => exact refl_of (CronSound host) w
  | stop process => exact sound_stop process

/-! ## Runs -/

theorem enqueues_go : (w.go host i e outcome message).enqueues = w.enqueues := by
  unfold CronWorld.go CronWorld.starts CronWorld.finishes CronWorld.works CronWorld.move
  cases e.phase <;> dsimp only <;> repeat' split
  all_goals rfl

/-- The requests that were made are kept. -/
def Asked (w w' : CronWorld) : Prop := w.enqueues <+: w'.enqueues

instance : Std.Refl Asked := ⟨fun _ => prefix_rfl⟩

instance : IsTrans CronWorld Asked := ⟨fun _ _ _ first second => List.IsPrefix.trans first second⟩

theorem enqueues_step (w : CronWorld) (event : CronEvent) : Asked w (w.step host event) := by
  unfold Asked
  cases event with
  | enqueue => exact prefix_append ..
  | lease | settle =>
    dsimp only [CronWorld.step]
    split <;> exact prefix_rfl
  | recover | saveCompletion | execute | stop => exact prefix_rfl
  | go i outcome message =>
    dsimp only [CronWorld.step]
    split
    · rw [enqueues_go]
    · exact prefix_rfl
  | complete b completion commit =>
    dsimp only [CronWorld.step]
    split
    · split <;> exact prefix_rfl
    · exact prefix_rfl

variable {events earlier : List CronEvent}

theorem cronInv_start : CronInv host .start := by
  have empty {id : Nat} {row : CronRunRow} (found : CronWorld.start.store.runs.get id = some row) :
      False := by
    cases (Table.get_empty id).symm.trans found
  refine ⟨fun _ _ found => (empty found).elim, fun _ _ found => (empty found).elim,
    fun _ _ _ _ found => (empty found).elim, fun _ _ found => (empty found).elim, ?_, ?_, ?_, ?_, ?_, ?_⟩
  · intro i call id here
    cases here
  · intro i e here
    cases here
  · intro i j e e' here
    cases here
  · intro i j e e' here
    cases here
  · intro b body here
    cases here
  · intro i b e here
    cases here

theorem sound_of_initial (before : earlier <+: events) :
    CronSound host (runCron host earlier) (runCron host events) :=
  related_of_initial sound_step before

theorem enqueues_of_initial (before : earlier <+: events) :
    Asked (runCron host earlier) (runCron host events) :=
  related_of_initial enqueues_step before

/-- Different parameter sets that were asked for have different digests. -/
def CollisionFree (host : CronHost) (events : List CronEvent) : Prop :=
  ∀ call ∈ (runCron host events).enqueues, ∀ call' ∈ (runCron host events).enqueues,
    hash host call.params = hash host call'.params →
    canonical host call.params = canonical host call'.params

instance : Decidable (CollisionFree host events) :=
  inferInstanceAs (Decidable (∀ _ ∈ _, ∀ _ ∈ _, _ = _ → _ = _))

structure ExecutesOnce (host : CronHost) (events : List CronEvent) : Prop where
  one_run : ∀ i j row row', (runCron host events).store.runs.get i = some row →
    (runCron host events).store.runs.get j = some row' → row.requestKey = row'.requestKey → i = j
  answered : ∀ (i : Nat) call id, (runCron host events).enqueues[i]? = some call →
    call.answer = some id → Known (runCron host events).store id fun row =>
      row.requestKey = requestKey host call.triggeredBy call.jobId call.key
  agreed : ∀ (i j : Nat) call call' id id', (runCron host events).enqueues[i]? = some call →
    (runCron host events).enqueues[j]? = some call' → call.answer = some id →
    call'.answer = some id' → call.triggeredBy = call'.triggeredBy → call.jobId = call'.jobId →
    call.key = call'.key → id = id' ∧ canonical host call.params = canonical host call'.params
  refused : ∀ earlier triggeredBy jobId key params outputSchema commit,
    earlier ++ [.enqueue triggeredBy jobId key params outputSchema commit] <+: events →
    ∀ (id : Nat) row call, (runCron host earlier).store.runs.get id = some row →
    row.requestKey = requestKey host triggeredBy jobId key →
    (runCron host earlier).enqueues[id]? = some call →
    canonical host call.params ≠ canonical host params →
    runCron host (earlier ++ [.enqueue triggeredBy jobId key params outputSchema commit]) =
      { runCron host earlier with
        enqueues := (runCron host earlier).enqueues ++ [⟨triggeredBy, jobId, key, params, none⟩] }
  workflow : ∀ id row, (runCron host events).store.runs.get id = some row →
    ((runCron host events).store.workflows.get id).isSome
  started_once : ∀ (a b : Nat) body body', (runCron host events).bodies[a]? = some body →
    (runCron host events).bodies[b]? = some body' → body.run = body'.run → a = b
  apart : ∀ (a b : Nat) body body', (runCron host events).bodies[a]? = some body →
    (runCron host events).bodies[b]? = some body' → body.settled = false → body'.settled = false →
    body.job = body'.job → a = b
  job : ∀ (b : Nat) body, (runCron host events).bodies[b]? = some body →
    Known (runCron host events).store body.run fun row => row.jobId = body.job
  completed : ∀ earlier, earlier <+: events → ∀ id row completion digest,
    (runCron host earlier).store.runs.get id = some row →
    row.completion = some (completion, digest) →
    Known (runCron host events).store id fun row =>
      row.completion = some (completion, digest) ∧ row.status = completion.runStatus
  success : ∀ id row, (runCron host events).store.runs.get id = some row → row.status = .success →
    row.completion.isSome

theorem enqueue_refused {runId id jobId : Nat} {triggeredBy : Option Nat} {key : String} {params : Json}
    {outputSchema : Option Json} {row : CronRunRow}
    (requests : ∀ i j row row', s.runs.get i = some row → s.runs.get j = some row' →
      row.requestKey = row'.requestKey → i = j)
    (found : s.runs.get id = some row) (request : row.requestKey = requestKey host triggeredBy jobId key)
    (differ : row.requestHash ≠ hash host params) :
    ∃ message, enqueue host runId triggeredBy jobId key params outputSchema s = .error message := by
  unfold enqueue
  dsimp only
  split
  · exact ⟨_, rfl⟩
  · cases known : s.byRequest (requestKey host triggeredBy jobId key) with
    | none => exact absurd request (byRequest_eq_none known found)
    | some entry =>
      obtain ⟨id', row'⟩ := entry
      obtain ⟨found', request'⟩ := byRequest_eq_some known
      obtain rfl := requests id id' row row' found found' (request.trans request'.symm)
      cases found.symm.trans found'
      rw [Option.isSome_some, if_pos rfl]
      simp only [known]
      exact ⟨_, if_pos differ⟩

theorem executes_once (host : CronHost) (events : List CronEvent) (distinct : CollisionFree host events) :
    ExecutesOnce host events := by
  have all (es : List CronEvent) : CronInv host (runCron host es) :=
    (sound_of_initial nil_prefix cronInv_start).1
  have inv := all events
  refine ⟨inv.requests, fun i call id here answer => ?_,
    fun i j call call' id id' at_i at_j answer answer' user job key => ?_,
    fun earlier triggeredBy jobId key params outputSchema commit before id row call found request here
      differ => ?_, inv.workflows, fun a b body body' at_a at_b same => ?_,
    fun a b body body' at_a at_b live live' same => ?_, fun b body here => ?_,
    fun earlier before id row completion digest found stored => ?_,
    fun id row found => (inv.rows id row found).success⟩
  · obtain ⟨row, found, request, -⟩ := inv.answered i call id here answer
    exact ⟨row, found, request⟩
  · obtain ⟨row, found, request, params⟩ := inv.answered i call id at_i answer
    obtain ⟨row', found', request', params'⟩ := inv.answered j call' id' at_j answer'
    rw [← user, ← job, ← key, ← request] at request'
    obtain rfl := inv.requests id id' row row' found found' request'.symm
    cases found.symm.trans found'
    exact ⟨rfl, distinct call (mem_of_getElem? at_i) call' (mem_of_getElem? at_j)
      (params.symm.trans params')⟩
  · obtain ⟨creator, at_id, -, params_row⟩ := (all earlier).creator id row found
    cases here.symm.trans at_id
    have prior : Asked (runCron host earlier) (runCron host events) :=
      enqueues_of_initial ((prefix_append earlier _).trans before)
    have step : runCron host (earlier ++ [.enqueue triggeredBy jobId key params outputSchema commit]) =
        (runCron host earlier).step host (.enqueue triggeredBy jobId key params outputSchema commit) := by
      unfold runCron
      rw [foldl_append]
      rfl
    have asked : ∃ answer, ⟨triggeredBy, jobId, key, params, answer⟩ ∈ (runCron host events).enqueues := by
      have after : Asked _ (runCron host events) := enqueues_of_initial before
      rw [step] at after
      exact ⟨_, List.IsPrefix.subset after (mem_append_right _ (mem_singleton_self _))⟩
    obtain ⟨answer, asked⟩ := asked
    have other : row.requestHash ≠ hash host params := by
      intro same
      apply differ
      exact distinct call (List.IsPrefix.subset prior (mem_of_getElem? here)) _ asked
        (params_row.symm.trans same)
    obtain ⟨message, refused⟩ := @enqueue_refused host _ (runCron host earlier).enqueues.length id jobId
      triggeredBy key params outputSchema row (all earlier).requests found request other
    rw [step]
    dsimp only [CronWorld.step]
    unfold perform
    rw [refused]
  · obtain ⟨e, at_e, of⟩ := inv.bodies a body at_a
    obtain ⟨e', at_e', of'⟩ := inv.bodies b body' at_b
    have one := inv.winner _ _ e e' at_e at_e' of.won of'.won (of.run.trans (same.trans of'.run.symm))
    rw [one] at at_e
    cases at_e.symm.trans at_e'
    exact some.inj (of.owns.symm.trans of'.owns)
  · obtain ⟨e, at_e, of⟩ := inv.bodies a body at_a
    obtain ⟨e', at_e', of'⟩ := inv.bodies b body' at_b
    have one := inv.exclusive _ _ e e' at_e at_e' (of.held live).1 (of'.held live').1
      (of.job.trans (same.trans of'.job.symm))
    rw [one] at at_e
    cases at_e.symm.trans at_e'
    exact some.inj (of.owns.symm.trans of'.owns)
  · obtain ⟨e, -, of⟩ := inv.bodies b body here
    exact of.named
  · obtain ⟨row', found', later⟩ := (sound_of_initial before (all earlier)).2 id row found
    obtain ⟨same, status⟩ := later.completed (Option.isSome_iff_exists.mpr ⟨_, stored⟩)
    refine ⟨row', found', same.trans stored, status.trans ?_⟩
    exact ((all earlier).rows id row found).completed completion digest stored

section Timeout

/-- SHA-256 of the texts that are hashed below. -/
def maintenanceHost : CronHost where
  sha256 := fun text =>
    if text = "[7,1,\"k\"]" then
      "c14cfaa60bc62c45d679d9a33f0a8d7cd186c9d037cdf9aa2b9c2fd98b5f7533"
    else if text = "\x7b\x7d" then
      "44136fa355b3678a1146ad16f7e8649e94fb4fc21fe77e8310c060f61caaff8a"
    else if text = "\x7b\"a\":true\x7d" then
      "5daa0644c4a1c43ea018f7f1ef2944b90e0165ef1f2d5669ca89e5d4f69ac597"
    else if text = "\x7b\"status\":\"success\",\"summary\":\"done\"\x7d" then
      "df9cd48372c48c1213060f79cb36754764cd8fb15822f830c5fe51d32dc69fa5"
    else ""
  numberText := fun n => if n = 7 then "7" else if n = 1 then "1" else ""
  localeLe := fun left right => decide (JsString.le left right)
  accepts := fun _ _ => true

/-- A job is requested twice, and once with other parameters; its agent saves a completion, and its
timeout is reported before it has settled. -/
def timedOut : List CronEvent :=
  [.enqueue (some 7) 1 "k" (.object []) none .done, .enqueue (some 7) 1 "k" (.object []) none .lost,
    .enqueue (some 7) 1 "k" (.object [("a", .bool true)]) none .done, .execute 0 0, .go 0 .proceed "",
    .go 0 .proceed "", .go 0 .proceed "", .go 0 (.statement .done) "", .go 0 .proceed "", .go 0 (.body .agent) "",
    .complete 0 ⟨.success, "done", none, none⟩ .done, .go 0 (.returned none true) "",
    .go 0 (.statement .lost) "", .go 0 (.statement .done) "", .go 0 .proceed "", .go 0 .proceed "", .settle 0,
    .go 0 .proceed ""]

theorem executes_once_timedOut :
    (runCron maintenanceHost timedOut).enqueues.map EnqueueCall.answer = [some 0, none, none] ∧
      ((runCron maintenanceHost timedOut).store.runs.get 0).map CronRunRow.status = some .success ∧
      ExecutesOnce maintenanceHost timedOut :=
  ⟨by decide +kernel, by decide +kernel, executes_once maintenanceHost timedOut (by decide +kernel)⟩

end Timeout

end Slide.Cron
