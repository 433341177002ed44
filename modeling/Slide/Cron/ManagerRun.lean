import Slide.Cron.Manager
import Slide.Cron.RunRows

/-!
# Who executes a cron run

A run belongs to the one call whose `start` took effect, and a job to the one connection that holds its
lock.  A body that has not settled keeps its call from releasing the lock, so what is known of the calls
is known of the bodies.
-/

namespace Slide.Cron

open Display Transaction

/-! ## What is known of a call -/

/-- Before a body. -/
def Phase.early : Phase → Bool
  | .called | .found | .locked | .busy | .starting | .entering | .preparing => true
  | _ => false

/-- The lock has not been asked for. -/
def Phase.outside : Phase → Bool
  | .called | .found => true
  | _ => false

/-- The call has the lock. -/
def Phase.inside : Phase → Bool
  | .starting | .entering | .preparing | .working => true
  | _ => false

/-- The call has started its run. -/
def Phase.within : Phase → Bool
  | .entering | .preparing | .working => true
  | _ => false

/-- The job of the call is that of its run. -/
def Phase.named : Phase → Bool
  | .found | .locked | .starting | .entering | .preparing | .working => true
  | _ => false

/-- The status that is written next. -/
def Phase.status : Phase → Option CronRunStatus
  | .ending status _ | .reporting status _ _ => some status.1
  | _ => none

/-- The run of a call is there, and more is known of it. -/
def Known (s : CronStore) (run : Nat) (known : CronRunRow → Prop) : Prop :=
  ∃ row, s.runs.get run = some row ∧ known row

structure ExecutionOk (s : CronStore) (e : Execution) : Prop where
  early : e.phase.early = true → e.body = none
  outside : e.phase.outside = true → e.lock = false
  inside : e.phase.inside = true → e.lock = true
  within : e.phase.within = true → e.won = true
  started : e.won = true → Known s e.run fun row => row.started = true
  earned : e.phase.status = some .success → Known s e.run fun row => row.completion.isSome
  named : e.phase.named = true → Known s e.run fun row => row.jobId = e.job

/-- A body and the call that it belongs to. -/
structure BodyOf (s : CronStore) (e : Execution) (b : Nat) (body : JobBody) : Prop where
  owns : e.body = some b
  won : e.won = true
  run : e.run = body.run
  job : e.job = body.job
  process : e.process = body.process
  held : body.settled = false → e.lock = true ∧ (e.phase = .working ∨ body.reported = true)
  saved : body.completion.isSome → Known s body.run fun row => row.completion.isSome
  named : Known s body.run fun row => row.jobId = body.job

structure CronInv (host : CronHost) (w : CronWorld) : Prop where
  rows : ∀ id row, w.store.runs.get id = some row → RowOk row
  workflows : ∀ id row, w.store.runs.get id = some row → (w.store.workflows.get id).isSome
  requests : ∀ i j row row', w.store.runs.get i = some row → w.store.runs.get j = some row' →
    row.requestKey = row'.requestKey → i = j
  creator : ∀ id row, w.store.runs.get id = some row → ∃ call, w.enqueues[id]? = some call ∧
    row.requestKey = requestKey host call.triggeredBy call.jobId call.key ∧
    row.requestHash = hash host call.params
  answered : ∀ (i : Nat) call id, w.enqueues[i]? = some call → call.answer = some id →
    Known w.store id fun row =>
      row.requestKey = requestKey host call.triggeredBy call.jobId call.key ∧
      row.requestHash = hash host call.params
  calls : ∀ (i : Nat) e, w.executions[i]? = some e → ExecutionOk w.store e
  exclusive : ∀ (i j : Nat) e e', w.executions[i]? = some e → w.executions[j]? = some e' →
    e.lock = true → e'.lock = true → e.job = e'.job → i = j
  winner : ∀ (i j : Nat) e e', w.executions[i]? = some e → w.executions[j]? = some e' →
    e.won = true → e'.won = true → e.run = e'.run → i = j
  bodies : ∀ (b : Nat) body, w.bodies[b]? = some body → ∃ e,
    w.executions[body.execution]? = some e ∧ BodyOf w.store e b body
  owner : ∀ (i b : Nat) e, w.executions[i]? = some e → e.body = some b → ∃ body,
    w.bodies[b]? = some body ∧ body.execution = i

/-- The rows later on. -/
def RowsLater (s s' : CronStore) : Prop :=
  ∀ id row, s.runs.get id = some row → ∃ row', s'.runs.get id = some row' ∧ row.Later row'

def CronSound (host : CronHost) (w w' : CronWorld) : Prop :=
  CronInv host w → CronInv host w' ∧ RowsLater w.store w'.store

variable {host : CronHost} {w : CronWorld} {s s' : CronStore} {e e' : Execution} {i b run : Nat}
  {known : CronRunRow → Prop} {body : JobBody}

theorem rowsLater_refl (s : CronStore) : RowsLater s s := fun _ row found => ⟨row, found, row.later_refl⟩

theorem RowsLater.trans {s'' : CronStore} (first : RowsLater s s') (second : RowsLater s' s'') :
    RowsLater s s'' := by
  intro id row found
  obtain ⟨row', found', later⟩ := first id row found
  obtain ⟨row'', found'', later'⟩ := second id row' found'
  exact ⟨row'', found'', later.trans later'⟩

instance : Std.Refl (CronSound host) := ⟨fun w inv => ⟨inv, rowsLater_refl w.store⟩⟩

instance : IsTrans CronWorld (CronSound host) := ⟨fun _ _ _ first second inv =>
  have ⟨inv', later⟩ := first inv
  have ⟨inv'', later'⟩ := second inv'
  ⟨inv'', later.trans later'⟩⟩

theorem Grows.later (grows : Grows s s') (rows : ∀ id row, s.runs.get id = some row → RowOk row) :
    RowsLater s s' := by
  intro id row found
  obtain ⟨row', found', kept⟩ := grows.rows id row found
  exact ⟨row', found', (kept (rows id row found)).1⟩

theorem Known.mono (here : Known s run known) (later : RowsLater s s')
    (keep : ∀ row row', row.Later row' → known row → known row') : Known s' run known := by
  obtain ⟨row, found, holds⟩ := here
  obtain ⟨row', found', after⟩ := later run row found
  exact ⟨row', found', keep row row' after holds⟩

theorem known_started (here : Known s run fun row => row.started = true) (later : RowsLater s s') :
    Known s' run fun row => row.started = true :=
  here.mono later fun _ _ after => after.started

theorem known_completion (here : Known s run fun row => row.completion.isSome)
    (later : RowsLater s s') : Known s' run fun row => row.completion.isSome :=
  here.mono later fun _ _ after => after.isSome

theorem known_job {job : Nat} (here : Known s run fun row => row.jobId = job)
    (later : RowsLater s s') : Known s' run fun row => row.jobId = job :=
  here.mono later fun _ _ after same => after.job.trans same

theorem ExecutionOk.later (ok : ExecutionOk s e) (later : RowsLater s s') : ExecutionOk s' e :=
  { ok with
    started := fun won => known_started (ok.started won) later
    earned := fun success => known_completion (ok.earned success) later
    named := fun named => known_job (ok.named named) later }

theorem BodyOf.later (of : BodyOf s e b body) (later : RowsLater s s') : BodyOf s' e b body :=
  { of with
    saved := fun stored => known_completion (of.saved stored) later
    named := known_job of.named later }

theorem CronInv.grow (inv : CronInv host w) (grows : Grows w.store s') :
    CronInv host { w with store := s' } ∧ RowsLater w.store s' := by
  have later := grows.later inv.rows
  have before (id : Nat) (row' : CronRunRow) (found' : s'.runs.get id = some row') :
      ∃ row, w.store.runs.get id = some row ∧ row.Later row' ∧ RowOk row' := by
    cases found : w.store.runs.get id with
    | none => cases (grows.absent id found).symm.trans found'
    | some row =>
      obtain ⟨row'', found'', kept⟩ := grows.rows id row found
      cases found''.symm.trans found'
      obtain ⟨after, ok⟩ := kept (inv.rows id row found)
      exact ⟨row, rfl, after, ok⟩
  refine ⟨⟨fun id row' found' => ?_, fun id row' found' => ?_, fun i j row row' at_i at_j same => ?_,
    fun id row' found' => ?_, fun i call id here answer => ?_,
    fun i e here => (inv.calls i e here).later later, inv.exclusive, inv.winner,
    fun b body here => ?_, inv.owner⟩, later⟩
  · obtain ⟨-, -, -, ok⟩ := before id row' found'
    exact ok
  · obtain ⟨row, found, -⟩ := before id row' found'
    exact grows.workflows id (inv.workflows id row found)
  · obtain ⟨old, found, after, -⟩ := before i row at_i
    obtain ⟨old', found', after', -⟩ := before j row' at_j
    apply inv.requests i j old old' found found'
    exact after.request.symm.trans (same.trans after'.request)
  · obtain ⟨row, found, after, -⟩ := before id row' found'
    obtain ⟨call, here, key, params⟩ := inv.creator id row found
    exact ⟨call, here, after.request.trans key, after.params.trans params⟩
  · apply (inv.answered i call id here answer).mono later
    intro row row' after same
    exact ⟨after.request.trans same.1, after.params.trans same.2⟩
  · obtain ⟨e, at_e, of⟩ := inv.bodies b body here
    exact ⟨e, at_e, of.later later⟩

/-! ## Moving a call -/

/-- What a call may become, seen from the others: `e` stands for the call, `e'` for what it becomes. -/
structure Moves (w : CronWorld) (e e' : Execution) : Prop where
  run : e'.run = e.run
  process : e'.process = e.process
  body : e'.body = e.body
  job : e'.job = e.job ∨ e.body = none ∧ e.lock = false
  lock : e'.lock = true → e'.job = e.job ∧ (e.lock = true ∨ w.lockedOut e.job = false)
  held : ∀ b body, w.bodies[b]? = some body → e.body = some b → body.settled = false →
    e.lock = true → e.phase = .working ∨ body.reported = true →
    e'.lock = true ∧ (e'.phase = .working ∨ body.reported = true)
  kept : e.won = true → e'.won = true
  won : e'.won = true → e.won = true ∨ Known w.store e.run fun row => row.status = .queued

theorem getElem?_move {executions : List Execution} (here : executions[i]? = some e) (j : Nat) :
    (executions.set i e')[j]? = if j = i then some e' else executions[j]? := by
  split
  next same =>
    rw [same]
    exact List.getElem?_set_self (List.getElem?_eq_some_iff.mp here).1
  next differ => exact List.getElem?_set_ne (Ne.symm differ)

theorem of_getElem?_move {executions : List Execution} {j : Nat} {other : Execution}
    (here : executions[i]? = some e) (found : (executions.set i e')[j]? = some other) :
    (j = i ∧ other = e') ∨ (j ≠ i ∧ executions[j]? = some other) := by
  rw [getElem?_move here] at found
  split at found
  next same => exact .inl ⟨same, (some.inj found).symm⟩
  next differ => exact .inr ⟨differ, found⟩

theorem lockedOut_eq_false {job : Nat} (free : w.lockedOut job = false) {other : Execution}
    (mem : other ∈ w.executions) (lock : other.lock = true) : other.job ≠ job := by
  intro same
  unfold CronWorld.lockedOut at free
  have taken := List.any_eq_false.mp free other mem
  exact taken (decide_eq_true ⟨lock, same⟩)

theorem CronInv.unstarted (inv : CronInv host w) {j : Nat} {other : Execution}
    (at_j : w.executions[j]? = some other) (won : other.won = true) (same : other.run = run)
    (queued : Known w.store run fun row => row.status = .queued) : False := by
  obtain ⟨row, found, waiting⟩ := queued
  obtain ⟨row', found', started⟩ := (inv.calls j other at_j).started won
  rw [same] at found'
  cases found.symm.trans found'
  rw [(inv.rows run row found).queued waiting] at started
  cases started

theorem CronInv.move (inv : CronInv host w) (here : w.executions[i]? = some e) (moves : Moves w e e')
    (grows : Grows w.store s') (ok : ExecutionOk s' e') :
    CronInv host { w.move i e' with store := s' } := by
  have inv' := (inv.grow grows).1
  refine ⟨inv'.rows, inv'.workflows, inv'.requests, inv'.creator, inv'.answered, fun j other found => ?_,
    fun j k other other' at_j at_k lock lock' same => ?_,
    fun j k other other' at_j at_k won won' same => ?_, fun b body found => ?_,
    fun j b other found owns => ?_⟩
  · rcases of_getElem?_move here found with ⟨-, rfl⟩ | ⟨-, old⟩
    · exact ok
    · exact inv'.calls j other old
  · -- A lock that is new to the call was free.
    have apart {m : Nat} {third : Execution} (at_m : w.executions[m]? = some third) (differ : m ≠ i)
        (lock : e'.lock = true) (lock' : third.lock = true) : e'.job ≠ third.job := by
      intro same
      obtain ⟨job, held | free⟩ := moves.lock lock
      · exact differ (inv.exclusive m i third e at_m here lock' held (same.symm.trans job))
      · exact lockedOut_eq_false free (List.mem_of_getElem? at_m) lock' (same.symm.trans job)
    rcases of_getElem?_move here at_j with ⟨rfl, rfl⟩ | ⟨j_differs, old⟩
    · rcases of_getElem?_move here at_k with ⟨rfl, -⟩ | ⟨k_differs, old'⟩
      · rfl
      · exact absurd same (apart old' k_differs lock lock')
    · rcases of_getElem?_move here at_k with ⟨rfl, rfl⟩ | ⟨k_differs, old'⟩
      · exact absurd same.symm (apart old j_differs lock' lock)
      · exact inv.exclusive j k other other' old old' lock lock' same
  · have apart {m : Nat} {third : Execution} (at_m : w.executions[m]? = some third) (differ : m ≠ i)
        (won : e'.won = true) (won' : third.won = true) : e'.run ≠ third.run := by
      intro same
      rw [moves.run] at same
      rcases moves.won won with before | queued
      · exact differ (inv.winner m i third e at_m here won' before same.symm)
      · exact inv.unstarted at_m won' same.symm queued
    rcases of_getElem?_move here at_j with ⟨rfl, rfl⟩ | ⟨j_differs, old⟩
    · rcases of_getElem?_move here at_k with ⟨rfl, -⟩ | ⟨k_differs, old'⟩
      · rfl
      · exact absurd same (apart old' k_differs won won')
    · rcases of_getElem?_move here at_k with ⟨rfl, rfl⟩ | ⟨k_differs, old'⟩
      · exact absurd same.symm (apart old j_differs won' won)
      · exact inv.winner j k other other' old old' won won' same
  · obtain ⟨owner, at_owner, of⟩ := inv'.bodies b body found
    by_cases of_i : body.execution = i
    · rw [of_i] at at_owner
      cases here.symm.trans at_owner
      have job : e'.job = e.job := by
        rcases moves.job with same | ⟨none_there, -⟩
        · exact same
        · cases none_there.symm.trans of.owns
      refine ⟨e', ?_, moves.body.trans of.owns, moves.kept of.won, moves.run.trans of.run,
        job.trans of.job, moves.process.trans of.process, fun live => ?_, of.saved, of.named⟩
      · change (w.executions.set i e')[body.execution]? = some e'
        rw [getElem?_move here, if_pos of_i]
      · obtain ⟨lock, at_work⟩ := of.held live
        exact moves.held b body found of.owns live lock at_work
    · refine ⟨owner, ?_, of⟩
      change (w.executions.set i e')[body.execution]? = some owner
      rw [getElem?_move here, if_neg of_i]
      exact at_owner
  · rcases of_getElem?_move here found with ⟨rfl, rfl⟩ | ⟨-, old⟩
    · exact inv.owner j b e here (moves.body.symm.trans owns)
    · exact inv.owner j b other old owns

theorem sound_move (here : w.executions[i]? = some e) (grows : CronInv host w → Grows w.store s')
    (step : CronInv host w → ExecutionOk w.store e → RowsLater w.store s' →
      Moves w e e' ∧ ExecutionOk s' e') :
    CronSound host w { w.move i e' with store := s' } := by
  intro inv
  have later := (grows inv).later inv.rows
  obtain ⟨moves, ok⟩ := step inv (inv.calls i e here) later
  exact ⟨inv.move here moves (grows inv) ok, later⟩

theorem moves_phase {phase : Phase} (left : e.phase ≠ .working) : Moves w e { e with phase } where
  run := rfl
  process := rfl
  body := rfl
  job := .inl rfl
  lock := fun lock => ⟨rfl, .inl lock⟩
  held := fun _ _ _ _ _ lock at_work => ⟨lock, .inr (at_work.resolve_left left)⟩
  kept := fun won => won
  won := fun won => .inl won

/-- The phases of which only the status that they write is known. -/
def Phase.late (phase : Phase) : Prop :=
  phase.early = false ∧ phase.outside = false ∧ phase.inside = false ∧ phase.within = false ∧
    phase.named = false

theorem ExecutionOk.late {phase : Phase} (ok : ExecutionOk s e) (late : phase.late)
    (earned : phase.status = some .success → Known s e.run fun row => row.completion.isSome) :
    ExecutionOk s { e with phase } := by
  obtain ⟨early, outside, inside, within, named⟩ := late
  refine ⟨fun absurd => ?_, fun absurd => ?_, fun absurd => ?_, fun absurd => ?_, ok.started, earned,
    fun absurd => ?_⟩
  · cases early.symm.trans absurd
  · cases outside.symm.trans absurd
  · cases inside.symm.trans absurd
  · cases within.symm.trans absurd
  · cases named.symm.trans absurd

theorem sound_late {phase : Phase} (here : w.executions[i]? = some e) (left : e.phase ≠ .working)
    (late : phase.late)
    (earned : CronInv host w → phase.status = some .success →
      Known w.store e.run fun row => row.completion.isSome) :
    CronSound host w (w.move i { e with phase }) :=
  sound_move here (fun _ => grows_refl w.store) fun inv ok _ => ⟨moves_phase left,
    ok.late late (earned inv)⟩

theorem sound_finishes {status : FinishStatus} {errorCode : Option String} {commit : Commit}
    {next otherwise : Phase} (here : w.executions[i]? = some e) (left : e.phase ≠ .working)
    (earned : CronInv host w → status.1 = .success →
      Known w.store e.run fun row => row.completion.isSome)
    (late : next.late ∧ next.status = none) (late' : otherwise.late ∧ otherwise.status = none) :
    CronSound host w (w.finishes i e status errorCode commit next otherwise) := by
  unfold CronWorld.finishes finished
  dsimp only
  refine sound_move here (fun inv => ?_) fun inv ok later => ⟨moves_phase left, ?_⟩
  · split
    · exact grows_refl w.store
    · apply grows_finish
      intro success row found
      obtain ⟨row', found', stored⟩ := earned inv success
      cases found.symm.trans found'
      exact stored
  · have silent (phase : Phase) (late : phase.late ∧ phase.status = none) :=
      (ok.later later).late late.1 fun absurd => by cases late.2.symm.trans absurd
    apply silent
    split
    · exact late
    · exact late'

theorem start_affected (affected : (start s run).2 = true) :
    (Known s run fun row => row.status = .queued) ∧
      Known (start s run).1 run fun row => row.started = true := by
  unfold start at affected ⊢
  obtain ⟨row, found, passes⟩ := Table.affected_iff.mp (of_decide_eq_true affected)
  dsimp only
  rw [Table.updateWhere_of_pass found passes]
  exact ⟨⟨row, found, of_decide_eq_true passes⟩, _, Table.get_put_self, rfl⟩

theorem sound_starts {commit : Commit} {next : Phase} {message : String} (here : w.executions[i]? = some e)
    (left : e.phase ≠ .working)
    (follows : ∀ s', ExecutionOk w.store e → (Known s' e.run fun row => row.started = true) →
      RowsLater w.store s' → ExecutionOk s' { e with won := true, phase := next }) :
    CronSound host w (w.starts i e commit next message) := by
  unfold CronWorld.starts
  split
  · exact sound_late here left ⟨rfl, rfl, rfl, rfl, rfl⟩ fun _ => nofun
  · dsimp only
    refine sound_move here (fun _ => grows_start) fun inv ok later => ⟨?_, ?_⟩
    · refine { moves_phase left with kept := fun won => ?_, won := fun won => ?_ }
      · dsimp only
        rw [won]
        rfl
      · rcases Bool.or_eq_true_iff.mp won with before | affected
        · exact .inl before
        · exact .inr (start_affected affected).1
    · have kept := ok.later later
      have started : (e.won || (start w.store e.run).2) = true →
          Known (start w.store e.run).1 e.run fun row => row.started = true := by
        intro won
        rcases Bool.or_eq_true_iff.mp won with before | affected
        · exact kept.started before
        · exact (start_affected affected).2
      have back (phase : Phase) (late : phase.late) (silent : phase.status = none) :
          ExecutionOk (start w.store e.run).1
            { e with won := e.won || (start w.store e.run).2, phase } := by
        have raised : ExecutionOk (start w.store e.run).1 { e with
            won := e.won || (start w.store e.run).2 } :=
          { kept with
            within := fun within => by
              dsimp only
              rw [kept.within within]
              rfl
            started }
        exact raised.late late fun absurd => by cases silent.symm.trans absurd
      split
      · exact back _ ⟨rfl, rfl, rfl, rfl, rfl⟩ rfl
      · split
        next affected =>
          rw [affected, Bool.or_true]
          exact follows _ ok (start_affected affected).2 later
        next => exact back _ ⟨rfl, rfl, rfl, rfl, rfl⟩ rfl

/-! ## Bodies -/

theorem CronInv.setBody {body' : JobBody} (inv : CronInv host w) (here : w.bodies[b]? = some body)
    (execution : body'.execution = body.execution) (run : body'.run = body.run)
    (job : body'.job = body.job) (process : body'.process = body.process)
    (live : body'.settled = false → body.settled = false)
    (reported : body.reported = true → body'.reported = true) (grows : Grows w.store s')
    (saved : body'.completion.isSome → Known s' body.run fun row => row.completion.isSome) :
    CronInv host { w with store := s', bodies := w.bodies.set b body' } := by
  have inv' := (inv.grow grows).1
  refine ⟨inv'.rows, inv'.workflows, inv'.requests, inv'.creator, inv'.answered, inv'.calls,
    inv'.exclusive, inv'.winner, fun c other found => ?_, fun i c e at_i owns => ?_⟩
  rotate_left
  · obtain ⟨old, at_c, of_i⟩ := inv.owner i c e at_i owns
    by_cases same : c = b
    · subst same
      cases here.symm.trans at_c
      exact ⟨body', List.getElem?_set_self (List.getElem?_eq_some_iff.mp here).1,
        execution.trans of_i⟩
    · exact ⟨old, (List.getElem?_set_ne (Ne.symm same)).trans at_c, of_i⟩
  by_cases same : c = b
  · subst same
    obtain ⟨e, at_e, of⟩ := inv'.bodies c body here
    dsimp only at found
    rw [List.getElem?_set_self (List.getElem?_eq_some_iff.mp here).1] at found
    cases found
    refine ⟨e, execution ▸ at_e, of.owns, of.won, of.run.trans run.symm, of.job.trans job.symm,
      of.process.trans process.symm, fun unsettled => ?_, fun stored => run ▸ saved stored,
      run ▸ job ▸ of.named⟩
    obtain ⟨lock, at_work⟩ := of.held (live unsettled)
    exact ⟨lock, at_work.imp_right reported⟩
  · dsimp only at found
    rw [List.getElem?_set_ne (Ne.symm same)] at found
    exact inv'.bodies c other found

theorem sound_setBody {body' : JobBody} (here : w.bodies[b]? = some body)
    (execution : body'.execution = body.execution) (run : body'.run = body.run)
    (job : body'.job = body.job) (process : body'.process = body.process)
    (live : body'.settled = false → body.settled = false)
    (reported : body.reported = true → body'.reported = true) (grows : Grows w.store s')
    (saved : RowsLater w.store s' → CronInv host w → body'.completion.isSome →
      Known s' body.run fun row => row.completion.isSome) :
    CronSound host w { w with store := s', bodies := w.bodies.set b body' } := by
  intro inv
  have later := grows.later inv.rows
  exact ⟨inv.setBody here execution run job process live reported grows (saved later inv), later⟩

theorem CronInv.bodyOf (inv : CronInv host w) (here : w.executions[i]? = some e)
    (owns : e.body = some b) (at_b : w.bodies[b]? = some body) : BodyOf w.store e b body := by
  obtain ⟨body', at_b', of_i⟩ := inv.owner i b e here owns
  cases at_b.symm.trans at_b'
  obtain ⟨owner, at_owner, of⟩ := inv.bodies b body at_b
  rw [of_i] at at_owner
  cases here.symm.trans at_owner
  exact of

theorem report_late (completion : Option CronCompletion) (failed : Bool) (error : String) :
    (report completion failed error).late := by
  cases completion <;> exact ⟨rfl, rfl, rfl, rfl, rfl⟩

theorem completion_of_report {completion : Option CronCompletion} {failed : Bool} {error : String}
    (success : (report completion failed error).status = some .success) : completion.isSome := by
  cases completion with
  | none => cases failed <;> cases success
  | some completion => rfl

theorem sound_leave {phase : Phase} (here : w.executions[i]? = some e) (owns : e.body = some b)
    (at_b : w.bodies[b]? = some body) (apart : body.settled = true ∨ body.reported = true)
    (late : phase.late)
    (earned : CronInv host w → phase.status = some .success →
      Known w.store e.run fun row => row.completion.isSome) :
    CronSound host w (w.move i { e with phase }) := by
  refine sound_move here (fun _ => grows_refl w.store) fun inv ok _ => ⟨?_, ok.late late (earned inv)⟩
  refine ⟨rfl, rfl, rfl, .inl rfl, fun lock => ⟨rfl, .inl lock⟩, fun c other at_c owns' live lock _ => ?_,
    fun won => won, fun won => .inl won⟩
  cases owns.symm.trans owns'
  cases at_b.symm.trans at_c
  refine ⟨lock, .inr (apart.resolve_left fun settled => ?_)⟩
  cases settled.symm.trans live

theorem sound_works {outcome : Outcome} {message : String} (here : w.executions[i]? = some e)
    (owns : e.body = some b) (at_b : w.bodies[b]? = some body) :
    CronSound host w (w.works i e b body outcome message) := by
  unfold CronWorld.works
  split
  next kind =>
    have set := @sound_setBody host w w.store b body { body with reported := true } at_b rfl rfl rfl rfl
      (fun live => live) (fun _ => rfl) (grows_refl w.store) fun _ inv stored => by
        obtain ⟨owner, -, of⟩ := inv.bodies b body at_b
        exact of.saved stored
    have at_b' : (w.bodies.set b { body with reported := true })[b]? =
        some { body with reported := true } :=
      List.getElem?_set_self (List.getElem?_eq_some_iff.mp at_b).1
    apply trans_of (CronSound host) set
    apply @sound_leave host ⟨w.store, w.enqueues, w.executions, w.bodies.set b { body with
      reported := true }⟩ e i b { body with reported := true } _ here owns at_b' (.inr rfl)
    · split
      · exact report_late _ _ _
      · exact ⟨rfl, rfl, rfl, rfl, rfl⟩
    · intro inv success
      have of := inv.bodyOf here owns at_b'
      split at success
      · rw [of.run]
        exact of.saved (completion_of_report success)
      · cases success
  next kind =>
    split
    · exact refl_of (CronSound host) w
    next settled =>
      have past : body.settled = true := not_not.mp settled
      split
      · exact sound_leave here owns at_b (.inl past) ⟨rfl, rfl, rfl, rfl, rfl⟩ fun _ => nofun
      · exact sound_leave here owns at_b (.inl past) (report_late none false "") fun _ => nofun
      · exact sound_leave here owns at_b (.inl past) ⟨rfl, rfl, rfl, rfl, rfl⟩ fun _ => nofun

end Slide.Cron
