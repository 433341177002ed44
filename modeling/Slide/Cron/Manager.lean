import Slide.Cron.RunStore

/-!
# Executing the runs of cron jobs

An `executeRun` takes the named lock of its job, starts the run and performs the job.  An agent may go on
after its timeout was reported: then the process keeps the flag of the job until it has settled, and the
lock is released only after that.  A call stands at the statement that it awaits next, and the answer of
what it awaits comes with the event that moves it on.
-/

namespace Slide.Cron

open Display Transaction

/-- `performJob` awaits a script and a typed handler; an agent reports, and may settle later. -/
inductive BodyKind
  | agent
  | awaited
deriving DecidableEq

/-- A job body that was started.  `reported` is set once its settlement is in `pendingSettlements`, and
`completion` is what its agent knows to be saved. -/
structure JobBody where
  (execution process run job : Nat)
  kind : BodyKind
  (settled reported : Bool)
  completion : Option CronCompletion

/-- The statement that a call awaits next: of `executeRun` up to `entering`, of `performJob` up to
`closing`, and of the `catch` and the `finally` of `executeRun`. -/
inductive Phase
  | called
  | found
  | locked
  | busy
  | starting
  | ending (status : FinishStatus) (errorCode : String)
  | entering
  | preparing
  | working
  | saving (completion : CronCompletion)
  | reporting (status : FinishStatus) (errorCode : Option String) (followed : Bool)
  | reported
  | failing (error : String)
  | closing (threw : Option String)
  | rethrown (error : String)
  | leaving
  | gone

/-- A call of `executeRun`; the job is known once the run was found.  `lock` says that its connection holds
the named lock of the job, `won` that its `start` took effect. -/
structure Execution where
  (process run job : Nat)
  (lock won : Bool)
  body : Option Nat
  phase : Phase

structure EnqueueCall where
  triggeredBy : Option Nat
  jobId : Nat
  key : String
  params : Json
  answer : Option Nat

/-- The tables and the calls of all processes; the id that an `enqueue` draws is its place. -/
structure CronWorld where
  store : CronStore
  enqueues : List EnqueueCall
  executions : List Execution
  bodies : List JobBody

def CronWorld.start : CronWorld := ⟨⟨.empty, .empty⟩, [], [], []⟩

/-- What a call has awaited came to: a statement with its commit, the configuration of the job, a body
that was reached, or what a body has returned. -/
inductive Outcome
  | statement (commit : Commit)
  | proceed
  | deleted
  | disabled
  | body (kind : BodyKind)
  | returned (completion : Option CronCompletion) (failed : Bool)
  | threw

/-- The commit of a statement; one that threw had no effect. -/
def Outcome.commit : Outcome → Commit
  | .statement commit => commit
  | _ => .refused

inductive CronEvent
  | enqueue (triggeredBy : Option Nat) (jobId : Nat) (key : String) (params : Json)
      (outputSchema : Option Json) (commit : Commit)
  | lease (run : Nat) (owned : Bool)
  | recover
  | saveCompletion (run : Nat) (completion : CronCompletion) (commit : Commit)
  | execute (process run : Nat)
  | go (execution : Nat) (outcome : Outcome) (message : String)
  | complete (body : Nat) (completion : CronCompletion) (commit : Commit)
  | settle (body : Nat)
  | stop (process : Nat)

/-- The settlement of the body is in `pendingSettlements`. -/
def JobBody.pending (body : JobBody) : Bool := body.reported ∧ ¬ body.settled

/-- `performJob` is under way. -/
def Phase.performing : Phase → Bool
  | .preparing | .working | .saving _ | .reporting .. | .reported | .failing _ | .closing _ => true
  | _ => false

variable (host : CronHost) (w : CronWorld)

/-- `pendingSettlements.has`. -/
def CronWorld.unsettled (process job : Nat) : Bool :=
  w.bodies.any fun body => body.process = process ∧ body.job = job ∧ body.pending

/-- `runningFlags.has`: a `performJob` is under way, or has left an agent that has not settled. -/
def CronWorld.flagged (process job : Nat) : Bool :=
  w.unsettled process job ∨
    w.executions.any fun e => e.process = process ∧ e.job = job ∧ e.phase.performing

/-- Another connection holds the named lock of the job. -/
def CronWorld.lockedOut (job : Nat) : Bool :=
  w.executions.any fun e => e.lock ∧ e.job = job

variable (i : Nat) (e : Execution)

def CronWorld.move : CronWorld :=
  { w with executions := w.executions.set i e }

/-- A statement that sets the status of a run: the store after it, and whether it came back. -/
def finished (store : CronStore) (e : Execution) (status : FinishStatus) (errorCode : Option String)
    (commit : Commit) : CronStore × Bool :=
  (if commit = .refused then store else finish store e.run status errorCode, commit = .done)

/-- What follows a body: its run is finished as its completion says, or without one. -/
def report (completion : Option CronCompletion) (failed : Bool) (error : String) : Phase :=
  match completion with
  | some completion => .reporting completion.finishStatus none true
  | none =>
    .reporting (if failed then ⟨.failed, nofun, nofun⟩ else ⟨.unknown, nofun, nofun⟩)
      (some (if error = "" then "CRON_COMPLETION_MISSING" else error)) true

/-- `start` of a run, with the phase that follows when it took effect. -/
def CronWorld.starts (commit : Commit) (next : Phase)
    (message : String) : CronWorld :=
  if commit = .refused then w.move i { e with phase := .rethrown message }
  else
    let (store, affected) := Cron.start w.store e.run
    let phase := if commit ≠ .done then .rethrown message else if affected then next else .leaving
    { w.move i { e with won := e.won || affected, phase } with store }

/-- `finish` of a run, with the phases that follow. -/
def CronWorld.finishes (status : FinishStatus)
    (errorCode : Option String) (commit : Commit) (next otherwise : Phase) : CronWorld :=
  let (store, back) := finished w.store e status errorCode commit
  { w.move i { e with phase := if back then next else otherwise } with store }

/-- The body of a job is there, and `performJob` goes on. -/
def CronWorld.works (b : Nat) (body : JobBody)
    (outcome : Outcome) (message : String) : CronWorld :=
  match body.kind with
  | .agent =>
    { w.move i { e with
        phase := match outcome with
          | .returned _ failed => report body.completion failed message
          | _ => .failing message } with
      bodies := w.bodies.set b { body with reported := true } }
  | .awaited =>
    if ¬ body.settled then w
    else match outcome with
      | .returned (some completion) _ => w.move i { e with phase := .saving completion }
      | .returned none _ => w.move i { e with phase := report none false "" }
      | _ => w.move i { e with phase := .failing message }

/-- The next statement of an `executeRun`; `message` is the text of the error, where it throws one. -/
def CronWorld.go (outcome : Outcome)
    (message : String) : CronWorld :=
  match e.phase with
  | .called =>
    match w.store.runs.get e.run with
    | some row =>
      if row.status = .queued then w.move i { e with job := row.jobId, phase := .found }
      else w.move i { e with phase := .gone }
    | none => w.move i { e with phase := .gone }
  | .found =>
    w.move i { e with
      lock := ¬ w.lockedOut e.job
      phase := match outcome with
        | .threw => .rethrown message
        | _ => .locked }
  | .locked =>
    w.move i { e with phase := if ¬ e.lock ∨ w.flagged e.process e.job then .busy else .starting }
  | .busy => w.starts i e outcome.commit (.ending ⟨.cancelled, nofun, nofun⟩ "CRON_JOB_BUSY")
      message
  | .starting => w.starts i e outcome.commit .entering message
  | .ending status errorCode =>
    w.finishes i e status (some errorCode) outcome.commit .leaving (.rethrown message)
  | .entering =>
    match outcome with
    | .proceed =>
      w.move i { e with phase := if w.flagged e.process e.job then .leaving else .preparing }
    | .deleted =>
      w.move i { e with phase := .ending ⟨.failed, nofun, nofun⟩ "CRON_JOB_DELETED" }
    | _ => w.move i { e with phase := .rethrown message }
  | .preparing =>
    match outcome with
    | .body kind =>
      { w.move i { e with body := some w.bodies.length, phase := .working } with
        bodies := w.bodies ++ [⟨i, e.process, e.run, e.job, kind, false, false, none⟩] }
    | .disabled =>
      w.move i { e with
        phase := .reporting ⟨.cancelled, nofun, nofun⟩ (some "CRON_JOB_DISABLED") false }
    | _ => w.move i { e with phase := .failing message }
  | .working =>
    match e.body with
    | some b =>
      match w.bodies[b]? with
      | some body => w.works i e b body outcome message
      | none => w
    | none => w
  | .saving completion =>
    let (answer, store) := perform (saveCompletion host e.run completion) outcome.commit w.store
    let phase := if answer.isSome then report (some completion) false "" else .failing message
    { w.move i { e with phase } with store }
  | .reporting status errorCode followed =>
    w.finishes i e status errorCode outcome.commit (if followed then .reported else .closing none)
      (.failing message)
  | .reported =>
    match outcome with
    | .proceed => w.move i { e with phase := .closing none }
    | _ => w.move i { e with phase := .failing message }
  | .failing error =>
    -- The error of a run that somebody has triggered is thrown on.
    let triggered := (w.store.runs.get e.run).any fun row => row.triggeredBy.isSome
    w.finishes i e ⟨.failed, nofun, nofun⟩ (some error) outcome.commit
      (.closing (if triggered then some error else none)) (.closing (some message))
  | .closing threw =>
    w.move i { e with
      phase := match threw with
        | some error => .rethrown error
        | none => .leaving }
  | .rethrown error =>
    w.finishes i e ⟨.failed, nofun, nofun⟩ (some error) outcome.commit .leaving .leaving
  | .leaving =>
    if w.unsettled e.process e.job then w
    else w.move i { e with lock := false, phase := .gone }
  | .gone => w

/-- The tool `slide_complete_cron` of an agent that is still there. -/
def CronWorld.completes (b : Nat) (body : JobBody)
    (completion : CronCompletion) (commit : Commit) : CronWorld :=
  let (answer, store) := perform (saveCompletion host body.run completion) commit w.store
  let completion := if answer.isSome then some completion else body.completion
  { w with store, bodies := w.bodies.set b { body with completion } }

def CronWorld.step : CronEvent → CronWorld
  | .enqueue triggeredBy jobId key params outputSchema commit =>
    let (answer, store) := perform (enqueue host w.enqueues.length triggeredBy jobId key params
      outputSchema) commit w.store
    { w with store, enqueues := w.enqueues ++ [⟨triggeredBy, jobId, key, params, answer⟩] }
  | .lease run owned =>
    match w.store.workflows.get run with
    | some _ => { w with store := { w.store with workflows := w.store.workflows.put run owned } }
    | none => w
  | .recover => { w with store := recover w.store }
  | .saveCompletion run completion commit =>
    { w with store := (perform (saveCompletion host run completion) commit w.store).2 }
  | .execute process run =>
    { w with executions := w.executions ++ [⟨process, run, 0, false, false, none, .called⟩] }
  | .go i outcome message =>
    match w.executions[i]? with
    | some e => w.go host i e outcome message
    | none => w
  | .complete b completion commit =>
    match w.bodies[b]? with
    | some body =>
      if body.kind = .agent ∧ ¬ body.settled then w.completes host b body completion commit else w
    | none => w
  | .settle b =>
    match w.bodies[b]? with
    | some body => { w with bodies := w.bodies.set b { body with settled := true } }
    | none => w
  | .stop process =>
    { w with
      executions := w.executions.map fun e =>
        if e.process = process then { e with lock := false, phase := .gone } else e
      bodies := w.bodies.map fun body =>
        if body.process = process then { body with settled := true } else body }

def runCron (events : List CronEvent) : CronWorld :=
  events.foldl (CronWorld.step host) .start

end Slide.Cron
