import Slide.Workflows.DeliveryStore

/-!
# Delivery handlers

The handler that `registerNotificationHandlers` registers, from one await point to the next, for any number
of jobs at once, with the queue, the operators and the clock between them.  A handler may stop anywhere, its
lease may expire while it goes on, and a commit may take effect without its caller learning of it.
-/

namespace Slide.Deliveries

open Transaction

/-- Where a handler stands. -/
inductive Phase
  | snapshotting
  /-- A frozen request was found: its channel is to be enabled still. -/
  | enabling (request : DeliveryRequest)
  | preparing
  /-- The preparation has failed. -/
  | unprepared
  /-- `acquire`, begun at a reading of the clock of the process. -/
  | acquiring (request : Option DeliveryRequest) (started : Int)
  /-- The attempt is granted: the publication gate and the maintenance check come first. -/
  | gating (claim : DeliveryClaim)
  /-- `transportStarted`: `send` is called, which resolves its target first. -/
  | transporting (claim : DeliveryClaim)
  /-- The transport has been invoked. -/
  | awaiting (claim : DeliveryClaim)
  /-- `finish`, with what `transportStarted` says and whether its failure is caught. -/
  | finishing (claim : DeliveryClaim) (started : Bool) (state : Slide.Workflows.DeliveryState)
      (error : Option String) (caught : Bool)

structure Task where
  job : ClaimedJob
  /-- What the clock of the process is ahead of the database by. -/
  skew : Int
  phase : Phase

structure World where
  db : Db
  task : Nat → Option Task

/-- What the publication gate and the maintenance check make of an attempt. -/
inductive Gate
  | publish | stale | suppressed | unavailable

/-- What a handler meets at an await point. -/
inductive Move
  | look
  | enabled (yes : Bool)
  /-- The request that was prepared, or none where there is nothing to send, or a failure. -/
  | prepared (request : Option (Option DeliveryRequest))
  | transact (commit : Commit)
  | gate (gate : Gate)
  /-- `send` invokes the transport, or gives up before. -/
  | send (invokes : Bool)
  | answer (success : Bool)

inductive Event
  | tick (milliseconds : Nat)
  /-- The queue inserts a job, or rewrites its row. -/
  | queue (id : String) (row : Job)
  /-- A process begins to handle a job that it has claimed. -/
  | start (p : Nat) (id workerId : String) (skew : Int)
  | move (p : Nat) (move : Move)
  /-- A handler stops. -/
  | stop (p : Nat)
  | replay (jobId : String) (actorId : Nat) (reason : String) (authority : Authority) (commit : Commit)
  | recover (jobId : String) (actorId : Nat) (input : RecoverInput) (authority : Authority) (commit : Commit)

namespace World

/-- A handler is at its next await point, or has returned or thrown. -/
def goto (w : World) (p : Nat) (t : Task) (phase : Option Phase) : World :=
  { w with task := Function.update w.task p (phase.map fun phase => { t with phase }) }

/-- A transaction of a handler. -/
def transact {α : Type} (w : World) (p : Nat) (t : Task) (body : Tx α) (commit : Commit)
    (next : Option α → Option Phase) : World :=
  let done := perform body commit w.db
  { w with db := done.2 }.goto p t (next done.1)

/-- `Date.now()`. -/
def clock (w : World) (t : Task) : Int := w.db.now + t.skew

def uncertainCode : String := "DELIVERY_OUTCOME_UNCERTAIN"

def unavailableCode : String := "ROLLOUT_ALERT_FENCE_UNAVAILABLE"

/-- The `catch` of the handler. -/
def caughtPhase (claim : DeliveryClaim) (started : Bool) : Phase :=
  if started then .finishing claim true .unknown (some uncertainCode) false
  else .finishing claim false .retryable (some unavailableCode) false

/-- What follows the publication gate. -/
def gated (claim : DeliveryClaim) : Gate → Phase
  | .publish => .transporting claim
  | .stale => .finishing claim false .skipped (some "ROLLOUT_ALERT_STALE") true
  | .suppressed => .finishing claim false .skipped (some "MAINTENANCE_SUPPRESSED") false
  | .unavailable => caughtPhase claim false

/-- A handler goes on; a move that is out of place changes nothing. -/
def advance (w : World) (p : Nat) (t : Task) : Move → World
  | .look =>
    match t.phase with
    | .snapshotting =>
      match (w.db.states.get t.job.identity.key).bind (·.request) with
      | some request => w.goto p t (some (.enabling request))
      | none => w.goto p t (some .preparing)
    | _ => w
  | .enabled yes =>
    match t.phase with
    | .enabling request => w.goto p t (if yes then some (.acquiring (some request) (w.clock t)) else none)
    | _ => w
  | .prepared result =>
    match t.phase with
    | .preparing =>
      match result with
      | some request => w.goto p t (some (.acquiring request (w.clock t)))
      | none => w.goto p t (some .unprepared)
    | _ => w
  | .transact commit =>
    match t.phase with
    | .unprepared => w.transact p t (preflightFailed t.job) commit fun _ => none
    | .acquiring request started =>
      w.transact p t (acquire t.job request started) commit fun
        | some (.claim claim) => some (.gating claim)
        | _ => none
    | .finishing claim started state error caught =>
      w.transact p t (finish t.job claim state error) commit fun
        | some _ => none
        | none => if caught then some (caughtPhase claim started) else none
    | _ => w
  | .gate gate =>
    match t.phase with
    | .gating claim => w.goto p t (some (gated claim gate))
    | _ => w
  | .send invokes =>
    match t.phase with
    | .transporting claim =>
      if invokes && claim.retryDeadline.all (fun deadline => w.clock t < deadline) then
        { w with db := w.db.note (.invoked claim.key claim.attemptId claim.request w.db.now) }.goto p t
          (some (.awaiting claim))
      else w.goto p t (some (caughtPhase claim true))
    | _ => w
  | .answer success =>
    match t.phase with
    | .awaiting claim =>
      w.goto p t (some (if success then .finishing claim true .sent none true else caughtPhase claim true))
    | _ => w

def step (w : World) : Event → World
  | .tick milliseconds => { w with db := { w.db with now := w.db.now + milliseconds } }
  | .queue id row => { w with db := { w.db with jobs := w.db.jobs.put id row } }
  | .start p id workerId skew =>
    match w.task p, w.db.jobs.get id with
    | none, some job =>
      match deliveryIdentity job.type job.payload with
      | some identity =>
        if job.state = .running ∧ job.leaseOwner = some workerId then
          w.goto p ⟨⟨id, job.fencingToken, workerId, identity⟩, skew, .snapshotting⟩ (some .snapshotting)
        else w
      | none => w
    | _, _ => w
  | .move p move =>
    match w.task p with
    | some t => w.advance p t move
    | none => w
  | .stop p => { w with task := Function.update w.task p none }
  | .replay jobId actorId reason authority commit =>
    { w with db := (perform (replay jobId actorId reason authority) commit w.db).2 }
  | .recover jobId actorId input authority commit =>
    { w with db := (perform (recover jobId actorId input authority) commit w.db).2 }

end World

/-- The attempts and the records that older versions have left. -/
structure History where
  attempts : List Attempt
  records : List (Nat × Nat)

def initial (history : History) : World :=
  ⟨⟨0, Table.empty, Table.empty, history.attempts, history.records, [], 0, []⟩, fun _ => none⟩

def reached (history : History) (events : List Event) : World := events.foldl World.step (initial history)

end Slide.Deliveries
