import Slide.Actions.Executions

/-!
# Callers and workers of action executions

Each task is a call of `enqueue`, `run` or `reconcile` that stands between two of its transactions, or
between a transaction and a call of the adapter.  A task may stop anywhere.  The log has the admissions
that were committed and the calls of `adapter.execute`, in their order.
-/

namespace Slide.Actions.Dispatch

open Transaction

/-- Where a task stands. -/
inductive Phase
  | idle
  /-- `enqueue`: the key has no execution, or the transaction has failed. -/
  | enqueuing (actor : ActorContext) (command : ExecuteCommand)
  | relooking (actor : ActorContext) (command : ExecuteCommand)
  /-- `run` with its lease, its plan and its invocation. -/
  | claimed (lease : ExecutionLease)
  | prechecked (lease : ExecutionLease) (plan : ActionPlanVersion)
  | ready (lease : ExecutionLease) (plan : ActionPlanVersion)
  | failing (lease : ExecutionLease)
  | invoking (lease : ExecutionLease) (plan : ActionPlanVersion) (invocation : ActionInvocation)
  | executing (lease : ExecutionLease) (plan : ActionPlanVersion)
  | finishing (lease : ExecutionLease) (receipt : ActionReceipt)
  | uncertain (lease : ExecutionLease)
  /-- `reconcile`: an execution to read the receipt of, its plan, its receipt. -/
  | reconciling (e : ExecutionRecord)
  | inquiring (e : ExecutionRecord) (plan : ActionPlanVersion)
  | reconciled (e : ExecutionRecord) (receipt : ActionReceipt)

/-- A committed admission with the tables and the time it was made at, or a call of `adapter.execute`. -/
inductive Entry
  | admitted (id : String) (tables : Tables) (at_ : Nat)
  | called (invocation : ActionInvocation)

structure World where
  now : Nat
  tables : Tables
  task : Nat → Phase
  log : List Entry
  /-- The operations whose remote effect is final. -/
  final : List String

/-- What happens next; a transaction comes with its environment and its commit. -/
inductive Event
  | tick
  | create (env : Env) (id : String) (content : PlanContent) (commit : Commit)
  | revise (env : Env) (planId : String) (expectedVersion : Nat) (content : PlanContent) (commit : Commit)
  | submit (env : Env) (caller : ActorContext) (planId : String) (expectedVersion approvalId : Nat)
      (commit : Commit)
  | review (env : Env) (caller : ActorContext) (planId : String) (expectedVersion approvalId : Nat)
      (approve : Bool) (commit : Commit)
  | lookup (p : Nat) (env : Env) (actor : ActorContext) (command : ExecuteCommand) (commit : Commit)
  | enqueue (p : Nat) (env : Env) (id : String) (commit : Commit)
  | relook (p : Nat) (env : Env) (commit : Commit)
  | claim (p : Nat) (id owner : String) (seconds : Nat) (commit : Commit)
  | precheck (p : Nat) (env : Env) (commit : Commit)
  | preflight (p : Nat) (passes : Bool)
  | sendRun (p : Nat) (env : Env) (commit : Commit)
  | execute (p : Nat)
  /-- `adapter.execute` throws, or returns what may be a receipt. -/
  | answer (p : Nat) (value : Option ActionReceipt)
  | finish (p : Nat) (commit : Commit)
  | unknown (p : Nat) (commit : Commit)
  | failBeforeSend (p : Nat) (commit : Commit)
  | recover (limit : Nat) (commit : Commit)
  | cancel (env : Env) (id : String) (commit : Commit)
  | reconcile (p : Nat) (env : Env) (id : String) (commit : Commit)
  | history (p : Nat) (commit : Commit)
  | receipt (p : Nat) (value : Option ActionReceipt)
  | settle (p : Nat) (env : Env) (commit : Commit)
  /-- A task stops. -/
  | stop (p : Nat)
  /-- The remote effect of an operation becomes final. -/
  | finalize (operationId : String)

/-- A receipt that says what has become of an operation. -/
def ReceiptOutcome.decisive : ReceiptOutcome → Bool
  | .outcomeUnknown => false
  | _ => true

namespace World

def goto (w : World) (p : Nat) (phase : Phase) : World := { w with task := Function.update w.task p phase }

/-- A transaction of no task. -/
def commit {α : Type} (w : World) (body : Tx α) (commit : Commit) : World :=
  { w with tables := (perform body commit w.tables).2 }

/-- A transaction of a task, which goes on with its result or without one. -/
def continue_ {α : Type} (w : World) (p : Nat) (body : Tx α) (commit : Commit) (next : Option α → Phase) :
    World :=
  (w.commit body commit).goto p (next (perform body commit w.tables).1)

/-- A receipt with a decisive outcome is only reported for an operation whose effect is final. -/
def reports (w : World) (value : Option ActionReceipt) : Bool :=
  value.all fun r => !r.outcome.decisive || r.operationId ∈ w.final

/-- The admission that a transaction has committed, whether its caller knows or not. -/
def admission (host : Host) (env : Env) (w : World) (lease : ExecutionLease) (commit : Commit) : List Entry :=
  match sendRun host env w.now lease w.tables with
  | .ok (some invocation, _) =>
    if commit = .refused then [] else [.admitted invocation.executionId w.tables w.now]
  | _ => []

end World

variable (host : Host)

/-- The hash that `enqueue` computes. -/
def payloadHash (actor : ActorContext) (command : ExecuteCommand) : String :=
  host.commandHash command actor.principalKind

/-- One step, when the task stands where it takes place. -/
def after (w : World) : Event → Option World
  | .tick => some { w with now := w.now + 1 }
  | .create env id content commit => some (w.commit (create host env w.now id content) commit)
  | .revise env planId expectedVersion content commit =>
    some (w.commit (revise host env w.now planId expectedVersion content) commit)
  | .submit env caller planId expectedVersion approvalId commit =>
    some (w.commit (submit host env w.now caller planId expectedVersion approvalId) commit)
  | .review env caller planId expectedVersion approvalId approve commit =>
    some (w.commit (review host env w.now caller planId expectedVersion approvalId approve) commit)
  | .lookup p env actor command commit =>
    match w.task p with
    | .idle =>
      some (w.continue_ p (existing env actor.userId command.requestKey (payloadHash host actor command)) commit
        fun
        | some none => .enqueuing actor command
        | _ => .idle)
    | _ => none
  | .enqueue p env id commit =>
    match w.task p with
    | .enqueuing actor command =>
      some (w.continue_ p (enqueue host env w.now actor command id) commit fun
        | some _ => .idle
        | none => .relooking actor command)
    | _ => none
  | .relook p env commit =>
    match w.task p with
    | .relooking actor command =>
      some (w.continue_ p (existing env actor.userId command.requestKey (payloadHash host actor command)) commit
        fun _ => .idle)
    | _ => none
  | .claim p id owner seconds commit =>
    match w.task p with
    | .idle =>
      some (w.continue_ p (claim w.now id owner seconds) commit fun
        | some (some lease) => .claimed lease
        | _ => .idle)
    | _ => none
  | .precheck p env commit =>
    match w.task p with
    | .claimed lease =>
      some (w.continue_ p (precheck host env w.now lease) commit fun
        | some plan => .prechecked lease plan
        | none => .failing lease)
    | _ => none
  | .preflight p passes =>
    match w.task p with
    | .prechecked lease plan => some (w.goto p (if passes then .ready lease plan else .failing lease))
    | _ => none
  | .sendRun p env commit =>
    match w.task p with
    | .ready lease plan =>
      let next := w.continue_ p (sendRun host env w.now lease) commit fun
        | some (some invocation) => .invoking lease plan invocation
        | some none => .idle
        | none => .failing lease
      some { next with log := w.log ++ w.admission host env lease commit }
    | _ => none
  | .execute p =>
    match w.task p with
    | .invoking lease plan invocation =>
      some { w.goto p (.executing lease plan) with log := w.log ++ [.called invocation] }
    | _ => none
  | .answer p value =>
    match w.task p with
    | .executing lease plan =>
      if w.reports value then
        match checkedActionReceipt value lease.execution plan with
        | some receipt => some (w.goto p (.finishing lease receipt))
        | none => some (w.goto p (.uncertain lease))
      else none
    | _ => none
  | .finish p commit =>
    match w.task p with
    | .finishing lease receipt =>
      some (w.continue_ p (finish w.now lease receipt) commit fun
        | some _ => .idle
        | none => .uncertain lease)
    | _ => none
  | .unknown p commit =>
    match w.task p with
    | .uncertain lease => some (w.continue_ p (unknown w.now lease) commit fun _ => .idle)
    | _ => none
  | .failBeforeSend p commit =>
    match w.task p with
    | .failing lease => some (w.continue_ p (failBeforeSend w.now lease) commit fun _ => .idle)
    | _ => none
  | .recover limit commit => some (w.commit (recoverExpiredDispatches w.now limit) commit)
  | .cancel env id commit => some (w.commit (cancel env w.now id) commit)
  | .reconcile p env id commit =>
    match w.task p with
    | .idle =>
      some (w.continue_ p (reconcileRead env id) commit fun
        | some e => if e.state.unsettled then .reconciling e else .idle
        | none => .idle)
    | _ => none
  | .history p commit =>
    match w.task p with
    | .reconciling e =>
      some (w.continue_ p (historicalPlan host e) commit fun
        | some plan => .inquiring e plan
        | none => .idle)
    | _ => none
  | .receipt p value =>
    match w.task p with
    | .inquiring e plan =>
      if w.reports value then
        match checkedActionReceipt value e plan with
        | some receipt => some (w.goto p (.reconciled e receipt))
        | none => some (w.goto p .idle)
      else none
    | _ => none
  | .settle p env commit =>
    match w.task p with
    | .reconciled e receipt =>
      some (w.continue_ p (reconcileWrite env w.now e.id receipt) commit fun _ => .idle)
    | _ => none
  | .stop p => some (w.goto p .idle)
  | .finalize operationId => some { w with final := operationId :: w.final }

/-- No plan, no task and nothing sent. -/
def World.initial (now : Nat) : World := ⟨now, ⟨[], [], [], [], [], fun _ => none⟩, fun _ => .idle, [], []⟩

end Slide.Actions.Dispatch
