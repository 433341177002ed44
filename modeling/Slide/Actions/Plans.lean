import Slide.Library.Transaction

/-!
# Action plans

`PlanStore` and `ActionPlanService`: the plans with their versions, the approvals of this kind and their
bindings, and the transactions that propose, submit, review, revise and consume them.  What the sources,
the authorizations, the flags and the live sessions answer is an `Env`.
-/

namespace Slide.Actions.Dispatch

open Transaction

/-! ## Rows -/

inductive PrincipalKind
  | user | service
deriving DecidableEq

structure Principal where
  kind : PrincipalKind
  id : Nat

structure Precondition where
  (kind expected : String)

/-- The content of a plan; `references` are the deadlines of its evidence, relations and baselines. -/
structure PlanContent where
  investigationId : String
  (author requester : Principal)
  target : Nat
  (toolHash policyVersion : String)
  preconditions : List Precondition
  references : List Nat
  (validFrom validUntil : Nat)

inductive PlanState
  | draft | pendingApproval | approved | rejected | expired | superseded
deriving DecidableEq

structure PlanHead where
  id : String
  currentVersion : Nat

structure ActionPlanVersion where
  id : String
  version : Nat
  contentHash : String
  state : PlanState
  content : PlanContent

/-- `approvalAuthority`: a principal and the ceiling of its session, as a text. -/
structure ApprovalAuthority where
  principalKind : PrincipalKind
  userId : Nat
  ceiling : String

inductive ApprovalStatus
  | pending | approved | rejected | expired | consumed
deriving DecidableEq

/-- A row of `agent_tool_approvals` of the tool `operations_action_plan`, which is once and of high risk. -/
structure Approval where
  (id requesterId : Nat)
  (bindingHash planId : String)
  version : Nat
  contentHash : String
  proposer : ApprovalAuthority
  proposerLiveHash : String
  reviewer : Option (ApprovalAuthority × String)
  reviewerId : Option Nat
  status : ApprovalStatus
  (usedCount expiresAt : Nat)

structure ApprovalBinding where
  approvalId : Nat
  planId : String
  planVersion : Nat
  (contentHash policyVersion : String)
  (authorId requesterId reviewerId expiresAt : Nat)
  consumedAt : Option Nat

inductive ExecutionState
  | queued | prechecking | dispatching | succeeded | failed | outcomeUnknown | cancelled
deriving DecidableEq

inductive ReceiptOutcome
  | succeeded | notExecuted | outcomeUnknown
deriving DecidableEq

structure ActionReceipt where
  (operationId planHash configHash helperHash : String)
  outcome : ReceiptOutcome
  before : String
  after : Option String

structure ExecutionRecord where
  id : String
  version : Nat
  planId : String
  (planVersion approvalId : Nat)
  operationId : String
  actorId : Nat
  (requestKey payloadHash : String)
  state : ExecutionState
  leaseOwner : Option String
  leaseExpiresAt : Option Nat
  fence : Nat
  (sentAt cancelRequestedAt : Option Nat)
  receipt : Option ActionReceipt
  errorCode : Option String

inductive LockKey
  | global
  | server (id : Nat)
deriving DecidableEq

structure Tables where
  plans : List PlanHead
  versions : List ActionPlanVersion
  approvals : List Approval
  bindings : List ApprovalBinding
  executions : List ExecutionRecord
  /-- `action_dispatch_locks`, the execution of each row. -/
  locks : LockKey → Option String

/-! ## Environment -/

structure ExecuteCommand where
  planId : String
  (expectedVersion approvalId : Nat)
  requestKey : String

/-- The hashes, and the schema of a content. -/
structure Host where
  contentHash : PlanContent → String
  approvalHash : ActionPlanVersion → ApprovalAuthority → String → String
  commandHash : ExecuteCommand → PrincipalKind → String
  parses : PlanContent → Bool

/-- What a transaction finds outside these tables. -/
structure Env where
  (plans dispatch : Bool)
  /-- The locks of the sources and every authorization. -/
  granted : Bool
  /-- The earliest deadline of the sources. -/
  validUntil : Nat
  liveHash : ApprovalAuthority → Option String

inductive OperationsError
  | inputInvalid | notFound | forbidden | versionConflict | preconditionFailed | expired
  | dependencyUnavailable | idempotencyConflict | disabled
  | duplicateKey

abbrev Tx (α : Type) := Body Tables OperationsError α

structure ActorContext where
  userId : Nat
  principalKind : PrincipalKind
  authority : ApprovalAuthority

def maximumMs : Nat := 30 * 60000

/-! ## `PlanStore` -/

def Tables.head? (t : Tables) (id : String) : Option PlanHead := t.plans.find? (·.id = id)

def Tables.version? (t : Tables) (id : String) (version : Nat) : Option ActionPlanVersion :=
  t.versions.find? fun p => p.id = id && p.version = version

def Tables.approval? (t : Tables) (id : Nat) : Option Approval := t.approvals.find? (·.id = id)

def Tables.binding? (t : Tables) (id : Nat) : Option ApprovalBinding := t.bindings.find? (·.approvalId = id)

variable (host : Host) (env : Env) (now : Nat)

/-- `PlanStore.load`: the current version of a plan. -/
def load (id : String) : Tx ActionPlanVersion := do
  let head ← reading (·.head? id)
  let head ← need head .notFound
  let row ← reading (·.version? id head.currentVersion)
  let row ← need row .dependencyUnavailable
  ensure (host.parses row.content) .inputInvalid
  ensure (host.contentHash row.content = row.contentHash) .preconditionFailed
  pure row

/-- The update of the state of a plan's version. -/
def setState (id : String) (version : Nat) (state : PlanState) : Tx Unit :=
  write fun t =>
    { t with versions := t.versions.map fun p =>
        if p.id = id ∧ p.version = version then { p with state } else p }

variable (plan : ActionPlanVersion)

def insertVersion : Tx Unit := do
  let taken ← reading fun t => t.versions.any fun p => p.id = plan.id && p.version = plan.version
  ensure (taken = false) .duplicateKey
  write fun t => { t with versions := t.versions ++ [plan] }

def Approval.isOpen (a : Approval) : Bool := a.status = .pending || a.status = .approved

/-- The approvals that a revision expires. -/
def Approval.expire (t : Tables) (previous : ActionPlanVersion) (a : Approval) : Approval :=
  if a.isOpen &&
      ((t.bindings.any fun b =>
          b.approvalId = a.id && b.planId = previous.id && b.planVersion = previous.version) ||
        (a.requesterId = previous.content.requester.id && a.planId = previous.id)) then
    { a with status := .expired }
  else a

/-- `PlanStore.insert` of a first version. -/
def insertFirst : Tx Unit := do
  let taken ← reading fun t => t.plans.any (·.id = plan.id)
  ensure (taken = false) .duplicateKey
  write fun t => { t with plans := t.plans ++ [⟨plan.id, 1⟩] }
  insertVersion plan

/-- `PlanStore.insert` after a previous version. -/
def insertNext (plan previous : ActionPlanVersion) : Tx Unit := do
  setState plan.id previous.version .superseded
  write fun t => { t with approvals := t.approvals.map (Approval.expire t previous) }
  let changed ← reading fun t =>
    t.plans.countP fun p => p.id = plan.id && p.currentVersion = previous.version
  write fun t =>
    { t with plans := t.plans.map fun p =>
        if p.id = plan.id ∧ p.currentVersion = previous.version then
          { p with currentVersion := plan.version }
        else p }
  ensure (changed = 1) .versionConflict
  insertVersion plan

/-! ## Checks -/

def assertPlanFresh : Tx Unit := do
  ensure (now < plan.content.validUntil) .expired
  ensure (plan.content.validFrom ≤ now ∧
    plan.content.validUntil - plan.content.validFrom ≤ maximumMs ∧
    host.contentHash plan.content = plan.contentHash) .preconditionFailed
  ensure (∀ deadline ∈ plan.content.references, now < deadline) .expired

/-- `check`: the plan is fresh, its sources are locked and the caller is authorized. -/
def check : Tx Unit := do
  assertPlanFresh host now plan
  ensure (env.granted) .forbidden

/-- `fresh`: the end of a transaction. -/
def fresh : Tx Unit := do
  assertPlanFresh host now plan
  ensure (now < env.validUntil) .preconditionFailed

def enabled (flag : Bool) : Tx Unit := ensure flag .disabled

def assertExpectedVersion (expected actual : Nat) : Tx Unit := do
  ensure (0 < expected ∧ 0 < actual) .inputInvalid
  ensure (expected = actual) .versionConflict

def requireState (state : PlanState) : Tx Unit :=
  ensure (plan.state = state) .versionConflict

/-- `approval`: the row of an approval of this plan that is not used, and whose proposer is still live. -/
def approval (id : Nat) : Tx Approval := do
  let row ← reading (·.approval? id)
  ensure (row.all (·.status ≠ .consumed)) .versionConflict
  let row ← need row .preconditionFailed
  ensure (row.usedCount = 0 ∧ row.requesterId = plan.content.requester.id ∧
    row.expiresAt ≤ plan.content.validUntil) .preconditionFailed
  ensure (row.proposer.userId = plan.content.requester.id ∧
    row.proposer.principalKind = plan.content.requester.kind ∧
    row.bindingHash = host.approvalHash plan row.proposer row.proposerLiveHash) .preconditionFailed
  ensure (row.planId = plan.id ∧ row.version = plan.version ∧ row.contentHash = plan.contentHash)
    .preconditionFailed
  ensure (now < row.expiresAt) .expired
  ensure (env.liveHash row.proposer = some row.proposerLiveHash) .forbidden
  check host env now plan
  pure row

/-! ## `ActionPlanService` -/

/-- `create`, for the content that `proposedContent` makes. -/
def create (id : String) (content : PlanContent) : Tx ActionPlanVersion := do
  enabled env.plans
  ensure (host.parses content) .inputInvalid
  let plan : ActionPlanVersion := ⟨id, 1, host.contentHash content, .draft, content⟩
  check host env now plan
  insertFirst plan
  fresh host env now plan
  pure plan

def revise (planId : String) (expectedVersion : Nat) (content : PlanContent) : Tx ActionPlanVersion := do
  enabled env.plans
  let previous ← load host planId
  assertExpectedVersion expectedVersion previous.version
  ensure (env.granted) .forbidden
  ensure (host.parses content ∧ content.investigationId = previous.content.investigationId) .inputInvalid
  let plan : ActionPlanVersion :=
    ⟨previous.id, previous.version + 1, host.contentHash content, .draft, content⟩
  check host env now plan
  insertNext plan previous
  fresh host env now plan
  pure plan

/-- `submit`, with the id that its approval gets. -/
def submit (caller : ActorContext) (planId : String) (expectedVersion approvalId : Nat) : Tx Nat := do
  enabled env.plans
  let plan ← load host planId
  assertExpectedVersion expectedVersion plan.version
  requireState plan .draft
  ensure (caller.userId = plan.content.requester.id ∧ caller.principalKind = plan.content.requester.kind)
    .forbidden
  check host env now plan
  let liveHash ← need (env.liveHash caller.authority) .forbidden
  let taken ← reading fun t => t.approvals.any (·.id = approvalId)
  ensure (taken = false) .duplicateKey
  let row : Approval :=
    { id := approvalId
      requesterId := caller.userId
      bindingHash := host.approvalHash plan caller.authority liveHash
      planId := plan.id
      version := plan.version
      contentHash := plan.contentHash
      proposer := caller.authority
      proposerLiveHash := liveHash
      reviewer := none
      reviewerId := none
      status := .pending
      usedCount := 0
      expiresAt := plan.content.validUntil / 1000 * 1000 }
  write fun t => { t with approvals := t.approvals ++ [row] }
  setState plan.id plan.version .pendingApproval
  fresh host env now plan
  pure approvalId

/-- The binding of an approval that is given. -/
def insertBinding (row : Approval) (reviewerId : Nat) : Tx Unit := do
  let taken ← reading fun t => t.bindings.any (·.approvalId = row.id)
  ensure (taken = false) .duplicateKey
  ensure (reviewerId ≠ plan.content.author.id ∧ reviewerId ≠ plan.content.requester.id) .duplicateKey
  write fun t =>
    { t with bindings := t.bindings ++
        [{ approvalId := row.id
           planId := plan.id
           planVersion := plan.version
           contentHash := plan.contentHash
           policyVersion := plan.content.policyVersion
           authorId := plan.content.author.id
           requesterId := plan.content.requester.id
           reviewerId
           expiresAt := row.expiresAt
           consumedAt := none }] }

/-- The reviewed row of an approval. -/
def Approval.review (a : Approval) (approve : Bool) (caller : ActorContext) (liveHash : String) : Approval :=
  { a with
    status := if approve then .approved else .rejected
    reviewer := some (caller.authority, liveHash)
    reviewerId := some caller.userId }

def bindIf (approve : Bool) (plan : ActionPlanVersion) (row : Approval) (reviewerId : Nat) : Tx Unit :=
  if approve then insertBinding plan row reviewerId else pure ()

def review (caller : ActorContext) (planId : String) (expectedVersion approvalId : Nat) (approve : Bool) :
    Tx Unit := do
  enabled env.plans
  let plan ← load host planId
  assertExpectedVersion expectedVersion plan.version
  requireState plan .pendingApproval
  let row ← approval host env now plan approvalId
  ensure (row.status = .pending) .versionConflict
  check host env now plan
  let liveHash ← need (env.liveHash caller.authority) .forbidden
  write fun t =>
    { t with approvals := t.approvals.map fun a =>
        if a.id = approvalId ∧ a.status = .pending then a.review approve caller liveHash else a }
  bindIf approve plan row caller.userId
  setState plan.id plan.version (if approve then .approved else .rejected)
  fresh host env now plan

/-- What an approval, its binding and its plan have in common where it is executed. -/
def ApprovalBinding.fits (b : ApprovalBinding) (plan : ActionPlanVersion) (row : Approval) : Bool :=
  b.planId = plan.id && b.planVersion = plan.version && b.contentHash = plan.contentHash &&
    b.policyVersion = plan.content.policyVersion && b.authorId = plan.content.author.id &&
    b.requesterId = plan.content.requester.id && row.reviewerId = some b.reviewerId &&
    row.reviewer.map (·.1.userId) = some b.reviewerId && b.expiresAt = row.expiresAt

/-- The rows that the consumption of an approval updates. -/
def Approval.usable (a : Approval) (now approvalId : Nat) : Bool :=
  a.id = approvalId && a.status = .approved && a.usedCount = 0 && now < a.expiresAt

/-- `enqueueApproved` up to its callback: an approval is consumed. -/
def consume (planId : String) (expectedVersion approvalId : Nat) : Tx ActionPlanVersion := do
  enabled env.dispatch
  let plan ← load host planId
  assertExpectedVersion expectedVersion plan.version
  requireState plan .approved
  let row ← approval host env now plan approvalId
  ensure (row.status = .approved ∧ row.reviewerId.isSome ∧ row.reviewer.map (·.1.userId) = row.reviewerId)
    .versionConflict
  ensure (row.reviewer.all fun r => env.liveHash r.1 = some r.2) .forbidden
  check host env now plan
  let binding ← reading (·.binding? approvalId)
  let binding ← need binding .preconditionFailed
  ensure (binding.fits plan row ∧ binding.consumedAt = none) .preconditionFailed
  let used ← reading fun t => t.approvals.countP (·.usable now approvalId)
  write fun t =>
    { t with approvals := t.approvals.map fun a =>
        if a.usable now approvalId then { a with status := .consumed, usedCount := 1 } else a }
  ensure (used = 1) .versionConflict
  write fun t =>
    { t with bindings := t.bindings.map fun b =>
        if b.approvalId = approvalId ∧ b.consumedAt = none then { b with consumedAt := some now } else b }
  pure plan

end Slide.Actions.Dispatch
