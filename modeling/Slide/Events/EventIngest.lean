import Slide.Events.TriggerPolicy
import Slide.Library.Transaction

/-!
# Ingestion of operational events

`MysqlOperationalEventIngest.ingest` of `investigations/event-ingest.ts`.  One transaction stores the
delivery, counts it under its trigger key, and may join it to the key's investigation or open a new one.
What it asks of the authorization, of the session bridge and of the budget ledger works on the rest of
the database; a port gives the answer and what it leaves there.

* `ingestBody`: the transaction, with its two savepoints.
* `IngestWorld.step`: calls, the clock of the database, and everything else that happens to the rest.
-/

namespace Slide.Events

open Display (Json)
open Investigations (InvestigationLifecycle BudgetLedgerError BudgetPrices BudgetSuppression
  BudgetAdmission)
open Transaction (Body ensure need reading write savepoint)

/-! ## What the transaction asks others -/

/-- The codes of `InvestigationStoreError`. -/
inductive InvestigationErrorCode
  | inputInvalid | operationForbidden | notFound | activeRequest | versionConflict
  | idempotencyPayloadMismatch | profileSubjectUnsupported | budgetExhausted | rateLimited
  | queueUnavailable | evidenceExpired
deriving DecidableEq

/-- What `ingest` may throw. -/
inductive IngestFailure
  | event (error : EventIngestError)
  | investigation (code : InvestigationErrorCode)
  | budget (error : BudgetLedgerError)
  /-- Any other error of the database or of the connection. -/
  | database
  /-- `ER_LOCK_DEADLOCK`, after the last attempt. -/
  | deadlock
deriving DecidableEq

/-- The errors after which an event is suppressed. -/
def IngestFailure.denied : IngestFailure → Bool
  | .investigation .notFound | .investigation .operationForbidden => true
  | _ => false

structure InvestigationActor where
  kind : PrincipalKind
  id : Nat

structure AdmissionInvestigation where
  (id sessionId : String)
  profileId : ProfileId
  profileVersion : Nat
  scopeVersion : String
  lifecycle : InvestigationLifecycle
  version : Nat
  owner : InvestigationActor
  resources : List InvestigationResource

/-- `['open', 'waiting'].includes(lifecycle)`. -/
def ongoing (lifecycle : InvestigationLifecycle) : Prop := lifecycle = .isOpen ∨ lifecycle = .waiting

instance : DecidablePred ongoing := fun _ => inferInstanceAs (Decidable (_ ∨ _))

inductive InvestigationAction
  | create | continue | content

/-- The command that `createOnConnection` gets, with its first message; a text that is cut is given by
its code units. -/
structure InvestigationCreate where
  idempotencyKey : String
  title : List Nat
  goal : String
  profileId : ProfileId
  profileVersion : Nat
  resources : List InvestigationResource
  /-- The context of the binding, or the subject with the times of occurrence and receipt. -/
  context : Json ⊕ InvestigationSubject × String × Int
  message : List Nat

/-- What `createOnConnection` answers: the investigation, and the request where one was accepted. -/
structure CreatedInvestigation where
  investigationId : String
  requestId : Option String

/-- The command that `reserveExecutionInTransaction` gets; its mode is `automatic`. -/
structure ReserveExecution where
  (requestId domain : String)
  profile : InvestigationProfile
  (reserveTokens reserveCostMicros : Nat)
  prices : Option BudgetPrices

/-- The parts of the service that the transaction calls, over the rest `σ` of the database. -/
structure IngestPorts (σ : Type) where
  /-- `authorization.load`. -/
  load : String → σ → Except IngestFailure AdmissionInvestigation
  /-- `authorization.authorize`. -/
  authorize : ActorContext → AdmissionInvestigation → InvestigationAction → σ → Except IngestFailure Unit
  /-- `SELECT session_id FROM investigations`. -/
  session : String → σ → Option String
  /-- `bridge.createOnConnection`. -/
  createOnConnection : ActorContext → InvestigationCreate → σ →
    Except IngestFailure (CreatedInvestigation × σ)
  /-- `ledger.prepareDomainInTransaction`. -/
  prepareDomain : String → σ → Except IngestFailure (Unit × σ)
  /-- `ledger.reserveExecutionInTransaction`. -/
  reserveExecution : ReserveExecution → σ → Except IngestFailure (BudgetAdmission × σ)

/-! ## The tables -/

inductive Disposition
  | accepted | linked | suppressed
deriving DecidableEq

inductive SuppressionReason
  | trigger (reason : TriggerSuppression)
  | budget (reason : BudgetSuppression)
deriving DecidableEq

/-- A row of `operational_events`: the envelope and the classification are the event's. -/
structure StoredEvent where
  (id commandHash : String)
  event : OperationalEvent
  fingerprint : String
  disposition : Disposition := .suppressed
  suppressionReason : Option SuppressionReason := none
  investigationId : Option String := none
  requestId : Option String := none
  previousInvestigationId : Option String := none

/-- A row of `investigation_trigger_keys`. -/
structure TriggerKeyRow where
  policyId : String
  policyVersion : Nat
  (scopeHash fingerprint policyHash : String)
  activeInvestigationId : Option String := none
  firstRequestId : Option String := none
  windowStartedAt : Int
  windowCount : Nat := 0
  eventCount : Nat := 0
  lastSeen : Int

/-- `source` and `source_event_id`. -/
abbrev Delivery := String × String

/-- The tables of the ingestion, and the rest of the database. -/
structure IngestStore (σ : Type) where
  /-- `operational_events`. -/
  events : Table Delivery StoredEvent
  /-- `investigation_trigger_keys`. -/
  keys : Table String TriggerKeyRow
  /-- `investigation_trigger_cooldowns`: `cooldown_until` of a domain and a resource. -/
  cooldowns : Table (String × String) Int
  /-- `investigation_event_links`: investigation and event. -/
  links : List (String × String)
  rest : σ

structure EventReceipt where
  eventId : String
  duplicate : Bool
  disposition : Disposition
  suppressionReason : Option SuppressionReason
  (investigationId requestId previousInvestigationId : Option String)
deriving DecidableEq

def receipt (row : StoredEvent) (duplicate : Bool := false) : EventReceipt :=
  ⟨row.id, duplicate, row.disposition, row.suppressionReason, row.investigationId, row.requestId,
    row.previousInvestigationId⟩

/-! ## The transaction -/

section Body

variable {σ : Type}

/-- A call that only reads the rest. -/
def asking {α : Type} (f : σ → Except IngestFailure α) : Body (IngestStore σ) IngestFailure α :=
  fun s => (f s.rest).map fun a => (a, s)

/-- A call that may change the rest. -/
def calling {α : Type} (f : σ → Except IngestFailure (α × σ)) :
    Body (IngestStore σ) IngestFailure α :=
  fun s => (f s.rest).map fun (a, rest) => (a, { s with rest })

/-- `INSERT INTO operational_events … ON DUPLICATE KEY UPDATE id = id`: a delivery or an id that is
there keeps its row. -/
def insertEvent (row : StoredEvent) (s : IngestStore σ) : IngestStore σ :=
  if ∃ stored ∈ s.events.toList, stored.id = row.id then s
  else { s with events := s.events.insertNew (row.event.source, row.event.sourceEventId) row }

/-- `UPDATE operational_events SET … WHERE id = ?`. -/
def setEvent (event : OperationalEvent) (set : StoredEvent → StoredEvent) (s : IngestStore σ) :
    IngestStore σ :=
  { s with events :=
      (s.events.updateWhere (event.source, event.sourceEventId) (·.id = event.id) set).1 }

/-- `UPDATE investigation_trigger_keys SET … WHERE trigger_key = ?`. -/
def setKey (triggerKey : String) (set : TriggerKeyRow → TriggerKeyRow) (s : IngestStore σ) :
    IngestStore σ :=
  { s with keys := (s.keys.updateWhere triggerKey (fun _ => true) set).1 }

/-- The cooldown of every resource set to an instant. -/
def coolDown (domain : String) (resources : List String) (cooldownUntil : Int) (s : IngestStore σ) :
    IngestStore σ :=
  let one (rows : Table (String × String) Int) (resource : String) :=
    (rows.updateWhere (domain, resource) (fun _ => true) fun _ => cooldownUntil).1
  { s with cooldowns := resources.foldl one s.cooldowns }

/-- What one receipt makes of the row of its trigger key. -/
def countEvent (windowMs : Nat) (now : Int) (excluded : Bool) (aggregate : TriggerKeyRow) :
    TriggerKeyRow :=
  let reset := now - aggregate.windowStartedAt ≥ windowMs
  { aggregate with
    eventCount := aggregate.eventCount + 1
    windowCount := (if reset then 0 else aggregate.windowCount) + (if excluded then 0 else 1)
    windowStartedAt := if reset then now else aggregate.windowStartedAt
    lastSeen := max aggregate.lastSeen now }

/-- `INSERT INTO investigation_event_links`, where there is an investigation. -/
def linkEvent (eventId : String) : Option String → Body (IngestStore σ) IngestFailure Unit
  | none => pure ()
  | some id => do
    let links ← reading IngestStore.links
    ensure (∀ link ∈ links, link.2 ≠ eventId) .database
    write fun s => { s with links := s.links ++ [(id, eventId)] }

def outcome (event : OperationalEvent) (disposition : Disposition)
    (reason : Option SuppressionReason) (investigationId requestId previousId : Option String) :
    Body (IngestStore σ) IngestFailure EventReceipt := do
  write (setEvent event fun row =>
    { row with
      disposition
      suppressionReason := reason
      investigationId
      requestId
      previousInvestigationId := previousId })
  linkEvent event.id investigationId
  pure ⟨event.id, false, disposition, reason, investigationId, requestId, previousId⟩

/-- Insert the rows of the resources and read them, up to the first one that blocks. -/
def coolingDown (domain : String) (now : Int) :
    List String → Body (IngestStore σ) IngestFailure Bool
  | [] => pure false
  | resource :: rest => do
    write fun s => { s with cooldowns := s.cooldowns.insertNew (domain, resource) 0 }
    let row ← reading fun s => s.cooldowns.get (domain, resource)
    let cooldownUntil ← need row .database
    if now < cooldownUntil then pure true else coolingDown domain now rest

def IngestHost.resourceKeys (host : IngestHost) (p : TriggerPolicy) : List String :=
  if p.resources = [] then ["platform:" ++ host.stableHash (orNull p.component)]
  else (p.resources.map fun ref => ref.key).insertionSort JsString.le

variable (host : IngestHost) (ports : IngestPorts σ)

variable (binding : TriggerBinding)

def authorizeSubject (event : OperationalEvent) :
    Body (IngestStore σ) IngestFailure Unit :=
  let p := binding.policy
  asking (ports.authorize p.actor
    ⟨event.id, event.id, p.profileId, p.profileVersion, (host.triggerIdentity event binding).scopeHash,
      .isOpen, 1, ⟨.service, p.actor.userId⟩, p.resources⟩ .create)

/-- The investigation the key points at, where it points at one: it has to be one that the actor may
continue. -/
def activeInvestigation (actor : ActorContext) (active : Option String) :
    Body (IngestStore σ) IngestFailure (Option AdmissionInvestigation) := do
  match active with
  | none => pure none
  | some id =>
    let session ← reading fun s => ports.session id s.rest
    let _ ← need session (.event .storeUnavailable)
    let investigation ← asking (ports.load id)
    asking (ports.authorize actor investigation .continue)
    pure (some investigation)

/-- From the first savepoint to the second: the event gets its disposition, or may be admitted, with
the closed investigation it follows. -/
def consider (event : OperationalEvent) (aggregate : TriggerKeyRow)
    (windowCount : Nat) (now : Int) :
    Body (IngestStore σ) IngestFailure (EventReceipt ⊕ Option String) := do
  let p := binding.policy
  authorizeSubject host ports binding event
  let active ← activeInvestigation ports p.actor aggregate.activeInvestigationId
  match active.filter fun investigation => ongoing investigation.lifecycle with
  | some investigation =>
    .inl <$> outcome event .linked (some (.trigger .openInvestigation)) (some investigation.id)
      aggregate.firstRequestId none
  | none =>
    let previousId := active.map AdmissionInvestigation.id
    if windowCount < p.threshold ∧ ¬ (p.criticalSingle ∧ event.severity = .critical) then
      .inl <$> outcome event .suppressed (some (.trigger .belowThreshold)) none none previousId
    else
      calling (ports.prepareDomain p.domain)
      if ← coolingDown p.domain now (host.resourceKeys p) then
        .inl <$> outcome event .suppressed (some (.trigger .cooldown)) none none previousId
      else pure (.inr previousId)

/-- The command that opens the investigation of an event. -/
def createCommand (p : TriggerPolicy) (context : Option Json) (event : OperationalEvent) :
    InvestigationCreate where
  idempotencyKey := "event:" ++ event.id
  title := (JsString.utf16 event.summary).take 200
  goal := "只读调查持久事件，引用事实并说明证据缺口。"
  profileId := p.profileId
  profileVersion := p.profileVersion
  resources := p.resources
  context := match context with
    | some context => .inl context
    | none => .inr (event.subject, event.occurredAt.text, event.receivedAt)
  message := (JsString.utf16 ("事件 " ++ event.id ++ "：" ++ event.summary)).take 2000

/-- What follows the second savepoint; a refusal of the budget gives it up. -/
def admitEvent (context : Option Json) (event : OperationalEvent)
    (fingerprint : String) (previousId : Option String) (now : Int) :
    Body (IngestStore σ) IngestFailure (EventReceipt ⊕ SuppressionReason × Option String) := do
  let p := binding.policy
  let created ← calling (ports.createOnConnection p.actor (createCommand p context event))
  let requestId ← need created.requestId (.event .storeUnavailable)
  let profile ← need (resolveInvestigationProfile p.profileId p.profileVersion)
    (.investigation .profileSubjectUnsupported)
  let budget ← calling (ports.reserveExecution
    ⟨requestId, p.domain, profile, p.reserveTokens, p.reserveCostMicros, p.prices⟩)
  match budget with
  | .refused reason => pure (.inr (.budget reason, previousId))
  | .accepted _ _ =>
    write (coolDown p.domain (host.resourceKeys p) (now + p.cooldownMs))
    write (setKey fingerprint fun row =>
      { row with
        activeInvestigationId := some created.investigationId
        firstRequestId := some requestId })
    .inl <$> outcome event .accepted none (some created.investigationId) (some requestId) previousId

/-- What follows the counting, for an event that no policy excludes. -/
def dispose (context : Option Json) (event : OperationalEvent)
    (fingerprint : String) (aggregate : TriggerKeyRow) (windowCount : Nat) (now : Int) :
    Body (IngestStore σ) IngestFailure EventReceipt := do
  let suppressed (reason : SuppressionReason) (previousId : Option String) :=
    outcome event .suppressed (some reason) none none previousId
  let considered ← savepoint (β := Unit) (fun e => if e.denied then some () else none)
    (.inl <$> consider host ports binding event aggregate windowCount now)
  match considered with
  | .inr () => suppressed (.trigger .authorityDenied) none
  | .inl (.inl receipt) => pure receipt
  | .inl (.inr previousId) =>
    let admitted ← savepoint
      (fun e => if e.denied then some (.trigger .authorityDenied, none) else none)
      (admitEvent host ports binding context event fingerprint previousId now)
    match admitted with
    | .inl receipt => pure receipt
    | .inr (reason, previousId) => suppressed reason previousId

/-- The actor may read the content of the investigation, where there is one. -/
def readable (actor : ActorContext) : Option String → Body (IngestStore σ) IngestFailure Unit
  | none => pure ()
  | some id => do
    let investigation ← asking (ports.load id)
    asking (ports.authorize actor investigation .content)

/-- The row is there: its receipt. -/
def redeliver (actor : ActorContext) (stored : StoredEvent) :
    Body (IngestStore σ) IngestFailure EventReceipt := do
  readable ports actor stored.investigationId
  pure (receipt stored true)

/-- Insert the row of the trigger key, read it and count the event. -/
def countUnderKey (event : OperationalEvent) (identity : TriggerIdentity)
    (now : Int) : Body (IngestStore σ) IngestFailure TriggerKeyRow := do
  let p := binding.policy
  let new : TriggerKeyRow :=
    { policyId := p.id
      policyVersion := p.version
      scopeHash := identity.scopeHash
      fingerprint := identity.fingerprint
      policyHash := identity.policyHash
      windowStartedAt := now
      lastSeen := now }
  write fun s => { s with keys := s.keys.insertNew identity.fingerprint new }
  let row ← reading fun s => s.keys.get identity.fingerprint
  let aggregate ← need row .database
  ensure (aggregate.policyHash = identity.policyHash) (.event .policyConflict)
  write (setKey identity.fingerprint
    (countEvent p.windowMs now (policyExclusion event binding).isSome))
  pure aggregate

/-- The transaction of `ingest`, with the clock it has read and the id it has drawn. -/
def ingestBody (context : Option Json) (input : EventInput) (id : String)
    (now : Int) : Body (IngestStore σ) IngestFailure EventReceipt := do
  let event ← asking fun _ => (normalizeEvent input binding id now).mapError IngestFailure.event
  let identity := host.triggerIdentity event binding
  let commandHash := host.stableHash (commandContent context input)
  write (insertEvent
    { id := event.id
      commandHash
      event
      fingerprint := identity.fingerprint })
  let row ← reading fun s => s.events.get (event.source, event.sourceEventId)
  let stored ← need row .database
  ensure (stored.commandHash = commandHash) (.event .deliveryConflict)
  if stored.id ≠ event.id then redeliver ports binding.policy.actor stored
  else
    let aggregate ← countUnderKey binding event identity now
    let windowCount := (countEvent binding.policy.windowMs now
      (policyExclusion event binding).isSome aggregate).windowCount
    match policyExclusion event binding with
    | some reason => outcome event .suppressed (some (.trigger reason)) none none none
    | none =>
      dispose host ports binding context event identity.fingerprint aggregate windowCount now

end Body

/-! ## Calls -/

inductive CallPhase
  /-- Before its transaction, or between two attempts. -/
  | waiting
  /-- In its transaction, with the clock read at its start. -/
  | begun (now : Int)
  | finished (result : Except IngestFailure EventReceipt)
deriving DecidableEq

/-- A call of `ingest` of a binding. -/
structure IngestCall where
  binding : FrozenBinding
  context : Option Json
  input : EventInput
  attempt : Nat
  phase : CallPhase

structure IngestWorld (σ : Type) where
  store : IngestStore σ
  clock : Int
  /-- How many ids `randomUUID` has given. -/
  drawn : Nat
  calls : List IngestCall

inductive IngestEvent (σ : Type)
  /-- The clock of the database goes on. -/
  | tick (ms : Nat)
  /-- A call; the pool may not be there. -/
  | ingest (binding : FrozenBinding) (context : Option Json) (input : EventInput) (connected : Bool)
  /-- The transaction of a call starts. -/
  | start (i : Nat)
  /-- It gets its locks, and ends with its commit. -/
  | perform (i : Nat) (commit : Transaction.Commit)
  /-- It is chosen as the victim of a deadlock. -/
  | deadlock (i : Nat)
  /-- Anything else that happens to the rest of the database. -/
  | elsewhere (rest : σ)

variable {σ : Type}

/-- What a call throws before it does anything. -/
def IngestHost.refusal (host : IngestHost) (binding : TriggerBinding) (input : EventInput)
    (drawn : Nat) (clock : Int) (connected : Bool) : Option IngestFailure :=
  match normalizeEvent input binding (host.randomUUID drawn) clock with
  | .error e => some (.event e)
  | .ok _ => if connected then none else some (.event .storeUnavailable)

def IngestWorld.setPhase (w : IngestWorld σ) (i : Nat) (phase : CallPhase) : List IngestCall :=
  w.calls.modify i fun call => { call with phase }

/-- The body of a call, with the id that it draws. -/
def IngestWorld.body (host : IngestHost) (ports : IngestPorts σ) (w : IngestWorld σ)
    (call : IngestCall) (now : Int) : Body (IngestStore σ) IngestFailure EventReceipt :=
  ingestBody host ports call.binding.binding call.context call.input (host.randomUUID w.drawn) now

/-- What a transaction gives its call. -/
def answer {s α : Type} (body : Body s IngestFailure α) (commit : Transaction.Commit) (store : s) :
    Except IngestFailure α :=
  match body store, (Transaction.perform body commit store).1 with
  | .error e, _ => .error e
  | .ok _, some a => .ok a
  | .ok _, none => .error .database

def IngestWorld.step (host : IngestHost) (ports : IngestPorts σ) (w : IngestWorld σ) :
    IngestEvent σ → IngestWorld σ
  | .tick ms => { w with clock := w.clock + ms }
  | .ingest binding context input connected =>
    let phase := match host.refusal binding.binding input w.drawn w.clock connected with
      | some failure => .finished (.error failure)
      | none => .waiting
    { w with drawn := w.drawn + 1, calls := w.calls ++ [⟨binding, context, input, 0, phase⟩] }
  | .start i =>
    match w.calls[i]? with
    | some call =>
      if call.phase = .waiting then { w with calls := w.setPhase i (.begun w.clock) } else w
    | none => w
  | .perform i commit =>
    match w.calls[i]? with
    | some call =>
      match call.phase with
      | .begun now =>
        let body := w.body host ports call now
        { w with
          store := (Transaction.perform body commit w.store).2
          drawn := w.drawn + 1
          calls := w.setPhase i (.finished (answer body commit w.store)) }
      | _ => w
    | none => w
  | .deadlock i =>
    match w.calls[i]? with
    | some call =>
      match call.phase with
      | .begun _ =>
        let phase := if call.attempt < 3 then .waiting else .finished (.error .deadlock)
        { w with
          drawn := w.drawn + 1
          calls := w.calls.modify i fun call => { call with attempt := call.attempt + 1, phase } }
      | _ => w
    | none => w
  | .elsewhere rest => { w with store := { w.store with rest } }

/-- Nothing is stored yet. -/
def IngestWorld.init (rest : σ) (clock : Int) : IngestWorld σ :=
  ⟨⟨.empty, .empty, .empty, [], rest⟩, clock, 0, []⟩

def IngestWorld.run (host : IngestHost) (ports : IngestPorts σ) (w : IngestWorld σ)
    (events : List (IngestEvent σ)) : IngestWorld σ :=
  events.foldl (IngestWorld.step host ports) w

end Slide.Events
