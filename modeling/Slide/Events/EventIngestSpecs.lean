import Slide.Events.EventIngest

/-!
# What a transaction of the ingestion leaves

Until an outcome is written, the parts of the transaction leave the events and the trigger keys alone,
and close investigations at most.  One outcome ends each way through: `Concluded` says what it gave the
new row, and an outcome other than an admission leaves the key as the counting left it.
-/

namespace Slide.Events

open Display (Json)
open Transaction

variable {σ : Type} {host : IngestHost} {ports : IngestPorts σ} {s s' : IngestStore σ}
  {event : OperationalEvent} {binding : TriggerBinding} {context : Option Json} {now : Int}
  {r : EventReceipt}

/-- An investigation that is open or waiting. -/
def IngestPorts.Ongoing (ports : IngestPorts σ) (rest : σ) (id : String) : Prop :=
  ∃ investigation, ports.load id rest = .ok investigation ∧ ongoing investigation.lifecycle

/-- An investigation that is there. -/
def IngestPorts.Known (ports : IngestPorts σ) (rest : σ) (id : String) : Prop :=
  ∃ investigation, ports.load id rest = .ok investigation

/-- Investigations stay, and none is opened. -/
structure IngestPorts.Leaves (ports : IngestPorts σ) (rest rest' : σ) : Prop where
  known : ∀ id, ports.Known rest id → ports.Known rest' id
  opened : ∀ id, ports.Ongoing rest' id → ports.Ongoing rest id

theorem IngestPorts.Leaves.refl (rest : σ) : ports.Leaves rest rest := ⟨fun _ => id, fun _ => id⟩

theorem IngestPorts.Leaves.trans {rest rest' rest'' : σ} (first : ports.Leaves rest rest')
    (second : ports.Leaves rest' rest'') : ports.Leaves rest rest'' :=
  ⟨fun id before => second.known id (first.known id before),
    fun id after => first.opened id (second.opened id after)⟩

/-- No operation removes an investigation or opens one that is there: creation makes a new one. -/
structure IngestPorts.NeverReopens (ports : IngestPorts σ) : Prop where
  create : ∀ actor command rest created rest',
    ports.createOnConnection actor command rest = .ok (created, rest') →
      ¬ ports.Known rest created.investigationId ∧ ports.Known rest' created.investigationId ∧
        (∀ id, ports.Known rest id → ports.Known rest' id) ∧
        ∀ id, id ≠ created.investigationId → ports.Ongoing rest' id → ports.Ongoing rest id
  prepare : ∀ domain rest rest', ports.prepareDomain domain rest = .ok ((), rest') →
    ports.Leaves rest rest'
  reserve : ∀ command rest admission rest',
    ports.reserveExecution command rest = .ok (admission, rest') → ports.Leaves rest rest'

/-! ## Before an outcome -/

/-- The events and the keys are as they were, and no investigation has been opened. -/
structure Aside (ports : IngestPorts σ) (s s' : IngestStore σ) : Prop where
  events : s'.events = s.events
  keys : s'.keys = s.keys
  rest : ports.Leaves s.rest s'.rest

instance : Std.Refl (Aside ports) := ⟨fun s => ⟨rfl, rfl, .refl s.rest⟩⟩

instance : IsTrans (IngestStore σ) (Aside ports) :=
  ⟨fun _ _ _ first second => ⟨second.events.trans first.events, second.keys.trans first.keys,
    first.rest.trans second.rest⟩⟩

theorem asking_ok {α : Type} {f : σ → Except IngestFailure α} {a : α} :
    asking f s = .ok (a, s') ↔ f s.rest = .ok a ∧ s' = s := by
  unfold asking
  rw [Except.map_eq_ok]
  constructor
  · rintro ⟨b, answered, same⟩
    cases same
    exact ⟨answered, rfl⟩
  · rintro ⟨answered, rfl⟩
    exact ⟨a, answered, rfl⟩

theorem keeps_asking {α : Type} (f : σ → Except IngestFailure α) : Keeps Eq (asking f) := by
  intro s a s' ran
  exact (asking_ok.mp ran).2.symm

theorem calling_ok {α : Type} {f : σ → Except IngestFailure (α × σ)} {a : α}
    (ran : calling f s = .ok (a, s')) : ∃ rest, f s.rest = .ok (a, rest) ∧ s' = { s with rest } := by
  unfold calling at ran
  obtain ⟨⟨b, rest⟩, answered, same⟩ := Except.map_eq_ok.mp ran
  cases same
  exact ⟨rest, answered, rfl⟩

theorem keeps_coolingDown {domain : String} : ∀ resources : List String,
    Keeps (Aside ports) (coolingDown domain now resources)
  | [] => Keeps.pure
  | _ :: rest => by
    unfold coolingDown
    refine Keeps.bind (R := Aside ports) (Keeps.write fun s => ⟨rfl, rfl, .refl s.rest⟩) fun _ => ?_
    refine Keeps.bind (R := Aside ports) Keeps.reading fun row => ?_
    refine Keeps.bind (R := Aside ports) Keeps.need fun cooldownUntil => ?_
    by_cases blocked : now < cooldownUntil
    · rw [if_pos blocked]
      exact Keeps.pure
    · rw [if_neg blocked]
      exact keeps_coolingDown rest

/-- The key points at no investigation that goes on. -/
def Unattended (ports : IngestPorts σ) (rest : σ) (active : Option String) : Prop :=
  ∀ id ∈ active, ¬ ports.Ongoing rest id

theorem activeInvestigation_ok {actor : ActorContext} {active : Option String}
    {found : Option AdmissionInvestigation}
    (ran : activeInvestigation ports actor active s = .ok (found, s')) :
    s' = s ∧ ((found.filter fun investigation => ongoing investigation.lifecycle) = none →
      Unattended ports s.rest active) := by
  unfold activeInvestigation at ran
  cases active with
  | none =>
    obtain ⟨-, rfl⟩ := pure_ok.mp ran
    exact ⟨rfl, fun _ => nofun⟩
  | some id =>
    dsimp only at ran
    rw [reading_bind_ok] at ran
    obtain ⟨_, -, ran⟩ := need_bind_ok.mp ran
    obtain ⟨investigation, loaded, ran⟩ := (keeps_asking _).bind_ok ran
    obtain ⟨_, -, ran⟩ := (keeps_asking _).bind_ok ran
    obtain ⟨rfl, rfl⟩ := pure_ok.mp ran
    refine ⟨rfl, fun past id' own => ?_⟩
    cases own
    rintro ⟨other, loaded', goes⟩
    rw [(asking_ok.mp loaded).1] at loaded'
    cases loaded'
    rw [Option.filter_some, if_pos (decide_eq_true goes)] at past
    cases past

/-! ## Outcomes -/

/-- A row with what its receipt says. -/
def StoredEvent.settled (row : StoredEvent) (r : EventReceipt) : StoredEvent :=
  { row with
    disposition := r.disposition
    suppressionReason := r.suppressionReason
    investigationId := r.investigationId
    requestId := r.requestId
    previousInvestigationId := r.previousInvestigationId }

theorem linkEvent_ok {id : String} {investigationId : Option String} {u : Unit}
    (ran : linkEvent id investigationId s = .ok (u, s')) :
    s'.events = s.events ∧ s'.keys = s.keys ∧ s'.rest = s.rest := by
  cases investigationId with
  | none =>
    obtain ⟨-, rfl⟩ := pure_ok.mp ran
    exact ⟨rfl, rfl, rfl⟩
  | some investigation =>
    unfold linkEvent at ran
    rw [reading_bind_ok] at ran
    obtain ⟨-, wrote⟩ := ensure_bind_ok.mp ran
    obtain rfl := write_ok.mp wrote
    exact ⟨rfl, rfl, rfl⟩

theorem outcome_ok {disposition : Disposition} {reason : Option SuppressionReason}
    {investigationId requestId previousId : Option String}
    (ran : outcome event disposition reason investigationId requestId previousId s = .ok (r, s')) :
    r = ⟨event.id, false, disposition, reason, investigationId, requestId, previousId⟩ ∧
      s'.events = (setEvent event (·.settled r) s).events ∧ s'.keys = s.keys ∧ s'.rest = s.rest := by
  unfold outcome at ran
  rw [write_bind_ok] at ran
  obtain ⟨_, s₁, linked, ran⟩ := bind_ok.mp ran
  obtain ⟨events, keys, rest⟩ := linkEvent_ok linked
  obtain ⟨rfl, rfl⟩ := pure_ok.mp ran
  exact ⟨rfl, events, keys, rest⟩

/-- The policy lets the event through: enough were counted, or it is critical on its own. -/
def Suffices (p : TriggerPolicy) (event : OperationalEvent) (windowCount : Nat) : Prop :=
  p.threshold ≤ windowCount ∨ p.criticalSingle = true ∧ event.severity = .critical

/-- A reason that a policy excludes an event for. -/
def excludes : Option SuppressionReason → Bool
  | some (.trigger reason) => reason.isExclusion
  | some (.budget _) | none => false

/-- What the transaction leaves after the counting. -/
structure Concluded (ports : IngestPorts σ) (p : TriggerPolicy) (event : OperationalEvent)
    (fingerprint : String) (active : Option String) (windowCount : Nat) (s s' : IngestStore σ)
    (r : EventReceipt) : Prop where
  eventId : r.eventId = event.id
  duplicate : r.duplicate = false
  reason : excludes r.suppressionReason = false
  events : s'.events = (setEvent event (·.settled r) s).events
  known : ∀ id, ports.Known s.rest id → ports.Known s'.rest id
  opened : ∀ id, ports.Ongoing s'.rest id → ports.Ongoing s.rest id ∨
    r.disposition = .accepted ∧ r.investigationId = some id
  new : r.disposition = .accepted → ∀ id ∈ r.investigationId,
    ¬ ports.Known s.rest id ∧ ports.Known s'.rest id
  kept : r.disposition ≠ .accepted → s'.keys = s.keys
  admitted : r.disposition = .accepted → Suffices p event windowCount ∧
    Unattended ports s.rest active ∧ s'.keys = (setKey fingerprint (fun row =>
      { row with
        activeInvestigationId := r.investigationId
        firstRequestId := r.requestId }) s).keys

section Conclusions

variable {fingerprint : String} {active : Option String} {windowCount : Nat}
  {disposition : Disposition} {reason : Option SuppressionReason}
  {investigationId requestId previousId : Option String} {aggregate : TriggerKeyRow}

theorem Concluded.of_outcome {s₁ : IngestStore σ} {p : TriggerPolicy} (before : Aside ports s s₁)
    (other : disposition ≠ .accepted) (late : excludes reason = false)
    (ran : outcome event disposition reason investigationId requestId previousId s₁ = .ok (r, s')) :
    Concluded ports p event fingerprint active windowCount s s' r := by
  obtain ⟨rfl, events, keys, rest⟩ := outcome_ok ran
  refine ⟨rfl, rfl, late, ?_, fun id there => ?_, fun id goes => .inl ?_,
    fun accepted => absurd accepted other, fun _ => ?_, fun accepted => ?_⟩
  · rw [events, setEvent, before.events, setEvent]
  · exact rest ▸ before.rest.known id there
  · exact before.rest.opened id (rest ▸ goes)
  · rw [keys, before.keys]
  · exact absurd accepted other

theorem map_inl_ok {α β : Type} {x : Body (IngestStore σ) IngestFailure α} {a : α ⊕ β}
    (ran : (Sum.inl <$> x : Body (IngestStore σ) IngestFailure (α ⊕ β)) s = .ok (a, s')) :
    ∃ b, a = .inl b ∧ x s = .ok (b, s') := by
  rw [map_eq_pure_bind] at ran
  obtain ⟨b, s₁, first, ran⟩ := bind_ok.mp ran
  obtain ⟨rfl, rfl⟩ := pure_ok.mp ran
  exact ⟨b, rfl, first⟩

theorem consider_ok (reopens : ports.NeverReopens) {a : EventReceipt ⊕ Option String}
    (ran : consider host ports binding event aggregate windowCount now s = .ok (a, s')) :
    (∃ r, a = .inl r ∧ Concluded ports binding.policy event fingerprint
        aggregate.activeInvestigationId windowCount s s' r) ∨
      (∃ previousId, a = .inr previousId) ∧ Aside ports s s' ∧
        Suffices binding.policy event windowCount ∧
        Unattended ports s.rest aggregate.activeInvestigationId := by
  unfold consider at ran
  obtain ⟨_, -, ran⟩ := Keeps.bind_ok (x := authorizeSubject host ports binding event)
    (keeps_asking _) ran
  obtain ⟨found, s₁, first, after⟩ := bind_ok.mp ran
  obtain ⟨rfl, unattended⟩ := activeInvestigation_ok first
  dsimp only at after
  cases goes : found.filter fun investigation => ongoing investigation.lifecycle with
  | some investigation =>
    rw [goes] at after
    obtain ⟨r, rfl, ended⟩ := map_inl_ok after
    exact .inl ⟨r, rfl, .of_outcome (refl_of _ _) (by decide) (by rfl) ended⟩
  | none =>
    rw [goes] at after
    dsimp only at after
    split at after
    · obtain ⟨r, rfl, ended⟩ := map_inl_ok after
      exact .inl ⟨r, rfl, .of_outcome (refl_of _ _) (by decide) (by rfl) ended⟩
    next passes =>
      obtain ⟨_, s₂, prepared, after⟩ := bind_ok.mp after
      obtain ⟨rest, made, rfl⟩ := calling_ok prepared
      have aside₂ : Aside ports s₁ { s₁ with rest } := ⟨rfl, rfl, reopens.prepare _ _ _ made⟩
      obtain ⟨blocked, s₃, cooled, after⟩ := bind_ok.mp after
      have aside₃ := trans_of (Aside ports) aside₂ (keeps_coolingDown _ _ _ _ cooled)
      cases blocked with
      | true =>
        obtain ⟨r, rfl, ended⟩ := map_inl_ok after
        exact .inl ⟨r, rfl, .of_outcome aside₃ (by decide) (by rfl) ended⟩
      | false =>
        obtain ⟨rfl, rfl⟩ := pure_ok.mp after
        refine .inr ⟨⟨_, rfl⟩, aside₃, ?_, unattended goes⟩
        by_cases reached : binding.policy.threshold ≤ windowCount
        · exact .inl reached
        · exact .inr (not_not.mp fun absent => passes ⟨not_le.mp reached, absent⟩)

theorem admit_ok (reopens : ports.NeverReopens) {a : EventReceipt ⊕ SuppressionReason × Option String}
    (enough : Suffices binding.policy event windowCount)
    (unattended : Unattended ports s.rest active)
    (ran : admitEvent host ports binding context event fingerprint previousId now s = .ok (a, s')) :
    (∃ r, a = .inl r ∧
        Concluded ports binding.policy event fingerprint active windowCount s s' r) ∨
      ∃ reason previousId, a = .inr (.budget reason, previousId) := by
  unfold admitEvent at ran
  obtain ⟨created, s₁, first, ran⟩ := bind_ok.mp ran
  obtain ⟨rest, made, rfl⟩ := calling_ok first
  obtain ⟨requestId, -, ran⟩ := need_bind_ok.mp ran
  obtain ⟨profile, -, ran⟩ := need_bind_ok.mp ran
  obtain ⟨budget, s₂, second, ran⟩ := bind_ok.mp ran
  obtain ⟨rest', reserved, rfl⟩ := calling_ok second
  cases budget with
  | refused reason =>
    obtain ⟨rfl, -⟩ := pure_ok.mp ran
    exact .inr ⟨reason, previousId, rfl⟩
  | accepted reused reservation =>
    rw [write_bind_ok, write_bind_ok] at ran
    obtain ⟨r, rfl, ended⟩ := map_inl_ok ran
    obtain ⟨rfl, events, keys, same⟩ := outcome_ok ended
    obtain ⟨absent, there, known, opened⟩ := reopens.create _ _ _ _ _ made
    have leaves := reopens.reserve _ _ _ _ reserved
    refine .inl ⟨_, rfl, rfl, rfl, rfl, events, fun id old => ?_, fun id goes => ?_, fun _ id own => ?_,
      fun other => absurd rfl other, fun _ => ⟨enough, unattended, keys⟩⟩
    · rw [same]
      exact leaves.known id (known id old)
    · rw [same] at goes
      by_cases new : id = created.investigationId
      · exact .inr ⟨rfl, congrArg some new.symm⟩
      · exact .inl (opened id new (leaves.opened id goes))
    · obtain rfl := Option.mem_some_iff.mp own
      exact ⟨absent, same ▸ leaves.known _ there⟩

theorem dispose_ok (reopens : ports.NeverReopens)
    (ran : dispose host ports binding context event fingerprint aggregate windowCount now s =
      .ok (r, s')) :
    Concluded ports binding.policy event fingerprint aggregate.activeInvestigationId windowCount s s'
      r := by
  unfold dispose at ran
  obtain ⟨considered, s₁, first, after⟩ := bind_ok.mp ran
  rcases considered with considered | ⟨⟩
  · obtain ⟨_, same, first⟩ := map_inl_ok (savepoint_inl first)
    cases same
    rcases consider_ok reopens first with
      ⟨r', rfl, ended⟩ | ⟨⟨previousId, rfl⟩, aside, enough, unattended⟩
    · obtain ⟨rfl, rfl⟩ := pure_ok.mp after
      exact ended
    · obtain ⟨admitted, s₂, second, last⟩ := bind_ok.mp after
      have unattended₁ : Unattended ports s₁.rest aggregate.activeInvestigationId :=
        fun id own goes => unattended id own (aside.rest.opened id goes)
      rcases admitted with r' | ⟨reason, previousId'⟩
      · obtain ⟨rfl, rfl⟩ := pure_ok.mp last
        rcases admit_ok reopens enough unattended₁ (savepoint_inl second) with
          ⟨_, same, ended⟩ | ⟨_, _, absurd⟩
        · cases same
          refine ⟨ended.eventId, ended.duplicate, ended.reason, ?_, fun id old => ?_,
            fun id goes => ?_, fun accepted id own => ?_,
            fun other => (ended.kept other).trans aside.keys, fun accepted => ⟨enough, unattended, ?_⟩⟩
          · rw [ended.events, setEvent, aside.events, setEvent]
          · exact ended.known id (aside.rest.known id old)
          · exact (ended.opened id goes).imp_left (aside.rest.opened id)
          · obtain ⟨absent, there⟩ := ended.new accepted id own
            exact ⟨fun old => absent (aside.rest.known id old), there⟩
          · rw [(ended.admitted accepted).2.2, setKey, aside.keys, setKey]
        · cases absurd
      · obtain ⟨rfl, given⟩ := savepoint_inr second
        refine .of_outcome aside (by decide) ?_ last
        rcases given with ⟨s₃, gave⟩ | ⟨e, -, caught⟩
        · rcases admit_ok reopens enough unattended₁ gave with ⟨_, absurd, -⟩ | ⟨_, _, same⟩
          · cases absurd
          · cases same
            rfl
        · split at caught
          · cases caught
            rfl
          · cases caught
  · obtain ⟨rfl, -⟩ := savepoint_inr first
    exact .of_outcome (refl_of _ _) (by decide) (by rfl) after

end Conclusions

/-! ## The transaction -/

/-- The row of a trigger key that has none. -/
def newKey (p : TriggerPolicy) (identity : TriggerIdentity) (now : Int) : TriggerKeyRow where
  policyId := p.id
  policyVersion := p.version
  scopeHash := identity.scopeHash
  fingerprint := identity.fingerprint
  policyHash := identity.policyHash
  windowStartedAt := now
  lastSeen := now

theorem countUnderKey_ok {identity : TriggerIdentity} {aggregate : TriggerKeyRow}
    (ran : countUnderKey binding event identity now s = .ok (aggregate, s')) :
    aggregate = (s.keys.get identity.fingerprint).getD (newKey binding.policy identity now) ∧
      aggregate.policyHash = identity.policyHash ∧ s'.events = s.events ∧ s'.rest = s.rest ∧
      ∀ k, s'.keys.get k = if k = identity.fingerprint then
        some (countEvent binding.policy.windowMs now (policyExclusion event binding).isSome aggregate)
      else s.keys.get k := by
  unfold countUnderKey at ran
  rw [write_bind_ok, reading_bind_ok] at ran
  obtain ⟨row, found, ran⟩ := need_bind_ok.mp ran
  obtain ⟨pinned, ran⟩ := ensure_bind_ok.mp ran
  rw [write_bind_ok] at ran
  obtain ⟨rfl, rfl⟩ := pure_ok.mp ran
  have same : aggregate = (s.keys.get identity.fingerprint).getD
      (newKey binding.policy identity now) := by
    rw [Table.get_insertNew] at found
    cases there : s.keys.get identity.fingerprint with
    | none =>
      rw [if_pos ⟨rfl, there⟩] at found
      cases found
      rfl
    | some old =>
      rw [if_neg fun new => ?_, there] at found
      · cases found
        rfl
      · rw [there] at new
        cases new.2
  refine ⟨same, pinned, rfl, rfl, fun k => ?_⟩
  rw [setKey, Table.get_updateWhere]
  split
  next => rw [found, Option.map_some, if_pos rfl]
  next other => rw [Table.get_insertNew, if_neg fun new => other new.1]

/-- What an outcome makes of the row of the key. -/
def keyAfter (r : EventReceipt) (key : TriggerKeyRow) : TriggerKeyRow :=
  if r.disposition = .accepted then
    { key with
      activeInvestigationId := r.investigationId
      firstRequestId := r.requestId }
  else key

/-- What a transaction leaves that has stored its delivery. -/
structure Ingested (host : IngestHost) (ports : IngestPorts σ) (binding : TriggerBinding)
    (context : Option Json) (event : OperationalEvent) (now : Int) (s s' : IngestStore σ)
    (r : EventReceipt) (row : StoredEvent) (aggregate : TriggerKeyRow) : Prop where
  absent : s.events.get (event.source, event.sourceEventId) = none
  built : row = StoredEvent.settled
    { id := event.id
      commandHash := host.stableHash (commandContent context event.toEventInput)
      event
      fingerprint := (host.triggerIdentity event binding).fingerprint } r
  answers : r = receipt row
  events : ∀ d, s'.events.get d =
    if d = (event.source, event.sourceEventId) then some row else s.events.get d
  reason : excludes r.suppressionReason = (policyExclusion event binding).isSome
  before : aggregate = (s.keys.get row.fingerprint).getD
    (newKey binding.policy (host.triggerIdentity event binding) now)
  pinned : aggregate.policyHash = host.stableHash binding.policy.toJson
  others : ∀ k, k ≠ row.fingerprint → s'.keys.get k = s.keys.get k
  counted : s'.keys.get row.fingerprint = some (keyAfter r
    (countEvent binding.policy.windowMs now (policyExclusion event binding).isSome aggregate))
  known : ∀ id, ports.Known s.rest id → ports.Known s'.rest id
  opened : ∀ id, ports.Ongoing s'.rest id → ports.Ongoing s.rest id ∨
    r.disposition = .accepted ∧ r.investigationId = some id
  new : r.disposition = .accepted → ∀ id ∈ r.investigationId,
    ¬ ports.Known s.rest id ∧ ports.Known s'.rest id
  admitted : r.disposition = .accepted → policyExclusion event binding = none ∧
    Suffices binding.policy event (countEvent binding.policy.windowMs now false aggregate).windowCount ∧
    Unattended ports s.rest aggregate.activeInvestigationId

/-- A delivery that is there is answered from its row, and nothing changes. -/
structure Redelivered (host : IngestHost) (context : Option Json) (input : EventInput)
    (stored : StoredEvent) (s s' : IngestStore σ) (r : EventReceipt) : Prop where
  same : stored.commandHash = host.stableHash (commandContent context input)
  answers : r = receipt stored true
  store : s' = s

/-- The row of a new delivery, before its outcome. -/
def newRow (host : IngestHost) (binding : TriggerBinding) (context : Option Json)
    (event : OperationalEvent) : StoredEvent where
  id := event.id
  commandHash := host.stableHash (commandContent context event.toEventInput)
  event
  fingerprint := (host.triggerIdentity event binding).fingerprint

theorem readable_ok {actor : ActorContext} {investigationId : Option String} {u : Unit}
    (ran : readable ports actor investigationId s = .ok (u, s')) : s' = s := by
  cases investigationId with
  | none => exact (pure_ok.mp ran).2
  | some id =>
    unfold readable at ran
    obtain ⟨investigation, -, ran⟩ := (keeps_asking _).bind_ok ran
    exact (asking_ok.mp ran).2

theorem insertEvent_of_new {row : StoredEvent} (new : ¬ ∃ stored ∈ s.events.toList, stored.id = row.id) :
    insertEvent row s =
      { s with events := s.events.insertNew (row.event.source, row.event.sourceEventId) row } :=
  if_neg new

theorem insertEvent_of_taken {row old : StoredEvent}
    (taken : s.events.get (row.event.source, row.event.sourceEventId) = some old) :
    insertEvent row s = s := by
  unfold insertEvent
  split
  next => rfl
  next => rw [Table.insertNew, taken, Option.isSome_some, if_pos rfl]

theorem get_setEvent_of_new {row : StoredEvent} {set : StoredEvent → StoredEvent} {s₁ : IngestStore σ}
    (absent : s.events.get (event.source, event.sourceEventId) = none) (own : row.id = event.id)
    (events : s₁.events = s.events.insertNew (event.source, event.sourceEventId) row) (d : Delivery) :
    (setEvent event set s₁).events.get d =
      if d = (event.source, event.sourceEventId) then some (set row) else s.events.get d := by
  rw [setEvent, Table.get_updateWhere, events]
  split
  next =>
    rw [Table.get_insertNew, if_pos ⟨rfl, absent⟩, Option.map_some, if_pos (decide_eq_true own)]
  next other => rw [Table.get_insertNew, if_neg fun new => other new.1]

theorem ingested_of_new {s₁ : IngestStore σ} {aggregate : TriggerKeyRow} (reopens : ports.NeverReopens)
    (absent : s.events.get (event.source, event.sourceEventId) = none)
    (new : ¬ ∃ stored ∈ s.events.toList, stored.id = (newRow host binding context event).id)
    (counts : countUnderKey binding event (host.triggerIdentity event binding) now
      (insertEvent (newRow host binding context event) s) = .ok (aggregate, s₁))
    (ran : (match policyExclusion event binding with
      | some reason => outcome event .suppressed (some (.trigger reason)) none none none
      | none => dispose host ports binding context event
          (host.triggerIdentity event binding).fingerprint aggregate
          (countEvent binding.policy.windowMs now (policyExclusion event binding).isSome
            aggregate).windowCount now) s₁ = .ok (r, s')) :
    Ingested host ports binding context event now s s' r ((newRow host binding context event).settled r)
      aggregate := by
  obtain ⟨before, pinned, events, rest, keys⟩ := countUnderKey_ok counts
  rw [insertEvent_of_new new] at before events rest keys
  have own := keys (host.triggerIdentity event binding).fingerprint
  rw [if_pos rfl] at own
  have others (k : String) (other : k ≠ (host.triggerIdentity event binding).fingerprint) :
      s₁.keys.get k = s.keys.get k := (keys k).trans (if_neg other)
  have stored (d : Delivery) : (setEvent event (·.settled r) s₁).events.get d = _ :=
    get_setEvent_of_new absent rfl events d
  cases exclusion : policyExclusion event binding with
  | some reason =>
    rw [exclusion] at ran
    obtain ⟨rfl, events', keys', rest'⟩ := outcome_ok ran
    refine ⟨absent, rfl, rfl, fun d => ?_, ?_, before, pinned, fun k other => ?_, keys' ▸ own,
      fun id old => ?_, fun id goes => .inl ?_, nofun, nofun⟩
    · rw [events']
      exact stored d
    · rw [exclusion]
      exact policyExclusion_isExclusion exclusion
    · rw [keys']
      exact others k other
    · rw [rest', rest]
      exact old
    · rw [rest', rest] at goes
      exact goes
  | none =>
    rw [exclusion] at ran
    have ended := dispose_ok reopens ran
    have answers : r = receipt ((newRow host binding context event).settled r) := by
      obtain ⟨id, duplicate⟩ := And.intro ended.eventId ended.duplicate
      cases r
      cases id
      cases duplicate
      rfl
    refine ⟨absent, rfl, answers, fun d => ?_, ?_, before, pinned, fun k other => ?_, ?_,
      fun id old => ?_, fun id goes => ?_, fun accepted id own => ?_, fun accepted => ?_⟩
    · rw [ended.events]
      exact stored d
    · rw [exclusion]
      exact ended.reason
    · by_cases accepted : r.disposition = .accepted
      · rw [(ended.admitted accepted).2.2, setKey]
        exact (Table.get_updateWhere_ne other).trans (others k other)
      · rw [ended.kept accepted]
        exact others k other
    · by_cases accepted : r.disposition = .accepted
      · rw [keyAfter, if_pos accepted, (ended.admitted accepted).2.2, setKey]
        exact (Table.get_updateWhere.trans (if_pos rfl)).trans (congrArg (Option.map _) own)
      · rw [keyAfter, if_neg accepted, ended.kept accepted]
        exact own
    · exact ended.known id (rest ▸ old)
    · have goes := ended.opened id goes
      rw [rest] at goes
      exact goes
    · obtain ⟨absent, there⟩ := ended.new accepted id own
      rw [rest] at absent
      exact ⟨absent, there⟩
    · obtain ⟨enough, unattended, -⟩ := ended.admitted accepted
      exact ⟨exclusion, enough, rest ▸ unattended⟩

theorem ingestBody_ok {input : EventInput} {id : String} (reopens : ports.NeverReopens)
    (unused : ∀ d row, s.events.get d = some row → row.id ≠ id)
    (ran : ingestBody host ports binding context input id now s = .ok (r, s')) :
    normalizeEvent input binding id now = .ok ⟨input, id, binding.source, now⟩ ∧
      ((∃ stored, s.events.get (binding.source, input.sourceEventId) = some stored ∧
          Redelivered host context input stored s s' r) ∨
        ∃ row aggregate, Ingested host ports binding context ⟨input, id, binding.source, now⟩ now s s'
          r row aggregate) := by
  unfold ingestBody at ran
  obtain ⟨event, asked, ran⟩ := (keeps_asking _).bind_ok ran
  have normal := Except.mapError_eq_ok.mp (asking_ok.mp asked).1
  obtain rfl := normalizeEvent_ok normal
  refine ⟨normal, ?_⟩
  dsimp only at ran
  rw [write_bind_ok, reading_bind_ok] at ran
  obtain ⟨stored, found, ran⟩ := need_bind_ok.mp ran
  obtain ⟨command, ran⟩ := ensure_bind_ok.mp ran
  have new : ¬ ∃ stored ∈ s.events.toList, stored.id = id := by
    rintro ⟨row, mem, same⟩
    obtain ⟨d, held⟩ := Table.mem_toList.mp mem
    exact unused d row held same
  cases there : s.events.get (binding.source, input.sourceEventId) with
  | some old =>
    rw [insertEvent_of_taken there] at found ran
    obtain rfl := some.inj (there.symm.trans found)
    rw [if_pos (unused _ _ there)] at ran
    unfold redeliver at ran
    obtain ⟨_, s₁, may, after⟩ := bind_ok.mp ran
    obtain rfl := readable_ok may
    obtain ⟨rfl, rfl⟩ := pure_ok.mp after
    exact .inl ⟨old, rfl, command, rfl, rfl⟩
  | none =>
    rw [insertEvent_of_new new, Table.get_insertNew, if_pos ⟨rfl, there⟩] at found
    cases found
    rw [if_neg (not_not.mpr rfl)] at ran
    obtain ⟨aggregate, s₁, counts, ran⟩ := bind_ok.mp ran
    exact .inr ⟨_, aggregate, ingested_of_new reopens there new counts ran⟩

end Slide.Events
