import Slide.Investigations.AllocationReread
import Slide.Investigations.BudgetBounds
import Slide.Investigations.BudgetKept
import Mathlib.Data.List.Find

/-!
# A stored receipt is used again

`reuseExecutionInTransaction` rebuilds the command of a receipt from a JSON column and asks the ledger
for it once more.  Everything is rebuilt in a fixed order but a task configuration, which keeps the
order the column returns; the digest of the command sees that order.

* `BudgetLedger.input_reread`: the rebuilt command is the stored one exactly when the column keeps the
  order of its task configuration.
* `receipt_reusable`: so the receipt is used again exactly then.
-/

namespace Slide.Investigations

open Display Transition

variable {host : BudgetHost} {ledger later : BudgetLedger} {s t u : BudgetStore} {row : LedgerRow}
  {value command input : BudgetReservationInput} {limit limit' : Option Int} {now : Instant}
  {id domain : String} {keys : List String} {admission : BudgetAdmission}

/-! ## The command read again -/

theorem configurationCopy_copy (config : Json) :
    configurationCopy (configurationCopy config) = configurationCopy config := by
  unfold configurationCopy
  by_cases task : isTaskConfiguration config
  · rw [if_pos task, if_pos task]
  · rw [if_neg task, if_neg (by decide)]

theorem configurationCopy_congr {config config' : Json} (equal : config.deepEqual config') :
    (configurationCopy config).deepEqual (configurationCopy config') := by
  unfold configurationCopy
  by_cases task : isTaskConfiguration config
  · rw [if_pos task, if_pos ((isTaskConfiguration_congr equal).mp task)]
    exact equal
  · rw [if_neg task, if_neg fun task' => task ((isTaskConfiguration_congr equal).mpr task')]
    rfl

/-- The binding under which a command reads its own allocation. -/
def BudgetReservationInput.binding (value : BudgetReservationInput) (investigationId : String) :
    AllocationBinding where
  requestId := value.requestId
  investigationId
  domain := value.domain
  mode := value.mode
  profile := value.profile

/-- The allocation of the command around a configuration. -/
def BudgetReservationInput.around (host : BudgetHost) (value : BudgetReservationInput)
    (policy : BudgetPolicy) (investigationId : String) (config : Json) : BudgetReservationInput :=
  let allocation :=
    frozenAllocation host (configurationCopy config) (value.binding investigationId) policy
  { value with executionAllocation := some allocation }

theorem around_copy {policy : BudgetPolicy} {investigationId : String} {config : Json} :
    value.around host policy investigationId (configurationCopy config) =
      value.around host policy investigationId config := by
  unfold BudgetReservationInput.around
  rw [configurationCopy_copy]

theorem reservationInput_congr (ok : reservationInput value limit = .ok command)
    (enough : ∀ tokens ∈ tokenCeiling value.profile limit', value.reserveTokens ≤ tokens)
    (allocation : Option Json) :
    reservationInput { value with executionAllocation := allocation } limit' =
      .ok { value with executionAllocation := allocation } := by
  unfold reservationInput at ok ⊢
  split at ok
  next passed =>
    obtain ⟨uuid, operation, domain, profile, tokens, -, cost, covered⟩ := passed
    exact if_pos ⟨uuid, operation, domain, profile, tokens, enough, cost, covered⟩
  · cases ok

theorem BudgetLedger.input_congr {candidate candidate' : Json}
    (given : value.executionAllocation = some candidate) (equal : candidate.deepEqual candidate')
    (ok : ledger.input host value limit = .ok command)
    (task : later.taskExecution = ledger.taskExecution) (policy : later.policy = ledger.policy)
    (limit' : Option Int) :
    ∃ investigationId config config', candidate.at? "configuration" = some config ∧
      candidate'.at? "configuration" = some config' ∧ config.deepEqual config' ∧
      command = value.around host ledger.policy investigationId config ∧
      candidate.deepEqual (frozenAllocation host (configurationCopy config)
        (value.binding investigationId) ledger.policy) ∧
      later.input host { value with executionAllocation := some candidate' } limit' =
        .ok (value.around host ledger.policy investigationId config') := by
  unfold BudgetLedger.input at ok
  rw [given] at ok
  dsimp only at ok
  obtain ⟨allocation, read, ok⟩ := bind_eq_ok.mp ok
  obtain ⟨total, ok⟩ := guard_eq_ok.mp ok
  obtain ⟨config, config', found, found', configs, copy, rfl, frozen, read'⟩ :=
    readExecutionAllocation_congr equal read
  obtain ⟨rfl, -⟩ := reservationInput_eq_ok ok
  refine ⟨_, config, config', found, found', configs, rfl, frozen, ?_⟩
  unfold BudgetLedger.input
  dsimp only
  rw [← equal.string? "investigationId", task, policy]
  refine bind_eq_ok.mpr ⟨_, read', guard_eq_ok.mpr ⟨?_, ?_⟩⟩
  · rw [Option.bind_some, frozenAllocation_configuration, Option.bind_some] at total ⊢
    rwa [← (configurationCopy_congr configs).int? "maxTotalTokens"]
  · rw [Option.bind_some, frozenAllocation_configuration, Option.bind_some] at total ⊢
    rw [← (configurationCopy_congr configs).int? "maxTotalTokens", not_not.mp total]
    have plain : reservationInput value (some value.reserveTokens) = .ok value := by
      rw [Option.bind_some, frozenAllocation_configuration, Option.bind_some, not_not.mp total] at ok
      unfold reservationInput at ok ⊢
      split at ok
      next passed => exact if_pos passed
      · cases ok
    refine reservationInput_congr plain (fun tokens mem => ?_) _
    cases mem
    exact le_rfl

theorem BudgetLedger.input_plain (given : value.executionAllocation = none) :
    ledger.input host value limit = reservationInput value limit := by
  unfold BudgetLedger.input
  rw [given]

theorem BudgetLedger.input_uuid (ok : ledger.input host value limit = .ok command) :
    isUuid command.requestId := by
  have checked {value : BudgetReservationInput} {limit : Option Int}
      (ok : reservationInput value limit = .ok command) : isUuid command.requestId := by
    unfold reservationInput at ok
    split at ok
    next passed =>
      cases ok
      exact passed.1
    · cases ok
  unfold BudgetLedger.input at ok
  split at ok
  · exact checked ok
  · obtain ⟨_, -, ok⟩ := bind_eq_ok.mp ok
    obtain ⟨-, ok⟩ := guard_eq_ok.mp ok
    exact checked ok

theorem BudgetLedger.input_fixed (ok : ledger.input host value limit = .ok command) :
    ledger.input host command limit = .ok command := by
  cases given : value.executionAllocation with
  | none =>
    obtain ⟨rfl, -⟩ := reservationInput_eq_ok (input_plain given ▸ ok)
    exact ok
  | some candidate =>
    obtain ⟨_, config, _, found, -, -, same, frozen, -⟩ :=
      ledger.input_congr given (Eq.refl candidate.canonical) ok rfl rfl limit
    obtain ⟨_, _, _, found', rebuilt, -, same', -, again⟩ :=
      ledger.input_congr given frozen ok rfl rfl limit
    cases found.symm.trans found'
    cases frozenAllocation_configuration.symm.trans rebuilt
    rw [around_copy, ← same'] at again
    exact (congrArg (fun c => ledger.input host c limit) same).trans again

/-- The column returns a task configuration in the order in which the command holds it. -/
def BudgetReservationInput.KeepsTask (host : BudgetHost) (command : BudgetReservationInput) : Prop :=
  ∀ allocation ∈ command.executionAllocation,
    configurationId allocation = some (.string "MAX-222/task-v1") →
      (host.column allocation).at? "configuration" = allocation.at? "configuration"

theorem BudgetLedger.input_reread (column : ∀ value, (host.column value).deepEqual value)
    (ok : ledger.input host value limit = .ok command)
    (task : later.taskExecution = ledger.taskExecution)
    (policy : command.executionAllocation.isSome → later.policy = ledger.policy)
    (enough : ∀ tokens ∈ tokenCeiling command.profile limit', command.reserveTokens ≤ tokens) :
    ∃ again : BudgetReservationInput,
      later.input host
        { command with executionAllocation := command.executionAllocation.map host.column } limit' =
          .ok again ∧
      later.input host again limit' = .ok again ∧
      again = { command with executionAllocation := again.executionAllocation } ∧
      again.executionAllocation.map Json.canonical = command.executionAllocation.map Json.canonical ∧
      (again = command ↔ command.KeepsTask host) := by
  have fixed := ledger.input_fixed ok
  cases given : command.executionAllocation with
  | none =>
    have plain : { command with executionAllocation := none } = command := by
      rw [← given]
    have read : later.input host command limit' = .ok command := by
      rw [input_plain given]
      rw [input_plain given] at fixed
      exact plain ▸ reservationInput_congr fixed enough none
    refine ⟨command, ?_, read, rfl, by rw [given], iff_of_true rfl fun _ mem => ?_⟩
    · rw [Option.map_none, plain, read]
    · cases given.symm.trans mem
  | some allocation =>
    obtain ⟨investigationId, config, config', found, found', configs, same, -, read⟩ :=
      ledger.input_congr given (Eq.symm (column allocation)) fixed task (policy (by rw [given]; rfl)) limit'
    have own : allocation = frozenAllocation host (configurationCopy config)
        (command.binding investigationId) ledger.policy := by
      have held := congrArg BudgetReservationInput.executionAllocation same
      rw [given] at held
      exact some.inj held
    refine ⟨_, read, later.input_fixed read, rfl, ?_, ⟨fun again => ?_, fun keeps => ?_⟩⟩
    · rw [own]
      exact congrArg some (frozenAllocation_congr (configurationCopy_congr (Eq.symm configs)))
    · intro held mem isTask
      cases given.symm.trans mem
      have rebuilt := congrArg BudgetReservationInput.executionAllocation (again.trans same)
      have copies := congrArg (fun a => a.bind (Json.at? "configuration")) rebuilt
      have equal : configurationCopy config' = configurationCopy config := some.inj copies
      obtain ⟨inner, found'', id⟩ := Option.bind_eq_some_iff.mp isTask
      cases found.symm.trans found''
      have id' : isTaskConfiguration config' := (isTaskConfiguration_congr configs).mp id
      rw [configurationCopy, if_pos id', configurationCopy,
        if_pos (show isTaskConfiguration config from id)] at equal
      rw [found, found', equal]
    · have equal : configurationCopy config' = configurationCopy config := by
        by_cases id : isTaskConfiguration config
        · have kept := keeps allocation given (Option.bind_eq_some_iff.mpr ⟨config, found, id⟩)
          rw [found, found'] at kept
          rw [some.inj kept]
        · have id' : ¬ isTaskConfiguration config' := fun id' =>
            id ((isTaskConfiguration_congr configs).mpr id')
          rw [configurationCopy, if_neg id', configurationCopy, if_neg id]
      rw [← around_copy, equal, around_copy]
      exact same.symm

/-! ## The receipt -/

/-- The commands are equal up to the key order of their allocations. -/
structure BudgetReservationInput.Reorders (again command : BudgetReservationInput) : Prop where
  fields : again = { command with executionAllocation := again.executionAllocation }
  allocation : again.executionAllocation.map Json.canonical =
    command.executionAllocation.map Json.canonical

variable {reservation : BudgetReservation} {reused : Bool}

/-- The row that an accepted command stands on, and its request with the receipt. -/
structure Accepted (host : BudgetHost) (ledger : BudgetLedger) (command : BudgetReservationInput)
    (request : RequestRow) (row : LedgerRow) (t : BudgetStore) : Prop where
  fixed : ∃ limit, ledger.input host command limit = .ok command
  operation : command.operationId = "request:" ++ command.requestId
  presented : Presented host ledger command request (t.resourcesOf request)
  mem : row ∈ t.ledger
  requestId : row.requestId = command.requestId
  operationId : row.operationId = command.operationId
  commandHash : row.commandHash = host.hash command.toJson
  requestBudgetHash : row.requestBudgetHash =
    requestHash host command (resourceKeys host request.snapshot (t.resourcesOf request))
  found : t.requests.get command.requestId = some request
  receipt : request.snapshot.budgetReceipt = some (executionReceipt host command row.id)
  domain : (t.domains.get command.domain).isSome

theorem admitCommand_accepted {frozen : BudgetDomain}
    (ok : admitCommand host ledger input limit keys frozen now id s =
      .ok (.accepted reused reservation, t)) :
    t.requests = s.requests ∧ t.resources = s.resources ∧ t.domains = s.domains ∧
      ∃ row ∈ t.ledger, row.id = reservation.id ∧ row.requestId = input.requestId ∧
        row.operationId = input.operationId ∧ row.commandHash = host.hash input.toJson ∧
        row.requestBudgetHash = requestHash host input keys ∧
        (row ∈ s.ledger ∨ row.reservation = input) := by
  have named {row : LedgerRow} (ok : row.record = .ok reservation) : row.id = reservation.id := by
    unfold LedgerRow.record at ok
    split at ok <;> cases ok
    rfl
  unfold admitCommand at ok
  split at ok
  next existing found =>
    obtain ⟨same, ok⟩ := guard_eq_ok.mp ok
    obtain ⟨_, recorded, ok⟩ := bind_eq_ok.mp ok
    cases ok
    rw [not_or, not_not, not_not] at same
    have holds := List.find?_some found
    have own := of_decide_eq_true holds
    have mem := List.mem_of_find?_eq_some found
    exact ⟨rfl, rfl, rfl, existing, mem, named recorded, own.1, own.2, same.1, same.2, .inl mem⟩
  next missing =>
    obtain ⟨-, ok⟩ := guard_eq_ok.mp ok
    obtain ⟨-, ok⟩ := guard_eq_ok.mp ok
    split at ok
    · cases ok
    · obtain ⟨-, ok⟩ := guard_eq_ok.mp ok
      obtain ⟨_, recorded, ok⟩ := bind_eq_ok.mp ok
      cases ok
      exact ⟨rfl, rfl, rfl, _, List.mem_append_right _ (List.mem_singleton_self _), named recorded,
        rfl, rfl, rfl, rfl, .inr rfl⟩

theorem admitCommand_empty {frozen : BudgetDomain} (noRows : s.ledger = [])
    (policy : frozen.policyHash = host.hash ledger.policy.toJson)
    (checked : suppression ledger.policy input limit keys now [] = none) (distinct : keys.Nodup)
    (tokens : integer input.reserveTokens 1) (cost : integer input.reserveCostMicros 1) :
    ∃ reservation t, admitCommand host ledger input limit keys frozen now id s =
      .ok (.accepted false reservation, t) := by
  have stored : (newRow host input keys now id).Stored host := newRow_stored tokens cost
  obtain ⟨reservation, recorded, -⟩ := stored.record
  refine ⟨reservation, { s with ledger := s.ledger ++ [newRow host input keys now id] }, ?_⟩
  unfold admitCommand
  rw [noRows, List.find?_nil]
  dsimp only
  rw [checked]
  refine guard_eq_ok.mpr ⟨not_not.mpr policy, guard_eq_ok.mpr ⟨nofun, ?_⟩⟩
  refine guard_eq_ok.mpr ⟨fun taken => ?_, bind_eq_ok.mpr ⟨reservation, recorded, rfl⟩⟩
  rcases taken with used | repeated
  · cases used
  · exact repeated distinct

theorem BudgetStore.Stored.reserveExecution (stored : s.Stored host) (limit : Option Int)
    (ok : ledger.reserveExecution host value (limit.or ledger.executionTokenLimit) now id s =
      .ok (admission, t)) : t.Stored host := by
  have committed : BudgetOperation.commit host s (.reserveExecution ledger value limit now id) =
      .ok t := Except.map_eq_ok.mpr ⟨_, ok, rfl⟩
  have step := stored.step (.reserveExecution ledger value limit now id)
  unfold BudgetOperation.after at step
  rwa [committed] at step

theorem lockDomain_locked : ((lockDomain host ledger domain s).2.domains.get domain).isSome := by
  unfold lockDomain
  split
  next found => rw [found]; rfl
  next missing => rw [Table.get_put_self]; rfl

theorem BudgetLedger.accepted
    (read : ledger.input host { value with operationId := "request:" ++ value.requestId } limit =
      .ok command)
    (ok : ledger.reserveExecution host value limit now id s = .ok (.accepted reused reservation, t)) :
    ∃ request row, Accepted host ledger command request row t ∧ row.id = reservation.id ∧
      (row ∈ s.ledger ∨ row.reservation = command) := by
  obtain ⟨copy, checked, ok⟩ := bind_eq_ok.mp ok
  cases read.symm.trans checked
  have fixed := ledger.input_fixed read
  obtain ⟨⟨_, whole, -⟩, -⟩ := ledger.input_eq_ok read
  have operation : command.operationId = "request:" ++ command.requestId := by rw [whole]
  obtain ⟨copy, checked, ok⟩ := bind_eq_ok.mp ok
  rw [← operation] at checked
  cases fixed.symm.trans checked
  obtain ⟨⟨given, r⟩, reserved, ok⟩ := bind_eq_ok.mp ok
  obtain ⟨input, request, checked', found, presented, admitted⟩ :=
    ledger.reserveInTransaction_eq_ok reserved
  cases fixed.symm.trans checked'
  dsimp only at ok
  split at ok
  · cases ok
  · cases ok
  next reused' held request' own =>
    obtain ⟨requests, resources, domains, row, mem, named, rowRequest, rowOperation, digest,
      budgetDigest, origin⟩ := admitCommand_accepted admitted
    rw [lockDomain_requests] at requests
    rw [lockDomain_resources] at resources
    rw [lockDomain_ledger] at origin
    have locked : (r.domains.get command.domain).isSome := domains ▸ lockDomain_locked
    rw [requests] at own
    cases found.symm.trans own
    have sameResources : r.resourcesOf request = s.resourcesOf request := by
      unfold BudgetStore.resourcesOf
      rw [resources]
    rw [← sameResources] at presented budgetDigest
    rw [← requests] at found
    split at ok
    next previous written =>
      split at ok
      · cases ok
      next unchanged =>
        cases ok
        exact ⟨request, row, ⟨⟨limit, fixed⟩, operation, presented, mem, rowRequest, rowOperation, digest,
          budgetDigest, found, by rw [written, not_not.mp unchanged, named], locked⟩, named, origin⟩
    next absent =>
      cases ok
      let receipt := executionReceipt host command reservation.id
      let received := { request with snapshot := { request.snapshot with budgetReceipt := some receipt } }
      have presented' : Presented host ledger command received (r.resourcesOf request) :=
        ⟨presented.profile, presented.allocation, presented.resources⟩
      exact ⟨received, row, ⟨⟨limit, fixed⟩, operation, presented', mem, rowRequest, rowOperation, digest,
        budgetDigest, Table.get_put_self, by rw [named], locked⟩, named, origin⟩

variable {request : RequestRow}

theorem BudgetLedger.reserveExecution_of_admitted
    (fixed : ledger.input host command limit = .ok command)
    (operation : command.operationId = "request:" ++ command.requestId)
    (found : s.requests.get command.requestId = some request)
    (absent : request.snapshot.budgetReceipt = none)
    (presented : Presented host ledger command request (s.resourcesOf request))
    (admitted : ∃ reservation t, admitCommand host ledger command limit
      (resourceKeys host request.snapshot (s.resourcesOf request))
      (lockDomain host ledger command.domain s).1 now id (lockDomain host ledger command.domain s).2 =
        .ok (.accepted reused reservation, t)) :
    ∃ reservation t, ledger.reserveExecution host command limit now id s =
      .ok (.accepted reused reservation, t) := by
  obtain ⟨reservation, r, admitted⟩ := admitted
  have whole : { command with operationId := "request:" ++ command.requestId } = command := by
    rw [← operation]
  have read : ledger.input host { command with operationId := "request:" ++ command.requestId } limit =
      .ok command := (congrArg (ledger.input host · limit) whole).trans fixed
  have requests : r.requests.get command.requestId = some request := by
    rw [(admitCommand_accepted admitted).1, lockDomain_requests, found]
  let receipt := executionReceipt host command reservation.id
  let received := { request with snapshot := { request.snapshot with budgetReceipt := some receipt } }
  refine ⟨reservation, { r with requests := r.requests.put command.requestId received }, ?_⟩
  refine bind_eq_ok.mpr ⟨command, read, bind_eq_ok.mpr ⟨command, read, ?_⟩⟩
  rw [← ledger.reserveInTransaction_of_presented fixed found presented] at admitted
  refine bind_eq_ok.mpr ⟨_, admitted, ?_⟩
  dsimp only
  rw [requests]
  dsimp only
  rw [absent]
  rfl

/-! ## Until the receipt is used -/

theorem Accepted.keeps {row' : LedgerRow} {operation : BudgetOperation}
    (accepted : Accepted host ledger command request row s) (stored : s.Stored host)
    (quiet : operation.Quiet command.requestId request.investigationId s)
    (mem : row' ∈ (operation.after host s).ledger) (keeps : row.Keeps row') :
    Accepted host ledger command request row' (operation.after host s) := by
  have receipt : request.snapshot.budgetReceipt ≠ none := by
    rw [accepted.receipt]
    nofun
  obtain ⟨found, resources⟩ := BudgetOperation.after_reads quiet accepted.found receipt
  have same : (operation.after host s).resourcesOf request = s.resourcesOf request := by
    unfold BudgetStore.resourcesOf
    rw [resources]
  exact {
    fixed := accepted.fixed
    operation := accepted.operation
    presented := same ▸ accepted.presented
    mem
    requestId := keeps.requestId.trans accepted.requestId
    operationId := keeps.operationId.trans accepted.operationId
    commandHash := keeps.commandHash.trans accepted.commandHash
    requestBudgetHash := by rw [keeps.requestBudgetHash, accepted.requestBudgetHash, same]
    found
    receipt := by rw [accepted.receipt, keeps.id]
    domain := stored.domain_stays accepted.domain }

/-- One operation of the ledger, or a write of another service elsewhere. -/
def QuietStep (host : BudgetHost) (requestId investigationId : String) (s : BudgetStore)
    (operation : BudgetOperation) (t : BudgetStore) : Prop :=
  operation.Quiet requestId investigationId s ∧ t = operation.after host s

theorem Accepted.stays {operations : List BudgetOperation}
    (accepted : Accepted host ledger command request row s) (stored : s.Stored host)
    (run : Run (QuietStep host command.requestId request.investigationId) s operations t) :
    t.Stored host ∧ ∃ row', row.Keeps row' ∧ Accepted host ledger command request row' t := by
  refine run.invariant (P := fun t => t.Stored host ∧
    ∃ row', row.Keeps row' ∧ Accepted host ledger command request row' t)
    ⟨stored, row, .refl row, accepted⟩ ?_
  rintro t operation _ ⟨stored, row', keeps, accepted⟩ ⟨quiet, rfl⟩
  obtain ⟨row'', mem, keeps'⟩ := stored.row_stays operation accepted.mem
  exact ⟨stored.step operation, row'', keeps.trans keeps', accepted.keeps stored quiet mem keeps'⟩

/-! ## The use of the receipt -/

variable {again : BudgetReservationInput}

theorem Presented.reread {resources : List ResourceRef}
    (presented : Presented host ledger command request resources)
    (reorders : again.Reorders command) (task : later.taskExecution = ledger.taskExecution)
    (policy : command.executionAllocation.isSome → later.policy = ledger.policy) :
    Presented host later again request resources := by
  obtain ⟨allocation, read, same⟩ := presented.allocation
  rw [reorders.fields]
  refine ⟨presented.profile, ⟨allocation, ?_, same.trans reorders.allocation.symm⟩, presented.resources⟩
  dsimp only
  rw [task]
  by_cases given : command.executionAllocation.isSome
  · rw [policy given]
    exact read
  · rw [Option.not_isSome_iff_eq_none.mp given, Option.map_none, Option.map_eq_none_iff] at same
    subst same
    unfold readExecutionAllocation at read ⊢
    obtain ⟨gate, read⟩ := guard_eq_ok.mp read
    refine guard_eq_ok.mpr ⟨gate, ?_⟩
    split at read
    · rfl
    next candidate =>
      dsimp only at read
      obtain ⟨-, read⟩ := guard_eq_ok.mp read
      obtain ⟨_, -, read⟩ := bind_eq_ok.mp read
      obtain ⟨-, read⟩ := guard_eq_ok.mp read
      split at read
      · cases read
      · obtain ⟨_, -, read⟩ := bind_eq_ok.mp read
        obtain ⟨-, read⟩ := guard_eq_ok.mp read
        cases read

theorem requestHash_reorders (reorders : again.Reorders command) :
    requestHash host again keys = requestHash host command keys := by
  rw [reorders.fields]
  rfl

theorem BudgetStore.Stored.find?_operation (stored : s.Stored host) (mem : row ∈ s.ledger) :
    s.ledger.find? (fun other =>
      decide (other.requestId = row.requestId ∧ other.operationId = row.operationId)) = some row := by
  have unique := Keyed.find?_of_mem stored.operations mem
  simpa only [Prod.mk.injEq] using unique

theorem Accepted.reserveInTransaction
    (accepted : Accepted host ledger command request row u) (stored : u.Stored host)
    (reorders : again.Reorders command) (read : later.input host again limit = .ok again)
    (task : later.taskExecution = ledger.taskExecution)
    (policy : command.executionAllocation.isSome → later.policy = ledger.policy) (now : Instant)
    (id : String) :
    (host.hash again.toJson ≠ row.commandHash →
      later.reserveInTransaction host again limit now id u = .error .conflict) ∧
    (host.hash again.toJson = row.commandHash → ∃ reservation, reservation.id = row.id ∧
      later.reserveInTransaction host again limit now id u =
        .ok (.accepted true reservation, (lockDomain host later again.domain u).2)) := by
  have requestId : again.requestId = command.requestId := by rw [reorders.fields]
  have operationId : again.operationId = command.operationId := by rw [reorders.fields]
  have found : u.requests.get again.requestId = some request := requestId ▸ accepted.found
  rw [later.reserveInTransaction_of_presented read found
    (accepted.presented.reread reorders task policy)]
  unfold admitCommand
  have row_found : (lockDomain host later again.domain u).2.ledger.find? (fun row =>
      decide (row.requestId = again.requestId ∧ row.operationId = again.operationId)) = some row := by
    rw [lockDomain_ledger, requestId, operationId, ← accepted.requestId, ← accepted.operationId]
    exact stored.find?_operation accepted.mem
  rw [row_found]
  dsimp only
  rw [requestHash_reorders reorders, ← accepted.requestBudgetHash]
  obtain ⟨reservation, recorded, named⟩ := (stored.rows row accepted.mem).record
  refine ⟨fun differ => ?_, fun same => ⟨reservation, named, ?_⟩⟩
  · rw [if_pos (.inl differ.symm)]
    rfl
  · rw [if_neg (not_or.mpr ⟨not_not.mpr same.symm, not_not.mpr rfl⟩), recorded]
    rfl

/-- The command as its row returns it. -/
def BudgetReservationInput.returned (host : BudgetHost) (command : BudgetReservationInput) :
    BudgetReservationInput :=
  { command with executionAllocation := command.executionAllocation.map host.column }

theorem Accepted.reserveExecutionInTransaction
    (accepted : Accepted host ledger command request row u) (stored : u.Stored host)
    (reorders : again.Reorders command) (read : later.input host again limit = .ok again)
    (rebuilt : later.input host (command.returned host) limit = .ok again)
    (task : later.taskExecution = ledger.taskExecution)
    (policy : command.executionAllocation.isSome → later.policy = ledger.policy) (now : Instant)
    (id : String) :
    (host.hash again.toJson ≠ row.commandHash →
      later.reserveExecutionInTransaction host (command.returned host) limit now id u =
        .error .conflict) ∧
    (again = command → ∃ reservation, reservation.id = row.id ∧
      later.reserveExecutionInTransaction host (command.returned host) limit now id u =
        .ok (.accepted true reservation, (lockDomain host later again.domain u).2)) := by
  have named : { command.returned host with operationId := "request:" ++ command.requestId } =
      command.returned host := by
    unfold BudgetReservationInput.returned
    rw [← accepted.operation]
  obtain ⟨differ, same⟩ := accepted.reserveInTransaction stored reorders read task policy now id
  constructor
  · intro digest
    refine bind_eq_error.mpr (.inr ⟨again, ?_, bind_eq_error.mpr (.inl (differ digest))⟩)
    exact (congrArg (later.input host · limit) named).trans rebuilt
  · intro equal
    obtain ⟨reservation, own, reserved⟩ := same (by rw [equal, accepted.commandHash])
    refine ⟨reservation, own, bind_eq_ok.mpr ⟨again, ?_, ?_⟩⟩
    · exact (congrArg (later.input host · limit) named).trans rebuilt
    · refine bind_eq_ok.mpr ⟨_, reserved, ?_⟩
      dsimp only
      have found : (lockDomain host later again.domain u).2.requests.get again.requestId =
          some request := by
        rw [lockDomain_requests, equal, accepted.found]
      rw [found]
      dsimp only
      rw [accepted.receipt, equal, own]
      exact if_neg (not_not.mpr rfl)

/-- The answer to an admission of the receipt `id`. -/
def reusedReservation (id : String) (result : BudgetAdmission × BudgetStore) :
    Except BudgetLedgerError (BudgetReservation × BudgetStore) :=
  match result.1 with
  | .accepted true reservation =>
    if reservation.id ≠ id then throw .conflict else return (reservation, result.2)
  | _ => throw .conflict

theorem Accepted.reuse_eq (accepted : Accepted host ledger command request row u)
    (stored : u.Stored host) (column : ∀ value, (host.column value).deepEqual value)
    (held : row.reservation = command) (limit : Option Int) (now : Instant) (id : String) :
    later.reuseExecutionInTransaction host command.requestId command.domain command.mode command.profile
        limit now id u =
      later.reserveExecutionInTransaction host (command.returned host)
        (some (max (limit.getD 0) command.reserveTokens)) now id u >>= reusedReservation row.id := by
  obtain ⟨limit', fixed⟩ := accepted.fixed
  have uuid : isUuid command.requestId := ledger.input_uuid fixed
  have receipt : (u.requests.get command.requestId).bind (fun request =>
      request.snapshot.budgetReceipt) = some (executionReceipt host command row.id) := by
    rw [accepted.found, Option.bind_some, accepted.receipt]
  have row_found : u.ledger.find? (fun other =>
      decide (other.id = row.id ∧ other.requestId = command.requestId)) = some row := by
    rw [← accepted.requestId]
    refine (List.find?_congr fun other mem => decide_eq_decide.mpr ?_).trans
      (Keyed.find?_of_mem stored.ids accepted.mem)
    refine and_iff_left_of_imp fun same => ?_
    rw [List.inj_on_of_nodup_map stored.ids mem accepted.mem same]
  have checks : ¬ (command.domain ≠ command.domain ∨ command.mode ≠ command.mode ∨
      ¬ (host.column command.profile).deepEqual command.profile ∨
      command.operationId ≠ "request:" ++ command.requestId ∨
      command.requestId ≠ command.requestId) := by
    simp [column, accepted.operation]
  have locked : ¬ (u.domains.get command.domain).isNone := by
    rw [Option.isNone_iff_eq_none]
    exact Option.isSome_iff_ne_none.mp accepted.domain
  unfold BudgetLedger.reuseExecutionInTransaction
  rw [if_neg (not_not.mpr uuid), receipt]
  dsimp only [executionReceipt]
  rw [if_neg (by simp), if_neg locked, row_found]
  dsimp only
  rw [held, if_neg checks]
  rfl

theorem Accepted.reuse (accepted : Accepted host ledger command request row u)
    (stored : u.Stored host) (column : ∀ value, (host.column value).deepEqual value)
    (held : row.reservation = command) (task : later.taskExecution = ledger.taskExecution)
    (policy : command.executionAllocation.isSome → later.policy = ledger.policy)
    (limit : Option Int) (now : Instant) (id : String) :
    ∃ again : BudgetReservationInput, again.Reorders command ∧ (again = command ↔ command.KeepsTask host) ∧
      (host.hash again.toJson ≠ row.commandHash →
        later.reuseExecutionInTransaction host command.requestId command.domain command.mode
          command.profile limit now id u = .error .conflict) ∧
      (again = command → ∃ reservation after, reservation.id = row.id ∧
        later.reuseExecutionInTransaction host command.requestId command.domain command.mode
          command.profile limit now id u = .ok (reservation, after)) := by
  obtain ⟨limit', fixed⟩ := accepted.fixed
  have enough : ∀ tokens ∈ tokenCeiling command.profile
      (some (max (limit.getD 0) command.reserveTokens)), command.reserveTokens ≤ tokens := by
    intro tokens mem
    cases mem
    exact le_max_right _ _
  obtain ⟨again, rebuilt, read, fields, allocation, same⟩ :=
    ledger.input_reread column fixed task policy enough
  have reorders : again.Reorders command := ⟨fields, allocation⟩
  refine ⟨again, reorders, same, ?_⟩
  obtain ⟨differ, equal⟩ :=
    accepted.reserveExecutionInTransaction stored reorders read rebuilt task policy now id
  rw [accepted.reuse_eq stored column held]
  constructor
  · intro digest
    exact bind_eq_error.mpr (.inl (differ digest))
  · intro same
    obtain ⟨reservation, own, reserved⟩ := equal same
    refine ⟨reservation, (lockDomain host later again.domain u).2, own,
      bind_eq_ok.mpr ⟨_, reserved, ?_⟩⟩
    exact if_neg (not_not.mpr own)

theorem BudgetLedger.input_policy {limit : Option Int}
    (column : ∀ value, (host.column value).deepEqual value)
    (ok : ledger.input host command limit = .ok command)
    (digests : host.allocationHash later.policy.toJson = host.allocationHash ledger.policy.toJson →
      later.policy = ledger.policy)
    (rebuilt : later.input host (command.returned host) limit' = .ok input)
    (given : command.executionAllocation.isSome) : later.policy = ledger.policy := by
  obtain ⟨allocation, given⟩ := Option.isSome_iff_exists.mp given
  have returned : (command.returned host).executionAllocation = some (host.column allocation) := by
    unfold BudgetReservationInput.returned
    rw [given, Option.map_some]
  obtain ⟨_, _, _, -, -, -, -, frozen, -⟩ :=
    ledger.input_congr given (Eq.refl allocation.canonical) ok rfl rfl limit
  obtain ⟨_, _, _, -, -, -, -, frozen', -⟩ :=
    later.input_congr returned (Eq.refl (host.column allocation).canonical) rebuilt rfl rfl limit'
  have first := frozen.at?_eq_string.mpr frozenAllocation_policyHash
  have second := frozen'.at?_eq_string.mpr frozenAllocation_policyHash
  rw [(column allocation).at?_eq_string.mp second] at first
  exact digests (Json.string.inj (some.inj first))

theorem BudgetReservationInput.Reorders.refl (command : BudgetReservationInput) :
    command.Reorders command := ⟨rfl, rfl⟩

theorem BudgetStore.Stored.empty (noRows : s.ledger = []) : s.Stored host := by
  constructor <;> simp [noRows]

/-- An accepted execution is reusable after any run of the ledger exactly when the column keeps the
order of its task configuration, and with an allocation only under the policy it was frozen under. -/
theorem receipt_reusable {commands : Set BudgetReservationInput} {start : BudgetStore}
    {past between : List BudgetOperation} {request : RequestRow} {now' : Instant} {id' : String}
    (column : ∀ value, (host.column value).deepEqual value)
    (collisionFree : ∀ a ∈ commands, ∀ b ∈ commands, host.hash a.toJson = host.hash b.toJson → a = b)
    (digests : host.allocationHash later.policy.toJson = host.allocationHash ledger.policy.toJson →
      later.policy = ledger.policy)
    (noRows : start.ledger = [])
    (before : Run (fun s operation t => t = BudgetOperation.after host s operation) start past s)
    (known : ∀ row ∈ s.ledger, row.reservation ∈ commands)
    (read : ledger.input host { value with operationId := "request:" ++ value.requestId }
      (limit.or ledger.executionTokenLimit) = .ok command)
    (rebuilt : ∀ again : BudgetReservationInput, again.Reorders command → again ∈ commands)
    (reserved : ledger.reserveExecution host value (limit.or ledger.executionTokenLimit) now id s =
      .ok (.accepted reused reservation, t))
    (found : t.requests.get value.requestId = some request)
    (run : Run (QuietStep host value.requestId request.investigationId) t between u)
    (task : later.taskExecution = ledger.taskExecution) :
    (∃ again after, later.reuseExecutionInTransaction host value.requestId value.domain value.mode
        value.profile (limit'.or later.executionTokenLimit) now' id' u = .ok (again, after) ∧
        again.id = reservation.id) ↔
      command.KeepsTask host ∧
        (command.executionAllocation.isSome → later.policy = ledger.policy) := by
  have stored : s.Stored host := by
    refine before.invariant (P := fun s => s.Stored host) (.empty noRows) ?_
    rintro s operation _ stored rfl
    exact stored.step operation
  have stored' : t.Stored host := stored.reserveExecution limit reserved
  obtain ⟨request', row, accepted, named, origin⟩ := ledger.accepted read reserved
  obtain ⟨⟨allocation, whole, -⟩, -⟩ := ledger.input_eq_ok read
  have requestId : value.requestId = command.requestId := by rw [whole]
  have domain : value.domain = command.domain := by rw [whole]
  have mode : value.mode = command.mode := by rw [whole]
  have profile : value.profile = command.profile := by rw [whole]
  rw [requestId] at found run
  cases accepted.found.symm.trans found
  have held : row.reservation = command := by
    rcases origin with old | new
    · refine collisionFree _ (known row old) _ (rebuilt command (.refl command)) ?_
      rw [← (stored.rows row old).command, accepted.commandHash]
    · exact new
  obtain ⟨stored'', row', keeps, accepted'⟩ := accepted.stays stored' run
  have held' : row'.reservation = command := keeps.reservation.trans held
  rw [requestId, domain, mode, profile]
  constructor
  · rintro ⟨again, after, ok, -⟩
    have policy : command.executionAllocation.isSome → later.policy = ledger.policy := by
      intro given
      obtain ⟨limit', fixed⟩ := accepted.fixed
      rw [accepted'.reuse_eq stored'' column held'] at ok
      obtain ⟨_, reread, -⟩ := bind_eq_ok.mp ok
      obtain ⟨input, reread, -⟩ := bind_eq_ok.mp reread
      have same : { command.returned host with operationId := "request:" ++ command.requestId } =
          command.returned host := by
        unfold BudgetReservationInput.returned
        rw [← accepted.operation]
      exact BudgetLedger.input_policy column fixed digests
        ((congrArg (later.input host · _) same).symm.trans reread) given
    obtain ⟨rebuilt', reorders, keeps', differ, -⟩ :=
      accepted'.reuse stored'' column held' task policy (limit'.or later.executionTokenLimit) now' id'
    refine ⟨keeps'.mp ?_, policy⟩
    by_contra other
    have digest : host.hash rebuilt'.toJson ≠ row'.commandHash := by
      intro same
      rw [accepted'.commandHash] at same
      exact other (collisionFree _ (rebuilt rebuilt' reorders) _ (rebuilt command (.refl command)) same)
    cases ok.symm.trans (differ digest)
  · rintro ⟨kept, policy⟩
    obtain ⟨rebuilt', -, keeps', -, equal⟩ :=
      accepted'.reuse stored'' column held' task policy (limit'.or later.executionTokenLimit) now' id'
    obtain ⟨again, after, own, ok⟩ := equal (keeps'.mpr kept)
    exact ⟨again, after, ok, by rw [own, keeps.id, named]⟩

/-! ### A receipt that was sent -/

private def reusedCommand : BudgetReservationInput :=
  { firstCommand with operationId := "request:" ++ firstRequest }

private theorem reusedCommand_read :
    deployment.input clearHost
      { firstCommand with operationId := "request:" ++ firstCommand.requestId }
      (Option.or none deployment.executionTokenLimit) = .ok reusedCommand := by
  rw [BudgetLedger.input_plain rfl]
  exact if_pos (by decide)

private def firstReservation : BudgetReservation :=
  ⟨reservationId, firstRequest, "request:" ++ firstRequest, "test-security-domain", .reserved, 1000, 1000,
    1000, 1000, .reserved, none⟩

private theorem firstExecution_accepted : ∃ t,
    deployment.reserveExecution clearHost firstCommand (Option.or none deployment.executionTokenLimit) 0
      reservationId freshStore = .ok (.accepted false firstReservation, t) := by
  have evaluated : (Prod.fst <$> deployment.reserveExecution clearHost firstCommand
      (Option.or none deployment.executionTokenLimit) 0 reservationId freshStore) =
      .ok (.accepted false firstReservation) := by
    decide +kernel
  obtain ⟨⟨admission, t⟩, reserved, rfl⟩ := Except.map_eq_ok.mp evaluated
  exact ⟨t, reserved⟩

/-- A receipt whose reservation was sent in between. -/
theorem receipt_reusable_sent : ∃ reservation t,
    deployment.reserveExecution clearHost firstCommand (Option.or none deployment.executionTokenLimit) 0
      reservationId freshStore = .ok (.accepted false reservation, t) ∧
    ∃ again after, deployment.reuseExecutionInTransaction clearHost firstCommand.requestId
      firstCommand.domain firstCommand.mode firstCommand.profile
      ((some 9).or deployment.executionTokenLimit) 1 reservationId
      ((BudgetOperation.markSent reservationId).after clearHost t) = .ok (again, after) ∧
      again.id = reservation.id := by
  obtain ⟨t, reserved⟩ := firstExecution_accepted
  refine ⟨firstReservation, t, reserved, ?_⟩
  obtain ⟨request, row, accepted, -⟩ := deployment.accepted reusedCommand_read reserved
  have same (value : Json) : (clearHost.column value).deepEqual value := rfl
  have one : ∀ a ∈ ({reusedCommand} : Set BudgetReservationInput),
      ∀ b ∈ ({reusedCommand} : Set BudgetReservationInput),
        clearHost.hash a.toJson = clearHost.hash b.toJson → a = b :=
    fun _ left _ right _ => left.trans right.symm
  have plain (again : BudgetReservationInput) (reorders : again.Reorders reusedCommand) :
      again ∈ ({reusedCommand} : Set BudgetReservationInput) := by
    have allocation := Option.map_eq_none_iff.mp reorders.allocation
    rw [reorders.fields, allocation]
    rfl
  have sent : Run (QuietStep clearHost firstRequest request.investigationId) t
      [.markSent reservationId] ((BudgetOperation.markSent reservationId).after clearHost t) :=
    .single ⟨trivial, rfl⟩
  have empty : ∀ row ∈ freshStore.ledger, row.reservation ∈ ({reusedCommand} : Set _) := by
    intro row mem
    cases mem
  refine (receipt_reusable same one (fun _ => rfl) rfl .nil empty reusedCommand_read plain reserved
    accepted.found sent rfl).mpr ⟨fun _ absurd => ?_, fun _ => rfl⟩
  cases absurd

/-! ### A task configuration in another order -/

theorem around_stringify_inj {policy : BudgetPolicy} {investigationId : String} {config config' : Json}
    (equal : (configurationCopy config).deepEqual (configurationCopy config'))
    (same : (value.around host policy investigationId config).toJson.stringify host.numberText =
      (value.around host policy investigationId config').toJson.stringify host.numberText) :
    (configurationCopy config).stringify host.numberText =
      (configurationCopy config').stringify host.numberText := by
  have allocations := Json.stringify_object_inj _ [] same
  have digest : host.allocationHash (.object (allocationFields host (configurationCopy config)
      (value.binding investigationId) policy)) =
      host.allocationHash (.object (allocationFields host (configurationCopy config')
        (value.binding investigationId) policy)) :=
    congrArg host.hash (allocationFields_congr equal)
  unfold frozenAllocation at allocations
  dsimp only at allocations
  rw [digest] at allocations
  exact Json.stringify_object_inj [_, _, _, _, _, _, _] [_] allocations

private def ownerRunId : String := "00000000-0000-0000-0000-0000000000a1"

private def gateId : String := "00000000-0000-0000-0000-0000000000a2"

private def taskDomain : String :=
  "task.max222.00000000-0000-0000-0000-0000000000a1.00000000-0000-0000-0000-0000000000a2"

private def taskConfiguration : Json :=
  taskExecution (.object [("taskId", .string "01a15ece-1c94-76b9-b2c0-91b83981e9ba"),
    ("ownerRunId", .string ownerRunId), ("gateId", .string gateId), ("domain", .string taskDomain),
    ("sourceHash", .string "bbbbbbbbbbbbbbbbbbbbbbbbbbbbbbbbbbbbbbbbbbbbbbbbbbbbbbbbbbbbbbbb")])

private def taskPolicy : BudgetPolicy := ⟨"USD", 4, 1, 2, 20, 1200000, 1200000, 1000⟩

private theorem taskConfiguration_accepted :
    taskExecutionConfiguration taskConfiguration taskDomain taskPolicy = .ok taskConfiguration := by
  rfl

private theorem taskPolicy_valid : taskPolicy.valid := by
  constructor <;> first | exact usd_valid | decide

private def taskLedger : BudgetLedger where
  policy := taskPolicy
  executionTokenLimit := none
  taskExecution := some taskConfiguration
  policySnapshot := taskPolicy_valid
  limitValid := no_limit
  taskValid task mem := some.inj mem ▸ ⟨taskDomain, taskConfiguration_accepted⟩

private def taskCase : String := "00000000-0000-0000-0000-00000000000c"

private def taskBinding : AllocationBinding where
  requestId := firstRequest
  investigationId := taskCase
  domain := taskDomain
  mode := .automatic
  profile := opsProfile

private def taskAllocation : Json :=
  frozenAllocation clearHost taskConfiguration taskBinding taskPolicy

/-- The column returns the keys of the task configuration sorted. -/
private def sortingHost : BudgetHost where
  sha256 := clearHost.sha256
  numberText := clearHost.numberText
  column value :=
    if value = taskAllocation then
      frozenAllocation clearHost taskConfiguration.canonical taskBinding taskPolicy
    else value

private def taskCommand : BudgetReservationInput where
  requestId := firstRequest
  operationId := "request:" ++ firstRequest
  domain := taskDomain
  mode := .automatic
  profile := opsProfile
  reserveTokens := 1200000
  reserveCostMicros := 1000
  executionAllocation := some taskAllocation

private def taskRequest : RequestRow where
  investigationId := taskCase
  executionDomain := some taskDomain
  snapshot := { firstSnapshot with executionAllocation := some taskAllocation }

private def taskStore : BudgetStore where
  requests := Table.empty.put firstRequest taskRequest
  resources := Table.empty.put taskCase [⟨"instance", 1⟩]
  domains := Table.empty
  ledger := []

private theorem sorted_configuration :
    taskConfiguration.deepEqual taskConfiguration.canonical := by
  rfl

private theorem sorted_text : taskConfiguration.stringify clearHost.numberText ≠
    taskConfiguration.canonical.stringify clearHost.numberText := by
  decide

private theorem sortingHost_column (value : Json) : (sortingHost.column value).deepEqual value := by
  unfold sortingHost
  dsimp only
  split
  next same =>
    rw [same]
    exact Eq.symm (frozenAllocation_congr sorted_configuration)
  next differ => rfl

private theorem sortingHost_sorted : sortingHost.column taskAllocation =
    frozenAllocation clearHost taskConfiguration.canonical taskBinding taskPolicy := by
  unfold sortingHost
  dsimp only
  rw [if_pos rfl]

private theorem taskBinding_known : ¬ (taskBinding.profile.at? "id" ≠ some (.string "ops") ∨
    taskBinding.profile.at? "version" ≠ some (.number 1) ∨ ¬ isUuid taskBinding.requestId ∨
    ¬ isUuid taskBinding.investigationId) := by
  decide

private theorem taskAllocation_read (gate : Option (Option String))
    (own : gate = none ∨ gate = some (some taskDomain)) :
    readExecutionAllocation sortingHost (some taskAllocation)
      { taskBinding with executionDomain := gate } taskPolicy (some taskConfiguration) =
        .ok (some taskAllocation) := by
  refine readExecutionAllocation_frozen rfl taskConfiguration_accepted ?_ taskBinding_known
  rcases own with rfl | rfl <;> decide

private theorem taskCommand_read :
    taskLedger.input sortingHost taskCommand none = .ok taskCommand := by
  have given : taskCommand.executionAllocation = some taskAllocation := rfl
  have named : ((taskAllocation.at? "investigationId").bind Json.string?).getD "undefined" = taskCase :=
    rfl
  unfold BudgetLedger.input
  rw [given]
  dsimp only
  rw [named]
  refine bind_eq_ok.mpr ⟨_, taskAllocation_read none (.inl rfl),
    guard_eq_ok.mpr ⟨not_not.mpr rfl, ?_⟩⟩
  exact if_pos (by decide)

private theorem taskCommand_presented :
    Presented sortingHost taskLedger taskCommand taskRequest [⟨"instance", 1⟩] := by
  obtain ⟨config, config', -, -, configs, -, same, -, read⟩ := readExecutionAllocation_congr
    (Eq.symm (sortingHost_column taskAllocation)) (taskAllocation_read (some (some taskDomain)) (.inr rfl))
  refine ⟨by decide +kernel, ⟨_, read, ?_⟩, by decide⟩
  refine (congrArg some ?_).trans (congrArg (Option.map Json.canonical) same).symm
  exact frozenAllocation_congr (configurationCopy_congr (Eq.symm configs))

private theorem taskCommand_admitted : ∃ reservation t,
    admitCommand sortingHost taskLedger taskCommand none
      (resourceKeys sortingHost taskRequest.snapshot [⟨"instance", 1⟩])
      (lockDomain sortingHost taskLedger taskDomain taskStore).1 0 reservationId
      (lockDomain sortingHost taskLedger taskDomain taskStore).2 = .ok (.accepted false reservation, t) := by
  have checked : suppression taskPolicy taskCommand none
      (resourceKeys sortingHost taskRequest.snapshot [⟨"instance", 1⟩]) 0 [] = none := by
    rfl
  exact admitCommand_empty lockDomain_ledger rfl checked (by decide) (by decide) (by decide)

/-- The execution is accepted, and its receipt is refused to the same command of the same deployment. -/
theorem receipt_reordered : (∀ value, (sortingHost.column value).deepEqual value) ∧
    ∃ reservation t, taskLedger.reserveExecution sortingHost taskCommand none 0 reservationId taskStore =
      .ok (.accepted false reservation, t) ∧
    taskLedger.reuseExecutionInTransaction sortingHost taskCommand.requestId taskCommand.domain
      taskCommand.mode taskCommand.profile none 1 reservationId t = .error .conflict := by
  have resources : taskStore.resourcesOf taskRequest = [⟨"instance", 1⟩] := by rfl
  have found : taskStore.requests.get taskCommand.requestId = some taskRequest := rfl
  have presented := taskCommand_presented
  have admitted := taskCommand_admitted
  rw [← resources] at presented admitted
  obtain ⟨reservation, t, reserved⟩ :=
    taskLedger.reserveExecution_of_admitted taskCommand_read rfl found rfl presented admitted
  refine ⟨sortingHost_column, reservation, t, reserved, ?_⟩
  have read : taskLedger.input sortingHost
      { taskCommand with operationId := "request:" ++ taskCommand.requestId } none = .ok taskCommand :=
    taskCommand_read
  obtain ⟨request, row, accepted, -, old | held⟩ := taskLedger.accepted read reserved
  · cases old
  have empty : taskStore.Stored sortingHost := .empty rfl
  have stored : t.Stored sortingHost := empty.reserveExecution none reserved
  have task : taskLedger.taskExecution = taskLedger.taskExecution := rfl
  have policy : taskLedger.policy = taskLedger.policy := rfl
  have given : taskCommand.executionAllocation = some taskAllocation := rfl
  have equal : taskAllocation.deepEqual (sortingHost.column taskAllocation) :=
    Eq.symm (sortingHost_column taskAllocation)
  obtain ⟨investigationId, config, config', source, returned, configs, own, -, rebuilt⟩ :=
    taskLedger.input_congr given equal taskCommand_read task policy
      (some (max (Option.getD none 0) taskCommand.reserveTokens))
  rw [sortingHost_sorted] at returned
  cases some.inj (source.symm.trans frozenAllocation_configuration)
  cases some.inj (returned.symm.trans frozenAllocation_configuration)
  have copies := configurationCopy_congr configs
  have reorders : (taskCommand.around sortingHost taskPolicy investigationId
      taskConfiguration.canonical).Reorders taskCommand := by
    refine ⟨rfl, ?_⟩
    refine (congrArg some ?_).trans
      (congrArg (fun c => c.executionAllocation.map Json.canonical) own).symm
    exact Eq.symm (frozenAllocation_congr copies)
  obtain ⟨differ, -⟩ := accepted.reserveExecutionInTransaction stored reorders
    (taskLedger.input_fixed rebuilt) rebuilt task (fun _ => policy) 1 reservationId
  rw [accepted.reuse_eq stored sortingHost_column held]
  refine bind_eq_error.mpr (.inl (differ fun same => ?_))
  rw [accepted.commandHash] at same
  have texts := around_stringify_inj (Eq.symm copies)
    (same.trans (congrArg (fun c : BudgetReservationInput => sortingHost.hash c.toJson) own))
  have original : isTaskConfiguration taskConfiguration := rfl
  have sorted : isTaskConfiguration taskConfiguration.canonical := by rfl
  rw [configurationCopy, if_pos sorted, configurationCopy, if_pos original] at texts
  exact sorted_text texts.symm

end Slide.Investigations
