import Mathlib.Algebra.GroupWithZero.Nat
import Mathlib.Data.Finset.Card
import Slide.Investigations.ExecutionAllocation
import Slide.Library.Fallible
import Slide.Library.Table

/-!
# The budget ledger

`budget-ledger.ts`: the rows of `investigation_budget_ledger` with their resource keys, the frozen
policy of each domain and the request rows the ledger reads.  Every public operation locks its domain,
so one operation is one step; an operation that throws leaves the store as it was.

Columns that hold counts are natural numbers, what a caller passes is an integer that the code still
has to check.
-/

namespace Slide.Investigations

open Display

/-! ## Values -/

structure BudgetPrices where
  (input cachedInput output : Int)
deriving DecidableEq

structure BudgetUsage where
  (inputTokens cachedInputTokens outputTokens : Int)
deriving DecidableEq

structure BudgetReservationInput where
  (requestId operationId domain : String)
  mode : Lane
  profile : Json
  (reserveTokens reserveCostMicros : Int)
  prices : Option BudgetPrices := none
  executionAllocation : Option Json := none
deriving DecidableEq

inductive BudgetState
  | reserved | sent | unknown | settled | cancelled
deriving DecidableEq

inductive CostStatus
  | reserved | known | unknown
deriving DecidableEq

/-- The states of `active`. -/
def BudgetState.active : BudgetState → Bool
  | .reserved | .sent | .unknown => true
  | .settled | .cancelled => false

def BudgetPrices.toJson (prices : BudgetPrices) : Json :=
  .object [("input", .number prices.input), ("cachedInput", .number prices.cachedInput),
    ("output", .number prices.output)]

def BudgetUsage.toJson (usage : BudgetUsage) : Json :=
  .object [("inputTokens", .number usage.inputTokens),
    ("cachedInputTokens", .number usage.cachedInputTokens),
    ("outputTokens", .number usage.outputTokens)]

/-- The object `reservationInput` builds, in its order. -/
def BudgetReservationInput.toJson (input : BudgetReservationInput) : Json :=
  .object ([("requestId", .string input.requestId), ("operationId", .string input.operationId),
    ("domain", .string input.domain), ("mode", input.mode.toJson), ("profile", input.profile),
    ("reserveTokens", .number input.reserveTokens),
    ("reserveCostMicros", .number input.reserveCostMicros)] ++
    (input.prices.map fun prices => ("prices", prices.toJson)).toList ++
    (input.executionAllocation.map fun allocation => ("executionAllocation", allocation)).toList)

/-- `key`: not blank, at most 128 bytes. -/
def isKey (value : String) : Bool :=
  value.toList.any (fun c => !JsString.isSpace c) && value.utf8ByteSize ≤ 128

/-- `pricesSnapshot` lets the prices pass. -/
def BudgetPrices.valid (prices : BudgetPrices) : Prop :=
  integer prices.input ∧ integer prices.cachedInput ∧ integer prices.output

instance (prices : BudgetPrices) : Decidable prices.valid := inferInstanceAs (Decidable (_ ∧ _ ∧ _))

/-- `budgetUsage` lets the usage pass. -/
def BudgetUsage.valid (usage : BudgetUsage) : Prop :=
  integer usage.inputTokens ∧ integer usage.cachedInputTokens ∧ integer usage.outputTokens ∧
    usage.cachedInputTokens ≤ usage.inputTokens ∧ integer (usage.inputTokens + usage.outputTokens)

instance (usage : BudgetUsage) : Decidable usage.valid :=
  inferInstanceAs (Decidable (_ ∧ _ ∧ _ ∧ _ ∧ _))

/-- `(numerator + 999_999n) / 1_000_000n`. -/
def ceilMicros (numerator : Int) : Int := (numerator + 999999) / 1000000

/-- `measuredBudget`: the tokens, and the cost where the prices are known. -/
def measuredBudget (usage : BudgetUsage) (prices : Option BudgetPrices) :
    Except BudgetLedgerError (Int × Option Int) :=
  if ¬ usage.valid then .error .inputInvalid
  else match prices with
    | none => .ok (usage.inputTokens + usage.outputTokens, none)
    | some rate =>
      let costMicros := ceilMicros ((usage.inputTokens - usage.cachedInputTokens) * rate.input +
        usage.cachedInputTokens * rate.cachedInput + usage.outputTokens * rate.output)
      if ¬ rate.valid ∨ ¬ integer costMicros then .error .inputInvalid
      else .ok (usage.inputTokens + usage.outputTokens, some costMicros)

/-- The most that the reserved tokens may cost. -/
def maximumCost (input : BudgetReservationInput) (prices : BudgetPrices) : Int :=
  ceilMicros (input.reserveTokens * max prices.input (max prices.cachedInput prices.output))

/-- The prices are numbers, and the reserved cost covers the reserved tokens. -/
def pricesCovered (input : BudgetReservationInput) : Prop :=
  ∀ prices ∈ input.prices, prices.valid ∧ maximumCost input prices ≤ input.reserveCostMicros

instance (input : BudgetReservationInput) : Decidable (pricesCovered input) :=
  inferInstanceAs (Decidable (∀ _ ∈ _, _))

/-- `executionTokenLimit ?? profile.budget.maxTokens`. -/
def tokenCeiling (profile : Json) (executionTokenLimit : Option Int) : Option Int :=
  executionTokenLimit.or (profileBudget profile "maxTokens")

def reservationInput (input : BudgetReservationInput) (executionTokenLimit : Option Int) :
    Except BudgetLedgerError BudgetReservationInput :=
  if isUuid input.requestId ∧ isKey input.operationId ∧ isKey input.domain ∧
      validateInvestigationProfile input.profile ∧ integer input.reserveTokens 1 ∧
      (∀ limit ∈ tokenCeiling input.profile executionTokenLimit, input.reserveTokens ≤ limit) ∧
      integer input.reserveCostMicros 1 ∧ pricesCovered input then
    .ok input
  else .error .inputInvalid

/-! ## Tables -/

/-- A row of `investigation_budget_ledger`, with its keys in `investigation_budget_resources`. -/
structure LedgerRow where
  (id requestId operationId domain : String)
  mode : Lane
  (commandHash requestBudgetHash : String)
  reservation : BudgetReservationInput
  state : BudgetState
  (reservedTokens reservedCostMicros chargedTokens chargedCostMicros : Nat)
  costStatus : CostStatus
  usage : Option BudgetUsage
  settlementHash : Option String
  (budgetDay budgetHour : Nat)
  resourceKeys : List String

/-- A row of `investigation_budget_domains`. -/
structure BudgetDomain where
  policyHash : String
  policy : BudgetPolicy
deriving DecidableEq

/-- `receipt` of `reserveExecutionInTransaction`; its `schemaVersion` is always 1. -/
structure BudgetReceipt where
  (requestId reservationId operationId domain : String)
  mode : Lane
  commandHash : String
  executionAllocationHash : Option Json
deriving DecidableEq

/-- The keys of `request_snapshot` that the ledger reads. -/
structure RequestSnapshot where
  profileId : Option Json := none
  profileVersion : Option Json := none
  profileHash : Option String := none
  component : Option String := none
  executionAllocation : Option Json := none
  budgetReceipt : Option BudgetReceipt := none

/-- A row of `investigation_requests`. -/
structure RequestRow where
  investigationId : String
  executionDomain : Option String
  snapshot : RequestSnapshot

/-- A row of `investigation_resources`. -/
structure ResourceRef where
  resourceType : String
  resourceId : Nat

structure BudgetStore where
  requests : Table String RequestRow
  resources : Table String (List ResourceRef)
  domains : Table String BudgetDomain
  ledger : List LedgerRow

/-- `MysqlInvestigationBudgetLedger`: one deployment with its policy, token ceiling and task gate. -/
structure BudgetLedger where
  policy : BudgetPolicy
  executionTokenLimit : Option Int
  taskExecution : Option Json
  policySnapshot : policy.valid
  limitValid : ∀ limit ∈ executionTokenLimit, integer limit 1 ∧ limit ≤ 1000000
  taskValid : ∀ task ∈ taskExecution, ∃ domain, taskExecutionConfiguration task domain policy = .ok task

/-- `BudgetReservation`, as `record` reads it from a row. -/
structure BudgetReservation where
  (id requestId operationId domain : String)
  state : BudgetState
  (reservedTokens reservedCostMicros chargedTokens chargedCostMicros : Nat)
  costStatus : CostStatus
  usage : Option BudgetUsage
deriving DecidableEq

inductive BudgetSuppression
  | globalConcurrency | manualCapacityReserved | resourceConcurrency | requestActive
  | requestTokenLimit | requestAttemptLimit | automaticFrequency | automaticDailyTokens
  | totalDailyTokens | dailyCost
deriving DecidableEq

inductive BudgetAdmission
  | accepted (reused : Bool) (reservation : BudgetReservation)
  | refused (reason : BudgetSuppression)
deriving DecidableEq

variable (host : BudgetHost) (ledger : BudgetLedger) (row : LedgerRow)

/-- `record`: every count has to be a safe integer. -/
def LedgerRow.record : Except BudgetLedgerError BudgetReservation :=
  if integer row.reservedTokens ∧ integer row.reservedCostMicros ∧ integer row.chargedTokens ∧
      integer row.chargedCostMicros then
    .ok ⟨row.id, row.requestId, row.operationId, row.domain, row.state, row.reservedTokens,
      row.reservedCostMicros, row.chargedTokens, row.chargedCostMicros, row.costStatus, row.usage⟩
  else .error .storeUnavailable

/-! ## Admission -/

/-- A reading of the clock in milliseconds. -/
abbrev Instant := Nat

variable (value : BudgetReservationInput) (executionTokenLimit : Option Int) (now : Instant)

/-- The UTC day and hour of a reading. -/
def Instant.day : Nat := now / 86400000

def Instant.hour : Nat := now / 3600000

/-- `input`: the command with its allocation read again. -/
def BudgetLedger.input : Except BudgetLedgerError BudgetReservationInput :=
  match value.executionAllocation with
  | none => reservationInput value executionTokenLimit
  | some candidate => do
    let investigationId := ((candidate.at? "investigationId").bind Json.string?).getD "undefined"
    let allocation ← readExecutionAllocation host (some candidate)
      { requestId := value.requestId, investigationId, domain := value.domain, mode := value.mode,
        profile := value.profile } ledger.policy ledger.taskExecution
    let total := ((allocation.bind (Json.at? "configuration")).bind (Json.at? "maxTotalTokens")).bind
      Json.int?
    if total ≠ some value.reserveTokens then throw .inputInvalid
    reservationInput { value with executionAllocation := allocation } (total.or executionTokenLimit)

/-- `allocation?.configuration.maxTotalTokens ?? executionTokenLimit ?? profile.budget.maxTokens`. -/
def BudgetReservationInput.ceiling (input : BudgetReservationInput)
    (executionTokenLimit : Option Int) : Option Int :=
  let total := ((input.executionAllocation.bind (Json.at? "configuration")).bind
    (Json.at? "maxTotalTokens")).bind Json.int?
  tokenCeiling input.profile (total.or executionTokenLimit)

def ResourceRef.key (ref : ResourceRef) : String := ref.resourceType ++ ":" ++ toString ref.resourceId

def resourceKeys (snapshot : RequestSnapshot) (resources : List ResourceRef) :
    List String :=
  if resources = [] then
    ["platform:" ++ host.hash (.object
      [("component", .string (snapshot.component.getD "platform"))])]
  else (resources.map ResourceRef.key).insertionSort JsString.le

def requestHash (input : BudgetReservationInput) (keys : List String) : String :=
  host.hash (.object [("domain", .string input.domain), ("mode", input.mode.toJson),
    ("profile", input.profile), ("resourceKeys", .array (keys.map .string))])

/-- `lockDomain(connection, domain, true)`: the first one freezes its policy. -/
def lockDomain (domain : String) (store : BudgetStore) :
    BudgetDomain × BudgetStore :=
  match store.domains.get domain with
  | some row => (row, store)
  | none =>
    let row := ⟨host.hash ledger.policy.toJson, ledger.policy⟩
    (row, { store with domains := store.domains.put domain row })

def BudgetLedger.prepareDomainInTransaction (domain : String) (store : BudgetStore) : Except BudgetLedgerError BudgetStore :=
  let locked := lockDomain host ledger domain store
  if ¬ isKey domain then .error .inputInvalid
  else if locked.1.policyHash ≠ host.hash ledger.policy.toJson then .error .policyConflict
  else .ok locked.2

/-- The sum of `BigInt` columns. -/
def total (column : LedgerRow → Nat) (rows : List LedgerRow) : Int := ((rows.map column).sum : Nat)

/-- The checks of a new reservation, in their order. -/
def suppression (policy : BudgetPolicy) (input : BudgetReservationInput)
    (executionTokenLimit : Option Int) (keys : List String) (now : Instant) (ledger : List LedgerRow) :
    Option BudgetSuppression :=
  let previous := ledger.filter fun row => row.requestId = input.requestId
  let rows := ledger.filter fun row => row.domain = input.domain ∧
    (row.state.active ∨ row.costStatus = .unknown ∨ row.budgetDay = now.day)
  let running := rows.filter fun row => row.state.active
  let occupied := fun key => ledger.filter fun row =>
    row.domain = input.domain ∧ row.state.active ∧ key ∈ row.resourceKeys
  let hourly := ((rows.filter fun row => row.mode = .automatic ∧ row.budgetHour = now.hour).map
    LedgerRow.requestId).toFinset
  let tokenRows := rows.filter fun row => row.budgetDay = now.day ∨ row.state.active
  let automaticRows := tokenRows.filter fun row => row.mode = .automatic
  let costs := rows.filter fun row => row.budgetDay = now.day ∨ row.state = .reserved ∨
    row.state = .sent ∨ row.costStatus = .unknown
  if previous.any fun row => row.state.active then some .requestActive
  else if (profileBudget input.profile "maxProviderAttempts").any fun attempts =>
      attempts ≤ (previous.length : Int) then
    some .requestAttemptLimit
  else if (input.ceiling executionTokenLimit).any
      (· < total LedgerRow.chargedTokens previous + input.reserveTokens) then
    some .requestTokenLimit
  else if policy.maxConcurrent ≤ running.length then some .globalConcurrency
  else if input.mode = .automatic ∧ policy.maxConcurrent - policy.manualReserved ≤
      (running.filter fun row => row.mode = .automatic).length then
    some .manualCapacityReserved
  else if keys.any fun key => policy.maxPerResourceConcurrent ≤ (occupied key).length then
    some .resourceConcurrency
  else if input.mode = .automatic ∧ input.requestId ∉ hourly ∧
      policy.maxAutomaticRequestsPerHour ≤ hourly.card then
    some .automaticFrequency
  else if input.mode = .automatic ∧ policy.maxAutomaticTokensPerDay <
      total LedgerRow.chargedTokens automaticRows + input.reserveTokens then
    some .automaticDailyTokens
  else if policy.maxTotalTokensPerDay <
      total LedgerRow.chargedTokens tokenRows + input.reserveTokens then
    some .totalDailyTokens
  else if policy.maxCostMicrosPerDay <
      total LedgerRow.chargedCostMicros costs + input.reserveCostMicros then
    some .dailyCost
  else none

/-- The row that `INSERT` writes. -/
def newRow (input : BudgetReservationInput) (keys : List String) (now : Instant)
    (id : String) : LedgerRow where
  id
  requestId := input.requestId
  operationId := input.operationId
  domain := input.domain
  mode := input.mode
  commandHash := host.hash input.toJson
  requestBudgetHash := requestHash host input keys
  reservation := input
  state := .reserved
  reservedTokens := input.reserveTokens.toNat
  reservedCostMicros := input.reserveCostMicros.toNat
  chargedTokens := input.reserveTokens.toNat
  chargedCostMicros := input.reserveCostMicros.toNat
  costStatus := .reserved
  usage := none
  settlementHash := none
  budgetDay := now.day
  budgetHour := now.hour
  resourceKeys := keys

/-- What follows the lock of the domain in `reserveInTransaction`. -/
def admitCommand (input : BudgetReservationInput)
    (executionTokenLimit : Option Int) (keys : List String) (domain : BudgetDomain) (now : Instant)
    (id : String) (store : BudgetStore) :
    Except BudgetLedgerError (BudgetAdmission × BudgetStore) := do
  match store.ledger.find? fun row =>
      row.requestId = input.requestId ∧ row.operationId = input.operationId with
  | some existing =>
    if existing.commandHash ≠ host.hash input.toJson ∨
        existing.requestBudgetHash ≠ requestHash host input keys then
      throw .conflict
    return (.accepted true (← existing.record), store)
  | none =>
    if domain.policyHash ≠ host.hash ledger.policy.toJson then throw .policyConflict
    if (store.ledger.filter fun row => row.requestId = input.requestId).any fun row =>
        row.requestBudgetHash ≠ requestHash host input keys then
      throw .conflict
    match suppression ledger.policy input executionTokenLimit keys now store.ledger with
    | some reason => return (.refused reason, store)
    | none =>
      if id ∈ store.ledger.map LedgerRow.id ∨ ¬ keys.Nodup then throw .duplicateKey
      let row := newRow host input keys now id
      return (.accepted false (← row.record), { store with ledger := store.ledger ++ [row] })

def BudgetLedger.reserveInTransaction (id : String)
    (store : BudgetStore) : Except BudgetLedgerError (BudgetAdmission × BudgetStore) := do
  let input ← ledger.input host value executionTokenLimit
  match store.requests.get input.requestId with
  | none => throw .requestInvalid
  | some request =>
    let snapshot := request.snapshot
    if snapshot.profileId ≠ input.profile.at? "id" ∨ snapshot.profileVersion ≠ input.profile.at? "version" ∨
        snapshot.profileHash ≠ some (host.investigationProfileHash input.profile) then
      throw .requestInvalid
    let allocation ← readExecutionAllocation host (snapshot.executionAllocation.map host.column)
      { requestId := input.requestId, investigationId := request.investigationId,
        domain := input.domain, mode := input.mode, profile := input.profile,
        executionDomain := some request.executionDomain } ledger.policy ledger.taskExecution
    if allocation.map Json.canonical ≠ input.executionAllocation.map Json.canonical then
      throw .conflict
    let resources := (store.resources.get request.investigationId).getD []
    if input.profile.at? "id" = some (.string "ops") ∧ resources = [] ∨
        input.profile.at? "id" = some (.string "system") ∧ resources ≠ [] then
      throw .requestInvalid
    let locked := lockDomain host ledger input.domain store
    admitCommand host ledger input executionTokenLimit (resourceKeys host snapshot resources) locked.1
      now id locked.2

def BudgetLedger.reserve (id : String) (store : BudgetStore) :
    Except BudgetLedgerError (BudgetAdmission × BudgetStore) := do
  let copy ← ledger.input host value ledger.executionTokenLimit
  ledger.reserveInTransaction host copy ledger.executionTokenLimit now id store

/-- The receipt of an accepted execution. -/
def executionReceipt (input : BudgetReservationInput) (reservationId : String) :
    BudgetReceipt where
  requestId := input.requestId
  reservationId
  operationId := input.operationId
  domain := input.domain
  mode := input.mode
  commandHash := host.hash input.toJson
  executionAllocationHash := input.executionAllocation.bind (Json.at? "hash")

/-- `reserveExecutionInTransaction`; the operation of the command is always that of its request. -/
def BudgetLedger.reserveExecutionInTransaction (id : String)
    (store : BudgetStore) : Except BudgetLedgerError (BudgetAdmission × BudgetStore) := do
  let input ← ledger.input host { value with operationId := "request:" ++ value.requestId }
    executionTokenLimit
  let (admission, store) ← ledger.reserveInTransaction host input executionTokenLimit now id store
  match admission, store.requests.get input.requestId with
  | .refused _, _ => return (admission, store)
  | .accepted .., none => throw .requestInvalid
  | .accepted _ reservation, some request =>
    let receipt := executionReceipt host input reservation.id
    match request.snapshot.budgetReceipt with
    | some previous => if previous ≠ receipt then throw .conflict else return (admission, store)
    | none => return (admission, { store with
        requests := store.requests.put input.requestId
          { request with snapshot := { request.snapshot with budgetReceipt := some receipt } } })

def BudgetLedger.reserveExecution (id : String)
    (store : BudgetStore) : Except BudgetLedgerError (BudgetAdmission × BudgetStore) := do
  let input ← ledger.input host { value with operationId := "request:" ++ value.requestId }
    executionTokenLimit
  ledger.reserveExecutionInTransaction host input executionTokenLimit now id store

/-- `reuseExecutionInTransaction`.  The column decides the key order of everything read from it; the
profile is the caller's. -/
def BudgetLedger.reuseExecutionInTransaction (requestId domain : String) (mode : Lane) (profile : Json) (executionTokenLimit : Option Int)
    (now : Instant) (id : String) (store : BudgetStore) :
    Except BudgetLedgerError (BudgetReservation × BudgetStore) := do
  if ¬ isUuid requestId then throw .inputInvalid
  match (store.requests.get requestId).bind fun request => request.snapshot.budgetReceipt with
  | none => throw .requestInvalid
  | some receipt =>
    if receipt.domain ≠ domain ∨ receipt.mode ≠ mode then throw .conflict
    if (store.domains.get domain).isNone then throw .notFound
    match store.ledger.find? fun row => row.id = receipt.reservationId ∧ row.requestId = requestId with
    | none => throw .requestInvalid
    | some row =>
      let stored := row.reservation
      if stored.domain ≠ domain ∨ stored.mode ≠ mode ∨ ¬ (host.column stored.profile).deepEqual profile ∨
          stored.operationId ≠ "request:" ++ requestId ∨ stored.requestId ≠ requestId then
        throw .conflict
      let limit := max (executionTokenLimit.getD 0) stored.reserveTokens
      let (admission, store) ← ledger.reserveExecutionInTransaction host { stored with
        profile := profile, executionAllocation := stored.executionAllocation.map host.column }
        (some limit) now id store
      match admission with
      | .accepted true reservation =>
        if reservation.id ≠ row.id then throw .conflict else return (reservation, store)
      | _ => throw .conflict

/-! ## Transitions -/

variable (store : BudgetStore)

/-- `UPDATE … WHERE id = ?`. -/
def BudgetStore.update (id : String) (set : LedgerRow → LedgerRow) :
    BudgetStore :=
  { store with ledger := store.ledger.map fun row => if row.id = id then set row else row }

/-- `mutateInTransaction`: what the operation writes to the row, once the row and its domain are
there. -/
def BudgetStore.mutate (id : String)
    (work : LedgerRow → Except BudgetLedgerError (LedgerRow → LedgerRow)) :
    Except BudgetLedgerError (BudgetReservation × BudgetStore) := do
  if ¬ isUuid id then throw .inputInvalid
  match store.ledger.find? fun row => row.id = id with
  | none => throw .notFound
  | some row =>
    if (store.domains.get row.domain).isNone then throw .notFound
    let store := store.update id (← work row)
    match store.ledger.find? fun row => row.id = id with
    | none => throw .notFound
    | some updated => return (← updated.record, store)

/-- `markSent`, on the row. -/
def markSentRow : Except BudgetLedgerError (LedgerRow → LedgerRow) :=
  match row.state with
  | .reserved => .ok fun row => { row with state := .sent }
  | .sent | .unknown => .ok id
  | _ => .error .transitionInvalid

/-- `markSent`, with `dispatchAllowed`. -/
def markSent (id : String) (store : BudgetStore) :
    Except BudgetLedgerError ((BudgetReservation × Bool) × BudgetStore) := do
  let (reservation, after) ← store.mutate id markSentRow
  return ((reservation, store.ledger.any fun row => row.id = id ∧ row.state = .reserved), after)

def cancelReserved : Except BudgetLedgerError (LedgerRow → LedgerRow) :=
  match row.state with
  | .cancelled => .ok id
  | .reserved => .ok fun row =>
    { row with state := .cancelled, chargedTokens := 0, chargedCostMicros := 0, costStatus := .known }
  | _ => .error .transitionInvalid

/-- `retainUnknownInTransaction`. -/
def retainUnknown : Except BudgetLedgerError (LedgerRow → LedgerRow) :=
  match row.state with
  | .settled | .cancelled => .ok id
  | _ => .ok fun row => { row with state := .unknown, costStatus := .unknown }

/-- `hash(value)` of a settlement. -/
def settlementDigest (usage : Option BudgetUsage) : String :=
  host.hash ((usage.map BudgetUsage.toJson).getD .null)

/-- What a settlement writes to a row that was sent. -/
def settlement (usage : Option BudgetUsage) (row : LedgerRow) :
    Except BudgetLedgerError (LedgerRow → LedgerRow) :=
  match usage with
  | none => .ok fun row => { row with state := .unknown, costStatus := .unknown }
  | some value => do
    let (tokens, cost) ← measuredBudget value row.reservation.prices
    return fun row => { row with
      state := .settled
      chargedTokens := tokens.toNat
      chargedCostMicros := (cost.map Int.toNat).getD row.reservedCostMicros
      costStatus := if cost.isNone then .unknown else .known
      usage := some value
      settlementHash := some (settlementDigest host usage) }

/-- `settle`, on the row. -/
def settleRow (usage : Option BudgetUsage) (row : LedgerRow) :
    Except BudgetLedgerError (LedgerRow → LedgerRow) :=
  match row.state with
  | .settled =>
    if row.settlementHash ≠ some (settlementDigest host usage) then .error .conflict else .ok id
  | .sent | .unknown => settlement host usage row
  | _ => .error .transitionInvalid

def settle (id : String) (usage : Option BudgetUsage) (store : BudgetStore) :
    Except BudgetLedgerError (BudgetReservation × BudgetStore) :=
  if ∀ value ∈ usage, value.valid then store.mutate id (settleRow host usage)
  else .error .inputInvalid

/-! ## Steps -/

/-- One public operation, or a write of another service to the rows the ledger only reads.  A token
ceiling that is left out is that of the deployment. -/
inductive BudgetOperation
  | reserve (ledger : BudgetLedger) (value : BudgetReservationInput) (now : Instant) (id : String)
  | reserveExecution (ledger : BudgetLedger) (value : BudgetReservationInput)
    (executionTokenLimit : Option Int) (now : Instant) (id : String)
  | reuseExecution (ledger : BudgetLedger) (requestId domain : String) (mode : Lane) (profile : Json)
    (executionTokenLimit : Option Int) (now : Instant) (id : String)
  | prepareDomain (ledger : BudgetLedger) (domain : String)
  | markSent (id : String)
  | cancelUnsent (id : String)
  | retainUnknown (id : String)
  | settle (id : String) (usage : Option BudgetUsage)
  | others (requests : Table String RequestRow) (resources : Table String (List ResourceRef))

/-- The store an operation commits. -/
def BudgetOperation.commit :
    BudgetOperation → Except BudgetLedgerError BudgetStore
  | .reserve ledger value now id => Prod.snd <$> ledger.reserve host value now id store
  | .reserveExecution ledger value limit now id =>
    Prod.snd <$> ledger.reserveExecution host value (limit.or ledger.executionTokenLimit) now id store
  | .reuseExecution ledger requestId domain mode profile limit now id =>
    Prod.snd <$> ledger.reuseExecutionInTransaction host requestId domain mode profile
      (limit.or ledger.executionTokenLimit) now id store
  | .prepareDomain ledger domain => ledger.prepareDomainInTransaction host domain store
  | .markSent id => Prod.snd <$> Investigations.markSent id store
  | .cancelUnsent id => Prod.snd <$> store.mutate id cancelReserved
  | .retainUnknown id => Prod.snd <$> store.mutate id Investigations.retainUnknown
  | .settle id usage => Prod.snd <$> Investigations.settle host id usage store
  | .others requests resources => .ok { store with requests, resources }

/-- The store after an operation: what it commits, or the store as it was. -/
def BudgetOperation.after (operation : BudgetOperation) :
    BudgetStore :=
  match operation.commit host store with
  | .ok store => store
  | .error _ => store

end Slide.Investigations
