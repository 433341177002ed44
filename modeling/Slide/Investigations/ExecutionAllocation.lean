import Slide.Investigations.Contracts
import Slide.Investigations.JsonColumn

/-!
# The frozen allocation of an execution

`execution-allocation.ts` and the profile schema of `contracts.ts`, over JSON values: a configuration,
an allocation and a profile come from a column or from the startup composition with whatever keys in
whatever order they have.  The texts `JSON.stringify` gives decide every hash that is not canonical.
-/

namespace Slide.Investigations

open Display

/-- What the budget asks of the platform: `sha256`, the texts of numbers and the order in which a JSON
column returns the keys of a value. -/
structure BudgetHost where
  sha256 : String → String
  numberText : Rat → String
  column : Json → Json

variable (host : BudgetHost) (value : Json)

/-- `hash`: the digest of `JSON.stringify`. -/
def BudgetHost.hash : String :=
  host.sha256 (value.stringify host.numberText)

inductive Lane
  | automatic | manual
deriving DecidableEq

def Lane.toJson : Lane → Json
  | .automatic => .string "automatic"
  | .manual => .string "manual"

/-! ## Texts -/

/-- `[a-f0-9]`. -/
def isHexDigit (c : Char) : Bool := 'a' ≤ c && c ≤ 'f' || '0' ≤ c && c ≤ '9'

/-- `[a-zA-Z0-9]`. -/
def isAlphanumeric (c : Char) : Bool :=
  'a' ≤ c && c ≤ 'z' || 'A' ≤ c && c ≤ 'Z' || '0' ≤ c && c ≤ '9'

/-- `uuid`: 8, 4, 4, 4 and 12 lower case digits between hyphens. -/
def isUuid (text : String) : Bool :=
  let parts := text.toList.splitOn '-'
  parts.map List.length = [8, 4, 4, 4, 12] && parts.all (List.all · isHexDigit)

/-- `^[a-f0-9]{64}$`. -/
def isDigest (text : String) : Bool := text.toList.length = 64 && text.toList.all isHexDigit

/-! ## The schema of a profile -/

/-- `text(maxLength)`. -/
def textSchema (maxLength : Nat) : Json → Bool
  | .string value => value ≠ "" && JsString.length value ≤ maxLength &&
      value.toList.any fun c => !JsString.isSpace c
  | _ => false

/-- `ordinal()`. -/
def ordinalSchema : Bool := value.int?.any fun n => decide (isOrdinal n)

/-- `hash()`. -/
def hashSchema : Bool := value.string?.any isDigest

/-- `Type.Literal`. -/
def literalSchema (literal value : Json) : Bool := value = literal

/-- `Type.Object(fields, strict)`: each field is there and no other key is. -/
def objectSchema (fields : List (String × (Json → Bool))) (value : Json) : Bool :=
  match value with
  | .object given => fields.all (fun field => (value.at? field.1).any field.2) &&
      given.all fun entry => entry.1 ∈ fields.map Prod.fst
  | _ => false

/-- `Type.Array` with at most `maxItems` items. -/
def arraySchema (maxItems : Nat) (item : Json → Bool) : Json → Bool
  | .array items => items.length ≤ maxItems && items.all item
  | _ => false

/-- A name of `toolAllowlist`. -/
def toolSchema : Json → Bool
  | .string name => JsString.length name ≤ 128 && match name.toList with
      | [] => false
      | c :: rest => isAlphanumeric c &&
          rest.all fun c => isAlphanumeric c || ['_', '.', ':', '-'].contains c
  | _ => false

/-- `toolAllowlist`: at most 100 names, no two the same. -/
def toolAllowlistSchema : Json → Bool
  | .array items => arraySchema 100 toolSchema (.array items) && items.Nodup
  | _ => false

def versionedHash : List (String × (Json → Bool)) := [("version", textSchema 128), ("hash", hashSchema)]

def profileBudgetFields : List String :=
  ["deadlineMs", "maxToolCalls", "maxProviderAttempts", "maxTokens", "maxRows", "maxBytes",
    "maxWindowMs"]

/-- `LLM_SCENES`. -/
def llmScenes : List String := ["chat", "sql_analysis", "fault_diagnosis", "health_check"]

def profileFields : List (String × (Json → Bool)) :=
  [("version", ordinalSchema), ("responsibility", textSchema 2000),
    ("modelScene", fun scene => scene.string?.any (· ∈ llmScenes)),
    ("prompt", objectSchema versionedHash),
    ("skills", arraySchema 50 (objectSchema (("id", textSchema 128) :: versionedHash))),
    ("toolAllowlist", toolAllowlistSchema),
    ("outputSchemaVersion", literalSchema (.number 2)),
    ("resourceBoundary", literalSchema (.string "all_required_scopes")),
    ("readonly", literalSchema (.bool true)),
    ("budget", objectSchema (profileBudgetFields.map fun key => (key, ordinalSchema))),
    ("outputLanguage", textSchema 32)]

/-- One member of `InvestigationProfileSchema`. -/
def profileMember (id subject : String) : Json → Bool :=
  objectSchema (("id", literalSchema (.string id)) ::
    ("supportedSubjectKinds", literalSchema (.array [.string subject])) :: profileFields)

/-- `validateInvestigationProfile` answers `ok`. -/
def validateInvestigationProfile (profile : Json) : Bool :=
  profileMember "system" "platform" profile || profileMember "ops" "resource" profile

/-- `profile.budget[key]`. -/
def profileBudget (profile : Json) (key : String) : Option Int :=
  ((profile.at? "budget").bind (Json.at? key)).bind Json.int?

theorem objectSchema_field {fields : List (String × (Json → Bool))} {value : Json} {key : String}
    {check : Json → Bool} (valid : objectSchema fields value) (field : (key, check) ∈ fields) :
    ∃ inner, value.at? key = some inner ∧ check inner := by
  unfold objectSchema at valid
  split at valid
  · exact Option.any_eq_true _ _ |>.mp
      (List.all_eq_true.mp (Bool.and_eq_true_iff.mp valid).1 _ field)
  · cases valid

theorem profileBudget_of_valid {profile : Json} {key : String}
    (valid : validateInvestigationProfile profile) (field : key ∈ profileBudgetFields) :
    ∃ limit, profileBudget profile key = some limit ∧ isOrdinal limit := by
  have member : ∃ budget, profile.at? "budget" = some budget ∧
      objectSchema (profileBudgetFields.map fun key => (key, ordinalSchema)) budget := by
    rcases Bool.or_eq_true_iff.mp valid with valid | valid
    · exact objectSchema_field valid (by simp [profileFields])
    · exact objectSchema_field valid (by simp [profileFields])
  obtain ⟨budget, found, valid⟩ := member
  obtain ⟨value, read, ordinal⟩ := objectSchema_field valid (List.mem_map_of_mem field)
  obtain ⟨limit, int, positive⟩ := Option.any_eq_true _ _ |>.mp ordinal
  refine ⟨limit, ?_, of_decide_eq_true positive⟩
  rw [profileBudget, found, Option.bind_some, read, Option.bind_some, int]

def BudgetHost.investigationProfileHash (profile : Json) : String :=
  host.hash profile

/-! ## The admission policy -/

structure BudgetPolicy where
  currency : String
  (maxConcurrent manualReserved maxPerResourceConcurrent maxAutomaticRequestsPerHour : Int)
  (maxAutomaticTokensPerDay maxTotalTokensPerDay maxCostMicrosPerDay : Int)
deriving DecidableEq

def integer (value : Int) (min : Int := 0) : Prop := min ≤ value ∧ value ≤ maxSafe

instance (value min : Int) : Decidable (integer value min) := inferInstanceAs (Decidable (_ ∧ _))

/-- What `policySnapshot` lets pass. -/
structure BudgetPolicy.valid (policy : BudgetPolicy) : Prop where
  currency : policy.currency.toList.length = 3 ∧ ∀ c ∈ policy.currency.toList, 'A' ≤ c ∧ c ≤ 'Z'
  maxConcurrent : integer policy.maxConcurrent 1
  maxPerResourceConcurrent : integer policy.maxPerResourceConcurrent 1
  maxAutomaticRequestsPerHour : integer policy.maxAutomaticRequestsPerHour 1
  maxAutomaticTokensPerDay : integer policy.maxAutomaticTokensPerDay 1
  maxTotalTokensPerDay : integer policy.maxTotalTokensPerDay 1
  maxCostMicrosPerDay : integer policy.maxCostMicrosPerDay 1
  manualReserved : integer policy.manualReserved
  manual_le : policy.manualReserved ≤ policy.maxConcurrent
  automatic_le : policy.maxAutomaticTokensPerDay ≤ policy.maxTotalTokensPerDay

def BudgetPolicy.toJson (policy : BudgetPolicy) : Json :=
  .object [("currency", .string policy.currency), ("maxConcurrent", .number policy.maxConcurrent),
    ("manualReserved", .number policy.manualReserved),
    ("maxPerResourceConcurrent", .number policy.maxPerResourceConcurrent),
    ("maxAutomaticRequestsPerHour", .number policy.maxAutomaticRequestsPerHour),
    ("maxAutomaticTokensPerDay", .number policy.maxAutomaticTokensPerDay),
    ("maxTotalTokensPerDay", .number policy.maxTotalTokensPerDay),
    ("maxCostMicrosPerDay", .number policy.maxCostMicrosPerDay)]

/-! ## Configurations and allocations -/

/-- The codes of `BudgetLedgerError`, the error of `execution-allocation.ts` and that of a unique
key. -/
inductive BudgetLedgerError
  | inputInvalid | conflict | policyConflict | requestInvalid | notFound | transitionInvalid
  | storeUnavailable | allocationInvalid | duplicateKey
deriving DecidableEq

/-- `allocationHash`: the digest of the canonical text. -/
def BudgetHost.allocationHash : String := host.hash value.canonical

/-- The fields of `MAX222_OFFLINE_EXECUTION` after its `id`. -/
def executionLimits : List (String × Json) :=
  [("maxToolCalls", .number 36), ("maxProviderAttempts", .number 8), ("maxTotalTokens", .number 1200000),
    ("deadlineMs", .number 120000), ("contextWindowTokens", .number 294912), ("maxTokens", .number 8192),
    ("summaryMaxTokens", .number 10240)]

/-- `MAX222_OFFLINE_EXECUTION`. -/
def max222OfflineExecution : Json :=
  .object (("schemaVersion", .number 1) :: ("id", .string "MAX-222/offline-v1") :: executionLimits)

/-- `a` carries the five trusted facts of the gate `domain`, and nothing else. -/
def authorityValid (a : Json) (domain : String) : Bool :=
  match (a.at? "ownerRunId").bind Json.string?, (a.at? "gateId").bind Json.string?,
    (a.at? "sourceHash").bind Json.string? with
  | some ownerRunId, some gateId, some sourceHash =>
    isUuid ownerRunId && isUuid gateId && isDigest sourceHash &&
      domain = "task.max222." ++ ownerRunId ++ "." ++ gateId &&
      a.deepEqual (.object [("taskId", .string "01a15ece-1c94-76b9-b2c0-91b83981e9ba"),
        ("ownerRunId", .string ownerRunId), ("gateId", .string gateId), ("domain", .string domain),
        ("sourceHash", .string sourceHash)])
  | _, _, _ => false

/-- `{ ...MAX222_OFFLINE_EXECUTION, id: 'MAX-222/task-v1', authority }`. -/
def taskExecution (authority : Json) : Json :=
  .object (("schemaVersion", .number 1) :: ("id", .string "MAX-222/task-v1") ::
    (executionLimits ++ [("authority", authority)]))

/-- `^qualification[.]max222[.][a-zA-Z0-9._:-]{1,100}$`. -/
def isQualification (domain : String) : Bool :=
  "qualification.max222.".toList.isPrefixOf domain.toList &&
    let rest := domain.toList.drop "qualification.max222.".toList.length
    1 ≤ rest.length && rest.length ≤ 100 &&
      rest.all fun c => isAlphanumeric c || ['.', '_', ':', '-'].contains c

/-- `value?.id === 'MAX-222/task-v1'`. -/
def isTaskConfiguration : Prop := value.at? "id" = some (.string "MAX-222/task-v1")

instance : DecidablePred isTaskConfiguration := fun _ => inferInstanceAs (Decidable (_ = _))

/-- `taskExecutionConfiguration`.  The copies it makes of a task configuration and its authority keep
the order of their keys; the offline configuration is always the same object. -/
def taskExecutionConfiguration (domain : String) (policy : BudgetPolicy) :
    Except BudgetLedgerError Json :=
  if policy.maxTotalTokensPerDay ≠ 1200000 ∨ policy.maxAutomaticTokensPerDay ≠ 1200000 then
    .error .allocationInvalid
  else if isTaskConfiguration value then
    match value.at? "authority" with
    | none => .error .allocationInvalid
    | some a =>
      if ¬ authorityValid a domain ∨ ¬ value.deepEqual (taskExecution a) then
        .error .allocationInvalid
      else .ok value
  else if ¬ value.deepEqual max222OfflineExecution ∨ ¬ isQualification domain then
    .error .allocationInvalid
  else .ok max222OfflineExecution

/-- `Binding`; the gate of the request is `none` where it was not read, `some none` where the column
holds `NULL`. -/
structure AllocationBinding where
  (requestId investigationId domain : String)
  mode : Lane
  profile : Json
  executionDomain : Option (Option String) := none

/-- The fields of `payload` after its `schemaVersion`. -/
def allocationFields (config : Json) (binding : AllocationBinding)
    (policy : BudgetPolicy) : List (String × Json) :=
  [("schemaVersion", .number 1), ("requestId", .string binding.requestId),
    ("investigationId", .string binding.investigationId),
    ("profileHash", .string (host.investigationProfileHash binding.profile)),
    ("domain", .string binding.domain), ("mode", binding.mode.toJson),
    ("policyHash", .string (host.allocationHash policy.toJson)), ("configuration", config)]

def freezeExecutionAllocation (configuration : Json) (binding : AllocationBinding)
    (policy : BudgetPolicy) : Except BudgetLedgerError Json := do
  let config ← taskExecutionConfiguration configuration binding.domain policy
  if binding.profile.at? "id" ≠ some (.string "ops") ∨ binding.profile.at? "version" ≠ some (.number 1) ∨
      ¬ isUuid binding.requestId ∨ ¬ isUuid binding.investigationId then
    throw .allocationInvalid
  let payload := allocationFields host config binding policy
  return .object (payload ++ [("hash", .string (host.allocationHash (.object payload)))])

/-- `configuration?.id`. -/
def configurationId : Option Json := (value.at? "configuration").bind (Json.at? "id")

/-- `formal`: the startup, the domain or the request names a task gate. -/
def formalExecution (trusted : Option Json) (binding : AllocationBinding) : Bool :=
  trusted.bind (Json.at? "id") = some (.string "MAX-222/task-v1") ||
    "task.max222.".toList.isPrefixOf binding.domain.toList || (binding.executionDomain.bind id).isSome

/-- The gate the request holds is missing or another one. -/
def foreignGate (binding : AllocationBinding) : Bool :=
  match binding.executionDomain with
  | none => false
  | some gate => gate ≠ some binding.domain

/-- A task configuration that the startup does not supply as well. -/
def untrustedTask (trusted : Option Json) (candidate : Json) (domain : String) (policy : BudgetPolicy) :
    Except BudgetLedgerError Bool :=
  if configurationId candidate = some (.string "MAX-222/task-v1") then
    match trusted, candidate.at? "configuration" with
    | some trusted, some configuration => do
      let config ← taskExecutionConfiguration trusted domain policy
      return ¬ configuration.deepEqual config
    | _, _ => return true
  else return false

/-- `readExecutionAllocation`; `none` is `undefined`. -/
def readExecutionAllocation (value : Option Json) (binding : AllocationBinding)
    (policy : BudgetPolicy) (trusted : Option Json) : Except BudgetLedgerError (Option Json) := do
  if formalExecution trusted binding ∧ (value.isNone ∨ foreignGate binding) then
    throw .allocationInvalid
  match value with
  | none => return none
  | some candidate =>
    if formalExecution trusted binding ∧
        configurationId candidate ≠ some (.string "MAX-222/task-v1") then
      throw .allocationInvalid
    if ← untrustedTask trusted candidate binding.domain policy then throw .allocationInvalid
    match candidate.at? "configuration" with
    | none => throw .allocationInvalid
    | some configuration =>
      let expected ← freezeExecutionAllocation host configuration binding policy
      if ¬ candidate.deepEqual expected then throw .allocationInvalid
      return some expected

end Slide.Investigations
