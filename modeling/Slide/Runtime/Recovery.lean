import Slide.Library.Fallible
import Slide.Library.JsNumber
import Slide.Library.Table
import Slide.Runtime.StreamingCoordinator

/-!
# The recovery state

`RecoverySnapshot`, its validation and the recovery allowance of `runtime/recovery-policy.ts`.
Counters, reservations and timings are sums and differences of integers and stay integers; the
totals of the usage a provider reports, and a deadline read back from a checkpoint, may be any
number.
-/

namespace Slide.Runtime

inductive RecoveryKind
  | empty | continuation | stream | repetition | context

structure RecoveryCounts where
  empty : ℤ := 0
  continuation : ℤ := 0
  stream : ℤ := 0
  repetition : ℤ := 0
  context : ℤ := 0

namespace RecoveryCounts

def get (counts : RecoveryCounts) : RecoveryKind → ℤ
  | .empty => counts.empty
  | .continuation => counts.continuation
  | .stream => counts.stream
  | .repetition => counts.repetition
  | .context => counts.context

def increment (counts : RecoveryCounts) : RecoveryKind → RecoveryCounts
  | .empty => { counts with empty := counts.empty + 1 }
  | .continuation => { counts with continuation := counts.continuation + 1 }
  | .stream => { counts with stream := counts.stream + 1 }
  | .repetition => { counts with repetition := counts.repetition + 1 }
  | .context => { counts with context := counts.context + 1 }

def sum (counts : RecoveryCounts) : ℤ :=
  counts.empty + counts.continuation + counts.stream + counts.repetition + counts.context

end RecoveryCounts

/-- What children were given of each allowance. -/
structure Delegated where
  modelSteps : ℤ := 0
  providerAttempts : ℤ := 0
  toolCalls : ℤ := 0
  tokens : ℤ := 0

structure Timing where
  (cycleMs providerMs : ℤ)

structure RecoverySnapshot where
  schemaVersion : ℤ := 1
  modelSteps : ℤ := 0
  providerAttempts : ℤ := 0
  toolCalls : ℤ := 0
  total : ℤ := 0
  counts : RecoveryCounts := {}
  unknownRequests : ℤ := 0
  reservedTokens : ℤ := 0
  usage : Table String JsNumber := .empty
  delegated : Option Delegated := none
  deadlineAt : Option JsNumber := none
  timing : Option Timing := none
  noProgressSteps : Option ℤ := none
  progressEvidence : Option (List String) := none
  progressCandidate : Option String := none
  progressKeyId : Option String := none
  progressRunId : Option String := none

/-- `Number.MAX_SAFE_INTEGER`. -/
def maxSafeInteger : ℤ := 2 ^ 53 - 1

/-- The validator's `number`, of an integer. -/
def isCounter (n : ℤ) : Bool := decide (0 ≤ n ∧ n ≤ maxSafeInteger)

/-- The validator's `number`. -/
def isNumber (n : JsNumber) : Bool := n.safeInteger?.any fun n => decide (0 ≤ n)

/-- `/^[a-f0-9]{64}$/`. -/
def isDigest (s : String) : Bool :=
  s.length == 64 && s.toList.all fun c => ('a' ≤ c && c ≤ 'f') || ('0' ≤ c && c ≤ '9')

/-- `/^[a-f0-9-]{36}$/`. -/
def isUuid (s : String) : Bool :=
  s.length == 36 && s.toList.all fun c => ('a' ≤ c && c ≤ 'f') || ('0' ≤ c && c ≤ '9') || c == '-'

theorem isUuid_zeros : isUuid "00000000-0000-0000-0000-000000000000" = true := by decide

def usageKeys : List String := ["prompt_tokens", "completion_tokens", "cached_tokens"]

/-- The usage a snapshot keeps. -/
def keptUsage (usage : Table String JsNumber) : Table String JsNumber :=
  usageKeys.foldl (fun kept key =>
    match usage.get key with
    | some value => kept.put key value
    | none => kept) .empty

namespace RecoverySnapshot

/-- The counters, the reservations, the allowance and the totals are safe integers, add up, and
every step was an attempt. -/
def countersValid (s : RecoverySnapshot) : Bool :=
  s.schemaVersion == 1 &&
    [s.modelSteps, s.providerAttempts, s.toolCalls, s.total, s.unknownRequests,
      s.reservedTokens].all isCounter &&
    [s.counts.empty, s.counts.continuation, s.counts.stream, s.counts.repetition,
      s.counts.context].all isCounter &&
    s.total == s.counts.sum && decide (s.modelSteps ≤ s.providerAttempts) &&
    s.usage.toList.all isNumber

def Delegated.valid (d : Delegated) : Bool :=
  [d.modelSteps, d.providerAttempts, d.toolCalls, d.tokens].all isCounter

def Timing.valid (t : Timing) : Bool :=
  isCounter t.cycleMs && isCounter t.providerMs && decide (t.providerMs ≤ t.cycleMs)

def invalid (message : String) : RuntimeError := ⟨"INVALID_CHECKPOINT", message⟩

end RecoverySnapshot

open RecoverySnapshot in
def validateRecoverySnapshot (s : RecoverySnapshot) : Except RuntimeError RecoverySnapshot := do
  if ¬ s.countersValid then throw (invalid "Invalid runtime recovery checkpoint")
  if ¬ s.delegated.all Delegated.valid then throw (invalid "Invalid delegated allowance")
  if ¬ s.timing.all Timing.valid then throw (invalid "Invalid runtime timing")
  if ¬ s.deadlineAt.all isNumber then throw (invalid "Invalid persisted deadline")
  if ¬ s.noProgressSteps.all isCounter then throw (invalid "Invalid progress counter")
  if ¬ s.progressRunId.all isUuid then throw (invalid "Invalid progress run ID")
  if ¬ s.progressKeyId.all isUuid then throw (invalid "Invalid progress key ID")
  if ¬ s.progressEvidence.all (fun evidence => decide (evidence.length ≤ 256) && evidence.all isDigest)
    then throw (invalid "Invalid progress evidence")
  if ¬ s.progressCandidate.all isDigest then
    throw (invalid "Invalid candidate progress fingerprint")
  return { s with usage := keptUsage s.usage }

/-! ## Recoveries -/

/-- The default limits, which a configured limit may only lower. -/
def defaultLimit : RecoveryKind → ℤ
  | .empty => 2
  | .continuation => 3
  | .stream | .repetition => 2
  | .context => 4

/-- Limits the constructor of `RecoveryPolicy` has accepted. -/
structure RecoveryLimits where
  total : ℤ := 8
  limit : RecoveryKind → ℤ := defaultLimit
  total_le : 0 ≤ total ∧ total ≤ 8 := by decide
  limit_le : ∀ kind, 0 ≤ limit kind ∧ limit kind ≤ defaultLimit kind := by
    intro kind; cases kind <;> decide

def standardLimits : RecoveryLimits := {}

/-- `consume`; `none` when the allowance is spent. -/
def RecoverySnapshot.consume (s : RecoverySnapshot) (limits : RecoveryLimits)
    (kind : RecoveryKind) : Option RecoverySnapshot :=
  if limits.total ≤ s.total ∨ limits.limit kind ≤ s.counts.get kind then none
  else some { s with total := s.total + 1, counts := s.counts.increment kind }

/-! ## What validation accepts -/

theorem isCounter_iff {n : ℤ} : isCounter n = true ↔ 0 ≤ n ∧ n ≤ maxSafeInteger := by
  simp [isCounter]

theorem isNumber_iff {a : JsNumber} :
    isNumber a = true ↔ ∃ n : ℤ, a = .ofInt n ∧ 0 ≤ n ∧ n ≤ maxSafeInteger := by
  cases a with
  | nan | infinite => simp [isNumber, JsNumber.safeInteger?]
  | finite x =>
    simp only [isNumber, JsNumber.safeInteger?, Option.any_eq_true, decide_eq_true_eq,
      Option.ite_none_right_eq_some, JsNumber.ofInt_eq, JsNumber.finite.injEq]
    constructor
    · rintro ⟨n, ⟨⟨whole, bound⟩, same⟩, nonneg⟩
      obtain rfl := some.inj same
      exact ⟨x.num, ((Rat.den_eq_one_iff x).mp whole).symm, nonneg, (abs_le.mp bound).2⟩
    · rintro ⟨n, rfl, nonneg, bound⟩
      have le : |n| ≤ 2 ^ 53 - 1 := by
        rw [abs_of_nonneg nonneg]
        exact bound
      exact ⟨n, ⟨⟨Rat.den_intCast n, by simpa using le⟩, congrArg some (Rat.num_intCast n)⟩, nonneg⟩

theorem keptUsage_congr {u v : Table String JsNumber} (same : ∀ k ∈ usageKeys, u.get k = v.get k) :
    keptUsage u = keptUsage v := by
  have prompt := same "prompt_tokens" (by decide)
  have completion := same "completion_tokens" (by decide)
  have cached := same "cached_tokens" (by decide)
  simp only [keptUsage, usageKeys, List.foldl, prompt, completion, cached]

theorem get_keptUsage {u : Table String JsNumber} {k : String} :
    (keptUsage u).get k = if k ∈ usageKeys then u.get k else none := by
  have keep : ∀ (kept : Table String JsNumber) (key : String),
      (match u.get key with
        | some value => kept.put key value
        | none => kept).get k = if k = key then (u.get key).or (kept.get k) else kept.get k := by
    intro kept key
    cases u.get key with
    | none => simp
    | some value => simp only [Table.get_put, Option.some_or]
  simp only [keptUsage, usageKeys, List.foldl, keep, Table.get_empty, Option.or_none,
    List.mem_cons, List.not_mem_nil, or_false]
  by_cases cached : k = "cached_tokens"
  · subst cached
    simp
  · by_cases completion : k = "completion_tokens"
    · subst completion
      simp
    · by_cases prompt : k = "prompt_tokens" <;> simp [prompt, completion, cached]

theorem keptUsage_idem {u : Table String JsNumber} : keptUsage (keptUsage u) = keptUsage u :=
  keptUsage_congr fun k mem => by rw [get_keptUsage, if_pos mem]

/-- What validation checks, part by part. -/
structure RecoverySnapshot.Valid (s : RecoverySnapshot) : Prop where
  version : s.schemaVersion = 1
  modelSteps : 0 ≤ s.modelSteps
  attempts : s.modelSteps ≤ s.providerAttempts ∧ s.providerAttempts ≤ maxSafeInteger
  toolCalls : 0 ≤ s.toolCalls ∧ s.toolCalls ≤ maxSafeInteger
  total : s.total = s.counts.sum ∧ s.total ≤ maxSafeInteger
  counts : ∀ kind, 0 ≤ s.counts.get kind
  unknown : 0 ≤ s.unknownRequests ∧ s.unknownRequests ≤ maxSafeInteger
  reserved : 0 ≤ s.reservedTokens ∧ s.reservedTokens ≤ maxSafeInteger
  usage : ∀ k v, s.usage.get k = some v → isNumber v = true
  delegated : s.delegated.all RecoverySnapshot.Delegated.valid = true
  timing : s.timing.all RecoverySnapshot.Timing.valid = true
  deadlineAt : s.deadlineAt.all isNumber = true
  noProgress : s.noProgressSteps.all isCounter = true
  runId : s.progressRunId.all isUuid = true
  keyId : s.progressKeyId.all isUuid = true
  evidence : s.progressEvidence.all
    (fun evidence => decide (evidence.length ≤ 256) && evidence.all isDigest) = true
  candidate : s.progressCandidate.all isDigest = true

theorem RecoverySnapshot.countersValid_iff {s : RecoverySnapshot} :
    s.countersValid = true ↔ s.schemaVersion = 1 ∧ 0 ≤ s.modelSteps ∧
      (s.modelSteps ≤ s.providerAttempts ∧ s.providerAttempts ≤ maxSafeInteger) ∧
      (0 ≤ s.toolCalls ∧ s.toolCalls ≤ maxSafeInteger) ∧
      (s.total = s.counts.sum ∧ s.total ≤ maxSafeInteger) ∧ (∀ kind, 0 ≤ s.counts.get kind) ∧
      (0 ≤ s.unknownRequests ∧ s.unknownRequests ≤ maxSafeInteger) ∧
      (0 ≤ s.reservedTokens ∧ s.reservedTokens ≤ maxSafeInteger) ∧
      ∀ k v, s.usage.get k = some v → isNumber v = true := by
  have kinds : (∀ kind, 0 ≤ s.counts.get kind) ↔ 0 ≤ s.counts.empty ∧ 0 ≤ s.counts.continuation ∧
      0 ≤ s.counts.stream ∧ 0 ≤ s.counts.repetition ∧ 0 ≤ s.counts.context :=
    ⟨fun all => ⟨all .empty, all .continuation, all .stream, all .repetition, all .context⟩,
      by rintro ⟨a, b, c, d, e⟩ kind; cases kind <;> assumption⟩
  have totals : s.usage.toList.all isNumber = true ↔
      ∀ k v, s.usage.get k = some v → isNumber v = true := by
    simp only [List.all_eq_true, Table.mem_toList]
    exact ⟨fun all k v found => all v ⟨k, found⟩, fun all v found => found.elim fun k => all k v⟩
  simp only [countersValid, Bool.and_eq_true, beq_iff_eq, List.all_cons, List.all_nil,
    isCounter_iff, decide_eq_true_eq, totals, kinds, and_true]
  unfold RecoveryCounts.sum
  constructor
  · rintro ⟨⟨⟨⟨⟨version, steps, attempts, tools, total, unknown, reserved⟩, a, b, c, d, e⟩, sum⟩, le⟩,
      usage⟩
    exact ⟨version, steps.1, ⟨le, attempts.2⟩, tools, ⟨sum, total.2⟩,
      ⟨a.1, b.1, c.1, d.1, e.1⟩, unknown, reserved, usage⟩
  · rintro ⟨version, steps, attempts, tools, ⟨sum, total⟩, ⟨a, b, c, d, e⟩, unknown, reserved, usage⟩
    refine ⟨⟨⟨⟨⟨version, ?_, ?_, tools, ?_, unknown, reserved⟩, ?_⟩, sum⟩, attempts.1⟩, usage⟩ <;>
      omega

theorem validateRecoverySnapshot_ok {s t : RecoverySnapshot} :
    validateRecoverySnapshot s = .ok t ↔ s.Valid ∧ t = { s with usage := keptUsage s.usage } := by
  unfold validateRecoverySnapshot
  simp only [guard_eq_ok, not_not]
  constructor
  · rintro ⟨counters, delegated, timing, deadline, noProgress, runId, keyId, evidence, candidate,
      same⟩
    obtain ⟨version, steps, attempts, tools, total, counts, unknown, reserved, usage⟩ :=
      RecoverySnapshot.countersValid_iff.mp counters
    exact ⟨⟨version, steps, attempts, tools, total, counts, unknown, reserved, usage, delegated,
      timing, deadline, noProgress, runId, keyId, evidence, candidate⟩, (Except.ok.inj same).symm⟩
  · rintro ⟨valid, rfl⟩
    exact ⟨RecoverySnapshot.countersValid_iff.mpr ⟨valid.version, valid.modelSteps, valid.attempts,
      valid.toolCalls, valid.total, valid.counts, valid.unknown, valid.reserved, valid.usage⟩,
      valid.delegated, valid.timing, valid.deadlineAt, valid.noProgress, valid.runId, valid.keyId,
      valid.evidence, valid.candidate, rfl⟩

theorem validateRecoverySnapshot_idem {s t : RecoverySnapshot}
    (ok : validateRecoverySnapshot s = .ok t) : validateRecoverySnapshot t = .ok t := by
  obtain ⟨valid, rfl⟩ := validateRecoverySnapshot_ok.mp ok
  refine validateRecoverySnapshot_ok.mpr ⟨{ valid with usage := ?_ }, ?_⟩
  · intro k v found
    change (keptUsage s.usage).get k = some v at found
    rw [get_keptUsage] at found
    split at found
    next => exact valid.usage k v found
    next => cases found
  · rw [keptUsage_idem]

end Slide.Runtime
