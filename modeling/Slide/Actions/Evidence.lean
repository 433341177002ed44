import Slide.Library.Fallible

/-!
# Evidence of an action

`evidence-adapter.ts` and `checkedActionReceipt` of `executor.ts`: what a slot accepts as a sample, and
what a report concludes from its slots.  Times are in milliseconds.
-/

namespace Slide.Actions

def preconditionFailed : String := "OPERATIONS_PRECONDITION_FAILED"
def versionConflict : String := "OPERATIONS_VERSION_CONFLICT"
def notFound : String := "OPERATIONS_NOT_FOUND"

/-- The fixed windows of a verifier, in seconds. -/
structure Windows where
  (beforeSeconds readinessSeconds observationSeconds intervalSeconds maxExtraRestarts : Nat)
  requireAllHealthy : Bool
deriving DecidableEq

def Windows.fixed : Windows := ⟨120, 60, 300, 10, 0, true⟩

structure Verifier where
  (id version definitionHash : String)
  windows : Windows

structure Precondition where
  (kind expected : String)

/-- What verification reads of `ActionPlanContent`; `evidence` holds the ends of validity. -/
structure PlanContent where
  investigationId : String
  (resultVersion targetId : Nat)
  toolHash : String
  evidence : List Int
  preconditions : List Precondition
  verifier : Verifier

structure ActionPlan where
  id : String
  version : Nat
  contentHash : String
  content : PlanContent

/-- `/^[a-f0-9]{64}$/`. -/
def isHash (s : String) : Bool :=
  s.length = 64 && s.toList.all fun c => c.isDigit || ('a' ≤ c && c ≤ 'f')

def actionConfigHash (plan : ActionPlan) : Except String String :=
  match plan.content.preconditions with
  | [condition] =>
    if condition.kind = "target_config_hash" ∧ isHash condition.expected = true then
      .ok condition.expected
    else .error preconditionFailed
  | _ => .error preconditionFailed

/-! ## Receipts -/

inductive Outcome
  | succeeded | not_executed | outcome_unknown
deriving DecidableEq

/-- A receipt that passes its schema. -/
structure ActionReceipt where
  (operationId planHash configHash helperHash : String)
  outcome : Outcome
  before : String
  after : Option String

/-- `checkedActionReceipt`; a value that its schema refuses is `none`. -/
def checkedActionReceipt (value : Option ActionReceipt) (operationId : String) (plan : ActionPlan) :
    Except String ActionReceipt :=
  match value with
  | none => .error preconditionFailed
  | some r =>
    if r.operationId ≠ operationId ∨ r.planHash ≠ plan.contentHash ∨
        r.helperHash ≠ plan.content.toolHash then .error preconditionFailed
    else do
      let configHash ← actionConfigHash plan
      if r.configHash ≠ configHash ∨
          r.outcome = .succeeded ∧ (r.after = none ∨ r.after = some r.before) then
        .error preconditionFailed
      else .ok r

/-! ## Samples -/

/-- A sample that passes `healthSampleSchema`. -/
structure HealthSample where
  at_ : Int
  serverId : Nat
  (configHash helperHash unitHash hostFingerprint invocationId : String)
  (active running : Bool)
  mainPid : Nat
  httpStatus : Int
  restarts : Nat
deriving DecidableEq

structure VerificationDefinition where
  (id version : String)
  serverId : Nat
  (configHash helperHash unitHash hostFingerprint : String)
  windows : Windows

structure SampleSlot where
  at_ : Int
  sample : Option HealthSample
deriving DecidableEq

/-- `ActionEvidenceAdapter.checked`: a slot takes no sample of another time or another target. -/
def VerificationDefinition.checked (d : VerificationDefinition) (s : HealthSample) (at_ : Int) :
    Option HealthSample :=
  if 1000 < (s.at_ - at_).natAbs ∨ s.serverId ≠ d.serverId ∨ s.configHash ≠ d.configHash ∨
      s.helperHash ≠ d.helperHash ∨ s.unitHash ≠ d.unitHash ∨
      s.hostFingerprint ≠ d.hostFingerprint then none
  else some s

/-- `ActionEvidenceAdapter.before`: one slot each ten seconds, filled by the only sample that fits. -/
def VerificationDefinition.before (d : VerificationDefinition) (history : List HealthSample)
    (until_ : Int) : List SampleSlot :=
  (List.range 13).map fun i : Nat =>
    let at_ := until_ - 120000 + (i : Int) * 10000
    match history.filterMap (d.checked · at_) with
    | [s] => ⟨at_, some s⟩
    | _ => ⟨at_, none⟩

/-- What a read of the target gives: nothing in time, or a value that may be no sample. -/
inductive Reading
  | failed
  | slow
  | value (parsed : Option HealthSample)

def VerificationDefinition.sample (d : VerificationDefinition) (reading : Reading) (at_ : Int) :
    SampleSlot :=
  match reading with
  | .failed | .slow | .value none => ⟨at_, none⟩
  | .value (some s) => ⟨at_, d.checked s at_⟩

def VerificationDefinition.assertPlan (d : VerificationDefinition) (definitionHash : String)
    (plan : ActionPlan) : Except String Unit := do
  let v := plan.content.verifier
  if v.id ≠ d.id ∨ v.version ≠ d.version ∨ v.definitionHash ≠ definitionHash ∨
      plan.content.targetId ≠ d.serverId then throw preconditionFailed
  let configHash ← actionConfigHash plan
  if configHash ≠ d.configHash ∨ plan.content.toolHash ≠ d.helperHash ∨
      v.windows ≠ .fixed ∨ d.windows ≠ .fixed then throw preconditionFailed

/-! ## The conclusion -/

def healthy (s : HealthSample) : Bool :=
  s.active && s.running && 0 < s.mainPid && s.httpStatus = 200

inductive ReportState
  | pending | observing | passed | failed | inconclusive
deriving DecidableEq

structure Verdict where
  state : ReportState
  reason : Option String
  missingSamples : Nat

/-- Whether a slot has a sample, and one that fails a test. -/
def SampleSlot.fails (test : HealthSample → Bool) (slot : SampleSlot) : Bool :=
  slot.sample.any fun s => !test s

/-- A slot that shows the target healthy under an invocation. -/
def SampleSlot.shows (invocation : Option String) (slot : SampleSlot) : Bool :=
  slot.sample.any fun s => healthy s && some s.invocationId = invocation

/-- `evaluateActionEffect`: missing data wins. -/
def evaluateActionEffect (before readiness observation : List SampleSlot) (receipt : ActionReceipt) :
    Verdict :=
  let missingSamples := (before ++ readiness ++ observation).countP (·.sample = none) +
    (13 - before.length) + (30 - observation.length)
  if missingSamples ≠ 0 then ⟨.inconclusive, some "MISSING_SAMPLES", missingSamples⟩
  else
    match before.getLast?.bind (·.sample) with
    | none => ⟨.failed, some "INVOCATION_MISMATCH", 0⟩
    | some last =>
      if before.any (·.fails (·.invocationId = receipt.before)) ∨ some receipt.before = receipt.after then
        ⟨.failed, some "INVOCATION_MISMATCH", 0⟩
      else if ¬ readiness.any (·.shows receipt.after) then ⟨.failed, some "READINESS_TIMEOUT", 0⟩
      else if
          readiness.any (·.fails fun s => s.restarts = last.restarts &&
            (s.invocationId = receipt.before || some s.invocationId = receipt.after)) ∨
          observation.any (·.fails fun s => healthy s && some s.invocationId = receipt.after &&
            s.restarts = last.restarts) then
        ⟨.failed, some "UNHEALTHY_OR_EXTRA_RESTART", 0⟩
      else ⟨.passed, none, 0⟩

/-- What the slots of an effect show. -/
structure Effective (before readiness observation : List SampleSlot) (receipt : ActionReceipt) : Prop where
  full : 13 ≤ before.length ∧ 30 ≤ observation.length
  complete : ∀ slot ∈ before ++ readiness ++ observation, slot.sample ≠ none
  /-- Every earlier sample is of the invocation that the action replaced. -/
  replaced : ∀ slot ∈ before, ∀ s ∈ slot.sample, s.invocationId = receipt.before
  differs : receipt.after ≠ some receipt.before
  ready : ∃ slot ∈ readiness, slot.shows receipt.after = true
  /-- The number of restarts is the one before the action. -/
  restarts : ∃ slot last, before.getLast? = some slot ∧ slot.sample = some last ∧
    (∀ slot ∈ readiness, ∀ s ∈ slot.sample, s.restarts = last.restarts ∧
      (s.invocationId = receipt.before ∨ some s.invocationId = receipt.after)) ∧
    ∀ slot ∈ observation, ∀ s ∈ slot.sample,
      healthy s = true ∧ some s.invocationId = receipt.after ∧ s.restarts = last.restarts

variable {before readiness observation : List SampleSlot} {receipt : ActionReceipt}
  {slots : List SampleSlot} {test : HealthSample → Bool}

theorem not_any_fails (quiet : ¬ slots.any (·.fails test) = true) :
    ∀ slot ∈ slots, ∀ s ∈ slot.sample, test s = true := by
  intro slot mem s sample
  by_contra failed
  refine quiet (List.any_eq_true.mpr ⟨slot, mem, ?_⟩)
  rw [SampleSlot.fails, Option.mem_def.mp sample, Option.any_some, Bool.not_eq_true']
  exact Bool.eq_false_iff.mpr failed

theorem evaluateActionEffect_passed
    (passed : (evaluateActionEffect before readiness observation receipt).state = .passed) :
    Effective before readiness observation receipt := by
  unfold evaluateActionEffect at passed
  dsimp only at passed
  split at passed
  next => cases passed
  next present =>
    split at passed
    next => cases passed
    next last found =>
      split at passed
      next => cases passed
      next same =>
        split at passed
        next => cases passed
        next ready =>
          split at passed
          next => cases passed
          next steady =>
            obtain ⟨replaced, differs⟩ := not_or.mp same
            obtain ⟨steady, healthy⟩ := not_or.mp steady
            obtain ⟨slot, ends, sample⟩ := Option.bind_eq_some_iff.mp found
            refine ⟨by omega, fun slot mem missing => ?_, fun slot mem s sample => ?_,
              fun same => differs same.symm, List.any_eq_true.mp (not_not.mp ready),
              ⟨slot, last, ends, sample, fun slot mem s sample => ?_, fun slot mem s sample => ?_⟩⟩
            · have counted : 0 < (before ++ readiness ++ observation).countP (·.sample = none) :=
                List.countP_pos_iff.mpr ⟨slot, mem, decide_eq_true missing⟩
              omega
            · exact of_decide_eq_true (not_any_fails replaced slot mem s sample)
            · simpa using not_any_fails steady slot mem s sample
            · simpa [and_assoc] using not_any_fails healthy slot mem s sample

end Slide.Actions
