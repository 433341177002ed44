import Slide.Investigations.ExecutionAllocation
import Slide.Library.Fallible

/-!
# An allocation read again

`readExecutionAllocation` of a value that a column returned with other key orders.  It accepts what it
accepted before and rebuilds every field in its own order, except that a task configuration keeps the
order it came in.

* `taskExecutionConfiguration_congr`: equal configurations are both accepted.
* `readExecutionAllocation_congr`: so are equal allocations, and what is rebuilt.
-/

namespace Slide.Investigations

open Display

variable {host : BudgetHost} {value value' config config' candidate candidate' : Json} {domain : String}
  {policy : BudgetPolicy} {binding : AllocationBinding} {trusted allocation : Option Json}

/-- What `taskExecutionConfiguration` answers with. -/
def configurationCopy (value : Json) : Json :=
  if isTaskConfiguration value then value else max222OfflineExecution

/-! ## Configurations -/

theorem authorityValid_congr {a a' : Json} (equal : a.deepEqual a') :
    authorityValid a domain = authorityValid a' domain := by
  have same (b : Json) : decide (a.deepEqual b) = decide (a'.deepEqual b) :=
    decide_eq_decide.mpr (equal.iff b)
  unfold authorityValid
  rw [equal.string? "ownerRunId", equal.string? "gateId", equal.string? "sourceHash"]
  simp only [same]

theorem taskExecution_congr {a a' : Json} (equal : a.deepEqual a') :
    (taskExecution a).deepEqual (taskExecution a') :=
  Json.deepEqual_object (("schemaVersion", .number 1) :: ("id", .string "MAX-222/task-v1") ::
    executionLimits) equal

theorem isTaskConfiguration_congr (equal : value.deepEqual value') :
    isTaskConfiguration value ↔ isTaskConfiguration value' :=
  equal.at?_eq_string

theorem taskExecutionConfiguration_congr (equal : value.deepEqual value')
    (ok : taskExecutionConfiguration value domain policy = .ok config) :
    config = configurationCopy value ∧ config.deepEqual value ∧
      taskExecutionConfiguration value' domain policy = .ok (configurationCopy value') := by
  unfold taskExecutionConfiguration at ok
  split at ok
  · cases ok
  next limits =>
    split at ok
    next task =>
      have task' : isTaskConfiguration value' := (isTaskConfiguration_congr equal).mp task
      split at ok
      next missing => cases ok
      next a found =>
        split at ok
        · cases ok
        next valid =>
          cases ok
          rw [not_or, not_not, not_not] at valid
          have field := equal.at? "authority"
          rw [found] at field
          obtain ⟨a', found', same⟩ := Option.map_eq_some_iff.mp field.symm
          have authority : a.deepEqual a' := same.symm
          refine ⟨(if_pos task).symm, rfl, ?_⟩
          unfold taskExecutionConfiguration
          rw [if_neg limits, if_pos task', found', configurationCopy, if_pos task']
          dsimp only
          refine if_neg (not_or.mpr ⟨not_not.mpr ?_, not_not.mpr ?_⟩)
          · rw [← authorityValid_congr authority]
            exact valid.1
          · exact (Eq.symm equal).trans (valid.2.trans (taskExecution_congr authority))
    next plain =>
      have plain' : ¬ isTaskConfiguration value' := fun task =>
        plain ((isTaskConfiguration_congr equal).mpr task)
      split at ok
      · cases ok
      next valid =>
        cases ok
        rw [not_or, not_not, not_not] at valid
        refine ⟨(if_neg plain).symm, valid.1.symm, ?_⟩
        unfold taskExecutionConfiguration
        rw [if_neg limits, if_neg plain', configurationCopy, if_neg plain']
        refine if_neg (not_or.mpr ⟨not_not.mpr ?_, not_not.mpr valid.2⟩)
        exact (Eq.symm equal).trans valid.1

/-! ## Allocations -/

/-- The allocation that `freezeExecutionAllocation` builds around a configuration. -/
def frozenAllocation (host : BudgetHost) (config : Json) (binding : AllocationBinding)
    (policy : BudgetPolicy) : Json :=
  let payload := allocationFields host config binding policy
  .object (payload ++ [("hash", .string (host.allocationHash (.object payload)))])

@[simp] theorem frozenAllocation_configuration :
    (frozenAllocation host config binding policy).at? "configuration" = some config := rfl

@[simp] theorem frozenAllocation_policyHash :
    (frozenAllocation host config binding policy).at? "policyHash" =
      some (.string (host.allocationHash policy.toJson)) := rfl

theorem allocationFields_congr (equal : config.deepEqual config') :
    Json.deepEqual (.object (allocationFields host config binding policy))
      (.object (allocationFields host config' binding policy)) :=
  Json.deepEqual_object [_, _, _, _, _, _, _] equal

theorem frozenAllocation_congr (equal : config.deepEqual config') :
    (frozenAllocation host config binding policy).deepEqual
      (frozenAllocation host config' binding policy) := by
  have digest : host.allocationHash (.object (allocationFields host config binding policy)) =
      host.allocationHash (.object (allocationFields host config' binding policy)) :=
    congrArg host.hash (allocationFields_congr equal)
  unfold frozenAllocation
  dsimp only
  rw [digest]
  exact Json.deepEqual_object [_, _, _, _, _, _, _] equal

theorem freezeExecutionAllocation_congr {frozen : Json} (equal : value.deepEqual value')
    (ok : freezeExecutionAllocation host value binding policy = .ok frozen) :
    frozen = frozenAllocation host (configurationCopy value) binding policy ∧
      (configurationCopy value).deepEqual value ∧
      freezeExecutionAllocation host value' binding policy =
        .ok (frozenAllocation host (configurationCopy value') binding policy) := by
  obtain ⟨config, accepted, ok⟩ := bind_eq_ok.mp ok
  obtain ⟨known, ok⟩ := guard_eq_ok.mp ok
  cases ok
  obtain ⟨rfl, copied, accepted'⟩ := taskExecutionConfiguration_congr equal accepted
  refine ⟨rfl, copied, ?_⟩
  exact bind_eq_ok.mpr ⟨_, accepted', guard_eq_ok.mpr ⟨known, rfl⟩⟩

theorem configurationId_congr (equal : candidate.deepEqual candidate') :
    configurationId candidate = some (.string "MAX-222/task-v1") ↔
      configurationId candidate' = some (.string "MAX-222/task-v1") := by
  have one {candidate candidate' : Json} (equal : candidate.deepEqual candidate')
      (task : configurationId candidate = some (.string "MAX-222/task-v1")) :
      configurationId candidate' = some (.string "MAX-222/task-v1") := by
    obtain ⟨config, found, id⟩ := Option.bind_eq_some_iff.mp task
    have field := equal.at? "configuration"
    rw [found] at field
    obtain ⟨config', found', same⟩ := Option.map_eq_some_iff.mp field.symm
    refine Option.bind_eq_some_iff.mpr ⟨config', found', ?_⟩
    exact (isTaskConfiguration_congr (show config.deepEqual config' from same.symm)).mp id
  exact ⟨one equal, one (Eq.symm equal)⟩

theorem untrustedTask_congr (equal : candidate.deepEqual candidate') :
    untrustedTask trusted candidate domain policy = untrustedTask trusted candidate' domain policy := by
  unfold untrustedTask
  have field := equal.at? "configuration"
  by_cases task : configurationId candidate = some (.string "MAX-222/task-v1")
  · rw [if_pos task, if_pos ((configurationId_congr equal).mp task)]
    cases trusted with
    | none => rfl
    | some trusted =>
      cases found : candidate.at? "configuration" with
      | none =>
        rw [found] at field
        rw [Option.map_eq_none_iff.mp field.symm]
      | some config =>
        rw [found] at field
        obtain ⟨config', found', same⟩ := Option.map_eq_some_iff.mp field.symm
        rw [found']
        have equal : config.deepEqual config' := same.symm
        refine congrArg (taskExecutionConfiguration trusted domain policy >>= ·) (funext fun c => ?_)
        exact congrArg Except.ok (decide_eq_decide.mpr (not_congr (equal.iff c)))
  · rw [if_neg task, if_neg fun task' => task ((configurationId_congr equal).mpr task')]

theorem readExecutionAllocation_congr (equal : candidate.deepEqual candidate')
    (ok : readExecutionAllocation host (some candidate) binding policy trusted = .ok allocation) :
    ∃ config config', candidate.at? "configuration" = some config ∧
      candidate'.at? "configuration" = some config' ∧ config.deepEqual config' ∧
      (configurationCopy config).deepEqual config ∧
      allocation = some (frozenAllocation host (configurationCopy config) binding policy) ∧
      candidate.deepEqual (frozenAllocation host (configurationCopy config) binding policy) ∧
      readExecutionAllocation host (some candidate') binding policy trusted =
        .ok (some (frozenAllocation host (configurationCopy config') binding policy)) := by
  obtain ⟨gate, ok⟩ := guard_eq_ok.mp ok
  dsimp only at ok
  obtain ⟨formal, ok⟩ := guard_eq_ok.mp ok
  obtain ⟨untrusted, trusts, ok⟩ := bind_eq_ok.mp ok
  obtain ⟨trust, ok⟩ := guard_eq_ok.mp ok
  split at ok
  next missing => cases ok
  next config found =>
    obtain ⟨expected, frozen, ok⟩ := bind_eq_ok.mp ok
    obtain ⟨same, ok⟩ := guard_eq_ok.mp ok
    cases ok
    have field := equal.at? "configuration"
    rw [found] at field
    obtain ⟨config', found', copied⟩ := Option.map_eq_some_iff.mp field.symm
    have configs : config.deepEqual config' := copied.symm
    obtain ⟨rfl, copy, frozen'⟩ := freezeExecutionAllocation_congr configs frozen
    obtain ⟨-, copy', -⟩ := freezeExecutionAllocation_congr (Eq.refl config'.canonical) frozen'
    refine ⟨config, config', found, found', configs, copy, rfl, not_not.mp same, ?_⟩
    unfold readExecutionAllocation
    refine guard_eq_ok.mpr ⟨gate, guard_eq_ok.mpr ⟨?_, ?_⟩⟩
    · exact fun ⟨required, other⟩ => formal ⟨required, fun task =>
        other ((configurationId_congr equal).mp task)⟩
    · refine bind_eq_ok.mpr ⟨untrusted, (untrustedTask_congr equal) ▸ trusts, ?_⟩
      refine guard_eq_ok.mpr ⟨trust, ?_⟩
      rw [found']
      refine bind_eq_ok.mpr ⟨_, frozen', guard_eq_ok.mpr ⟨not_not.mpr ?_, rfl⟩⟩
      have rebuilt : (configurationCopy config).deepEqual (configurationCopy config') :=
        copy.trans (configs.trans copy'.symm)
      exact (Eq.symm equal).trans ((not_not.mp same).trans (frozenAllocation_congr rebuilt))

theorem readExecutionAllocation_frozen (task : isTaskConfiguration config)
    (accepted : taskExecutionConfiguration config binding.domain policy = .ok config)
    (gate : ¬ foreignGate binding)
    (known : ¬ (binding.profile.at? "id" ≠ some (.string "ops") ∨
      binding.profile.at? "version" ≠ some (.number 1) ∨
      ¬ isUuid binding.requestId ∨ ¬ isUuid binding.investigationId)) :
    readExecutionAllocation host (some (frozenAllocation host config binding policy)) binding policy
      (some config) = .ok (some (frozenAllocation host config binding policy)) := by
  have named : configurationId (frozenAllocation host config binding policy) =
      some (.string "MAX-222/task-v1") := task
  unfold readExecutionAllocation
  refine guard_eq_ok.mpr ⟨fun ⟨_, missing⟩ => missing.elim nofun gate, ?_⟩
  refine guard_eq_ok.mpr ⟨fun ⟨_, other⟩ => other named, ?_⟩
  refine bind_eq_ok.mpr ⟨false, ?_, guard_eq_ok.mpr ⟨nofun, ?_⟩⟩
  · unfold untrustedTask
    rw [if_pos named]
    refine bind_eq_ok.mpr ⟨config, accepted, congrArg Except.ok ?_⟩
    exact decide_eq_false (not_not.mpr rfl)
  · refine bind_eq_ok.mpr ⟨frozenAllocation host config binding policy, ?_,
      guard_eq_ok.mpr ⟨not_not.mpr rfl, rfl⟩⟩
    exact bind_eq_ok.mpr ⟨config, accepted, guard_eq_ok.mpr ⟨known, rfl⟩⟩

end Slide.Investigations
