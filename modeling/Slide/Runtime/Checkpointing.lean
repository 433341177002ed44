import Mathlib.Algebra.Order.BigOperators.Group.List
import Slide.Runtime.TurnLoop

/-!
# A turn can checkpoint the state it reached

`Keeps` is the condition on one step: what a provider reports keeps the running totals non-negative
safe integers, a provider is not measured longer than the cycle it was called in, and no counter
leaves the safe integers.  Under it every checkpoint passes validation, and what a checkpoint stores
is restored as it is.

Two of these the code does not see to.  The ordinary path adds up every number a provider reports,
where the summary path adds non-negative safe integers only; and the two maxima of a timing are
taken of two clock differences, either of which is clamped at zero alone.
-/

namespace Slide.Runtime

open Transition List

variable {spec : AgentRunSpec} {s s' : RecoverySnapshot} {u : List ℤ} {t t' : Turn} {e : TurnEvent}
  {es : List TurnEvent} {r : ℤ}

/-- One more request within the safe integers. -/
def RequestFits (spec : AgentRunSpec) (t : Turn) (view : RequestView) : Prop :=
  t.recovery.providerAttempts < maxSafeInteger ∧ t.recovery.unknownRequests < maxSafeInteger ∧
    t.recovery.reservedTokens + view.contextWindowTokens ≤ maxSafeInteger ∧
    ∀ limits ∈ spec.budgetLimits, (limits.maxTotalTokens : ℤ) ≤ maxSafeInteger

/-- A provider that took no longer than the cycle around it, or than an earlier one. -/
def TimingFits (t : Turn) (measured : ℤ) : Prop :=
  ∀ started ∈ t.cycleStarted, t.recovery.deadlineAt.isSome →
    t.providerElapsed ≤ max (t.recovery.timing.getD ⟨0, 0⟩).cycleMs (max 0 (measured - started)) ∧
      measured - started ≤ maxSafeInteger

/-- The condition on the state before a step and on what comes with it. -/
def Keeps (spec : AgentRunSpec) (t : Turn) : TurnEvent → Prop
  | .cycle measured _ => TimingFits t measured
  | .summarize view _ => RequestFits spec t view
  | .request view _ =>
    RequestFits spec t view ∧ t.recovery.noProgressSteps.getD 0 < maxSafeInteger
  | .respond _ report _ _ => ∀ k, ∀ v ∈ (usageDict report).get k,
    isNumber (((t.recovery.usage.get k).getD 0).orZero + v) = true
  | .summarized _ report _ => ∀ k ∈ usageKeys, ∀ v ∈ report.get k, isNumber v = true →
    isNumber ((t.recovery.usage.get k).getD 0 + v) = true
  | .admitTools calls => t.recovery.toolCalls + calls ≤ maxSafeInteger
  | .child _ _ => (spec.maxIterations : ℤ) ≤ maxSafeInteger ∧ ∀ limits ∈ spec.budgetLimits,
    (limits.maxProviderAttempts : ℤ) ≤ maxSafeInteger ∧
      (limits.maxToolCalls : ℤ) ≤ maxSafeInteger ∧ (limits.maxTotalTokens : ℤ) ≤ maxSafeInteger
  | .restart _ deadline _ _ => deadline.all isNumber = true
  | _ => True

/-- A step that meets its condition. -/
def KeptStep (spec : AgentRunSpec) (t : Turn) (e : TurnEvent) (t' : Turn) : Prop :=
  Keeps spec t e ∧ TurnStep spec t e t'

/-- The reservations a state owes cover those of the requests in flight. -/
structure Owes (s : RecoverySnapshot) (u : List ℤ) : Prop where
  nonneg : ∀ r ∈ u, 0 ≤ r
  reserved : u.sum ≤ s.reservedTokens
  unknown : (u.length : ℤ) ≤ s.unknownRequests

/-! ## Charges and settlements of a valid state -/

namespace RecoverySnapshot

theorem Valid.reserve (valid : s.Valid) (nonneg : 0 ≤ r)
    (attempts : s.providerAttempts < maxSafeInteger) (unknown : s.unknownRequests < maxSafeInteger)
    (reserved : s.reservedTokens + r ≤ maxSafeInteger) : (s.reserve r).Valid := by
  refine { valid with attempts := ?_, unknown := ?_, reserved := ?_ }
  · have le := valid.attempts.1
    change s.modelSteps ≤ s.providerAttempts + 1 ∧ s.providerAttempts + 1 ≤ maxSafeInteger
    omega
  · have le := valid.unknown.1
    change 0 ≤ s.unknownRequests + 1 ∧ s.unknownRequests + 1 ≤ maxSafeInteger
    omega
  · have le := valid.reserved.1
    change 0 ≤ s.reservedTokens + r ∧ s.reservedTokens + r ≤ maxSafeInteger
    omega

theorem Valid.admitRequest (valid : (s.reserve r).Valid) (attempted : s.modelSteps ≤ s.providerAttempts)
    (idle : s.noProgressSteps.getD 0 < maxSafeInteger) (counted : s.noProgressSteps.all isCounter = true) :
    (s.admitRequest spec r).Valid := by
  refine { valid with modelSteps := ?_, attempts := ?_, noProgress := ?_ }
  · have le : 0 ≤ s.modelSteps := valid.modelSteps
    change 0 ≤ s.modelSteps + 1
    omega
  · have le : s.providerAttempts + 1 ≤ maxSafeInteger := valid.attempts.2
    change s.modelSteps + 1 ≤ s.providerAttempts + 1 ∧ s.providerAttempts + 1 ≤ maxSafeInteger
    omega
  · change Option.all isCounter (if spec.budgetLimits.isSome then
      some (s.noProgressSteps.getD 0 + 1) else s.noProgressSteps) = true
    split
    next =>
      have nonneg : 0 ≤ s.noProgressSteps.getD 0 := by
        cases steps : s.noProgressSteps with
        | none => exact le_rfl
        | some n =>
          rw [steps] at counted
          exact (isCounter_iff.mp counted).1
      rw [Option.all_some, isCounter_iff]
      omega
    next => exact counted

theorem Valid.withUsage (valid : s.Valid) {usage : UsageReport}
    (numbers : ∀ k v, usage.get k = some v → isNumber v = true) : { s with usage }.Valid :=
  { valid with usage := numbers }

theorem Valid.release (valid : s.Valid) (owes : Owes s u) (inside : r ∈ u) :
    (s.release r).Valid := by
  have nonneg := owes.nonneg r inside
  have total := sum_erase inside
  have rest : 0 ≤ (u.erase r).sum :=
    sum_nonneg fun x mem => owes.nonneg x (mem_of_mem_erase mem)
  have reserved := owes.reserved
  have unknown := owes.unknown
  have some_ := length_pos_of_mem inside
  refine { valid with unknown := ?_, reserved := ?_ }
  · have le := valid.unknown.2
    change 0 ≤ s.unknownRequests - 1 ∧ s.unknownRequests - 1 ≤ maxSafeInteger
    omega
  · have le := valid.reserved.2
    change 0 ≤ s.reservedTokens - r ∧ s.reservedTokens - r ≤ maxSafeInteger
    omega

end RecoverySnapshot

theorem Owes.reserve (owes : Owes s u) (nonneg : 0 ≤ r) : Owes (s.reserve r) (r :: u) := by
  refine ⟨?_, ?_, ?_⟩
  · intro x mem
    rcases mem_cons.mp mem with rfl | mem
    · exact nonneg
    · exact owes.nonneg x mem
  · have le := owes.reserved
    rw [sum_cons]
    change r + u.sum ≤ s.reservedTokens + r
    omega
  · have le := owes.unknown
    rw [length_cons]
    change ((u.length + 1 : ℕ) : ℤ) ≤ s.unknownRequests + 1
    omega

theorem Owes.release (owes : Owes s u) (inside : r ∈ u) : Owes (s.release r) (u.erase r) := by
  refine ⟨fun x mem => owes.nonneg x (mem_of_mem_erase mem), ?_, ?_⟩
  · have total := sum_erase inside
    have le := owes.reserved
    change (u.erase r).sum ≤ s.reservedTokens - r
    omega
  · have le := owes.unknown
    have some_ := length_pos_of_mem inside
    rw [length_erase_of_mem inside]
    change ((u.length - 1 : ℕ) : ℤ) ≤ s.unknownRequests - 1
    omega

theorem Owes.withUsage (owes : Owes s u) {usage : UsageReport} : Owes { s with usage } u :=
  ⟨owes.nonneg, owes.reserved, owes.unknown⟩

theorem settled_valid (valid : s.Valid) (owes : Owes s u) (inside : r ∈ u) {usage : UsageReport}
    (numbers : ∀ k v, usage.get k = some v → isNumber v = true) {done : Bool} :
    (if done then RecoverySnapshot.release { s with usage } r else { s with usage }).Valid ∧
      Owes (if done then RecoverySnapshot.release { s with usage } r else { s with usage })
        (if done then u.erase r else u) := by
  cases done with
  | true => exact ⟨(valid.withUsage numbers).release owes.withUsage inside, owes.withUsage.release inside⟩
  | false => exact ⟨valid.withUsage numbers, owes.withUsage⟩

variable {report : UsageReport}

theorem settle_valid (valid : s.Valid) (owes : Owes s u) (inside : r ∈ u)
    (sums : ∀ k, ∀ v ∈ (usageDict report).get k,
      isNumber (((s.usage.get k).getD 0).orZero + v) = true) :
    (s.settle report r).Valid ∧
      Owes (s.settle report r) (if complete (usageDict report) then u.erase r else u) := by
  apply settled_valid valid owes inside
  intro k v found
  rw [get_accumulateUsage] at found
  split at found
  next added reported =>
    obtain rfl := some.inj found
    exact sums k added reported
  next => exact valid.usage k v found

theorem settleSummary_valid (valid : s.Valid) (owes : Owes s u) (inside : r ∈ u)
    (sums : ∀ k ∈ usageKeys, ∀ v ∈ report.get k, isNumber v = true →
      isNumber ((s.usage.get k).getD 0 + v) = true) :
    (s.settleSummary report r).Valid ∧
      Owes (s.settleSummary report r) (if summaryComplete report then u.erase r else u) := by
  apply settled_valid valid owes inside
  intro k v found
  rw [get_accumulateSummary] at found
  split at found
  next added reported =>
    obtain rfl := some.inj found
    split at reported
    next counted =>
      obtain ⟨stated, number⟩ := Option.filter_eq_some_iff.mp reported
      exact sums k counted added stated number
    next => cases reported
  next => exact valid.usage k v found

variable {kind : RecoveryKind}

theorem consume_valid (valid : s.Valid)
    (consumed : s.consume spec.recoveryLimits kind = some s') : s'.Valid := by
  unfold RecoverySnapshot.consume at consumed
  split at consumed
  next => cases consumed
  next left =>
    obtain rfl := some.inj consumed
    have few := spec.recoveryLimits.total_le.2
    obtain ⟨sum, -⟩ := valid.total
    refine { valid with total := ⟨?_, ?_⟩, counts := ?_ }
    · change s.total + 1 = (s.counts.increment kind).sum
      rw [sum]
      cases kind <;> simp only [RecoveryCounts.increment, RecoveryCounts.sum] <;> omega
    · change s.total + 1 ≤ maxSafeInteger
      unfold maxSafeInteger
      omega
    · intro other
      have before := valid.counts other
      cases kind <;> cases other <;>
        simp only [RecoveryCounts.increment, RecoveryCounts.get] at before ⊢ <;> omega

theorem consume_owes (owes : Owes s u)
    (consumed : s.consume spec.recoveryLimits kind = some s') : Owes s' u := by
  unfold RecoverySnapshot.consume at consumed
  split at consumed
  next => cases consumed
  next =>
    obtain rfl := some.inj consumed
    exact ⟨owes.nonneg, owes.reserved, owes.unknown⟩

theorem total_ofInt (valid : s.Valid) (k : String) :
    ∃ n : ℤ, (s.usage.get k).getD 0 = .ofInt n ∧ 0 ≤ n := by
  cases found : s.usage.get k with
  | none => exact ⟨0, rfl, le_rfl⟩
  | some v =>
    obtain ⟨n, rfl, nonneg, -⟩ := isNumber_iff.mp (valid.usage k v found)
    exact ⟨n, rfl, nonneg⟩

theorem used_nonneg (valid : s.Valid) : 0 ≤ s.used.modelSteps ∧ 0 ≤ s.used.providerAttempts ∧
    0 ≤ s.used.toolCalls ∧ 0 ≤ s.used.tokens := by
  have given := valid.delegated
  unfold RecoverySnapshot.used
  cases allowance : s.delegated with
  | none => exact ⟨le_rfl, le_rfl, le_rfl, le_rfl⟩
  | some d =>
    rw [allowance] at given
    simp only [Option.all_some, RecoverySnapshot.Delegated.valid, all_cons, all_nil,
      Bool.and_true, Bool.and_eq_true, isCounter_iff] at given
    exact ⟨given.1.1, given.2.1.1, given.2.2.1.1, given.2.2.2.1⟩

theorem consumed_ofInt (valid : s.Valid) :
    ∃ n : ℤ, consumedTokens s = .ofInt n ∧ s.reservedTokens + s.used.tokens ≤ n := by
  obtain ⟨p, prompt, pNonneg⟩ := total_ofInt valid "prompt_tokens"
  obtain ⟨c, completion, cNonneg⟩ := total_ofInt valid "completion_tokens"
  refine ⟨p + c + s.reservedTokens + s.used.tokens, ?_, by omega⟩
  simp only [consumedTokens, RecoverySnapshot.promptTokens, RecoverySnapshot.completionTokens, prompt,
    completion, JsNumber.ofInt_eq, JsNumber.finite_add]
  push_cast
  rfl

theorem child_valid (valid : s.Valid) {request : ChildRequest} {now : ℤ}
    (fits : Keeps spec t (.child request now))
    (given : reserveChildBudget spec s request now = .ok (some s')) : s'.Valid := by
  obtain ⟨limits, d, budget, rfl, someSteps, steps, someAttempts, attempts, someCalls, calls,
    someTokens, consumed, total, le⟩ := reserveChildBudget_ok given
  obtain ⟨maxSteps, bounds⟩ := fits
  obtain ⟨maxAttempts, maxCalls, maxTokens⟩ := bounds limits budget
  obtain ⟨usedSteps, usedAttempts, usedCalls, usedTokens⟩ := used_nonneg valid
  obtain ⟨n, same, covered⟩ := consumed_ofInt valid
  obtain rfl := JsNumber.finite.inj (total.symm.trans same)
  have tokens : n + (d.tokens - s.used.tokens) ≤ limits.maxTotalTokens := by exact_mod_cast le
  have ownSteps := valid.modelSteps
  have ownAttempts := valid.attempts.1
  have ownCalls := valid.toolCalls.1
  have reserved := valid.reserved.1
  refine { valid with delegated := ?_ }
  simp only [Option.all_some, RecoverySnapshot.Delegated.valid, all_cons, all_nil,
    Bool.and_true, Bool.and_eq_true, isCounter_iff]
  omega

variable {view : RequestView}

theorem planRequestBudget_ok (valid : s.Valid) {reduceOutput : Bool}
    (planned : planRequestBudget spec view s reduceOutput = .ok r) :
    0 ≤ r ∧ (r = view.contextWindowTokens ∨
      s.reservedTokens = 0 ∧ ∃ limits ∈ spec.budgetLimits, r ≤ limits.maxTotalTokens) := by
  have whole : ∀ n : ℤ, (.ok (view.contextWindowTokens : ℤ) : Except RuntimeError ℤ) = .ok n →
      0 ≤ n ∧ (n = view.contextWindowTokens ∨
        s.reservedTokens = 0 ∧ ∃ limits ∈ spec.budgetLimits, n ≤ limits.maxTotalTokens) := by
    intro n same
    obtain rfl := Except.ok.inj same
    exact ⟨Int.natCast_nonneg _, .inl rfl⟩
  unfold planRequestBudget at planned
  dsimp only at planned
  split at planned
  next limits budget =>
    split at planned
    next => exact whole r planned
    next settled =>
      split at planned
      next => exact whole r planned
      next =>
        split at planned
        next => cases planned
        next output _ =>
          obtain ⟨room, same⟩ := guard_eq_ok.mp planned
          obtain rfl := Except.ok.inj same
          obtain ⟨n, consumed, covered⟩ := consumed_ofInt valid
          have reserved := valid.reserved.1
          have used := (used_nonneg valid).2.2.2
          simp only [not_or, not_le, consumed, JsNumber.ofInt_eq, JsNumber.finite_sub,
            JsNumber.finite_lt, decide_eq_true_eq, not_lt] at room
          have le : (view.tokens + output : ℤ) ≤ limits.maxTotalTokens - n := by
            exact_mod_cast room.2
          refine ⟨by omega, .inr ⟨?_, limits, budget, by omega⟩⟩
          exact (not_not.mp settled).2
  next => exact whole r planned

theorem admission_fits (valid : t.recovery.Valid) {reduceOutput : Bool}
    (fits : RequestFits spec t view) (admitted : t.admission spec view reduceOutput = .ok r) :
    0 ≤ r ∧ (t.recovery.reserve r).Valid := by
  obtain ⟨attempts, unknown, window, budget⟩ := fits
  unfold Turn.admission at admitted
  obtain ⟨planned, plan, rest⟩ := bind_eq_ok.mp admitted
  obtain ⟨_, -, same⟩ := bind_eq_ok.mp rest
  obtain rfl := Except.ok.inj same
  obtain ⟨nonneg, part⟩ := planRequestBudget_ok valid plan
  refine ⟨nonneg, valid.reserve nonneg attempts unknown ?_⟩
  rcases part with rfl | ⟨nothing, limits, mem, le⟩
  · exact window
  · have total := budget limits mem
    omega

/-! ## A turn that can checkpoint -/

/-- A request in flight has its reservation; a turn that has thrown has nothing. -/
def Phase.backed (u : List ℤ) : Phase → Prop
  | .summarizing r | .requesting r _ => r ∈ u
  | .thrown _ => False
  | _ => True

/-- Everything a checkpoint is taken of is valid, and so is everything saved. -/
structure Intact (t : Turn) : Prop where
  valid : t.recovery.Valid
  owes : Owes t.recovery t.unsettled
  evidence : t.evidence.length ≤ 256 ∧ t.evidence.all isDigest = true
  elapsed : 0 ≤ t.providerElapsed
  saved : ∀ c ∈ t.saved, validateRecoverySnapshot c.snapshot = .ok c.snapshot ∧
    Owes c.snapshot c.unsettled

structure Sound (t : Turn) : Prop extends Intact t where
  backed : t.phase.backed t.unsettled

theorem Intact.persist {next : Phase} (intact : Intact t) (backed : next.backed t.unsettled) :
    Sound (t.persist next) := by
  have ok : validateRecoverySnapshot t.recovery =
      .ok { t.recovery with usage := keptUsage t.recovery.usage } :=
    validateRecoverySnapshot_ok.mpr ⟨intact.valid, rfl⟩
  unfold Turn.persist
  rw [ok]
  refine ⟨{ intact with saved := ?_ }, backed⟩
  intro c mem
  rcases mem_cons.mp mem with rfl | mem
  · exact ⟨validateRecoverySnapshot_idem ok, intact.owes.withUsage⟩
  · exact intact.saved c mem

theorem Sound.andThen {rest : Turn → Turn} (sound : Sound t) (after : Sound (rest t)) :
    Sound (t.andThen rest) := by
  unfold Turn.andThen
  split
  next => exact sound
  next => exact after

theorem measure_valid_iff (intact : Intact t) {measured : ℤ} :
    (t.measure measured).all RecoverySnapshot.Timing.valid = true ↔ TimingFits t measured := by
  unfold Turn.measure TimingFits
  split
  next since deadline running limited =>
    have before : 0 ≤ (t.recovery.timing.getD ⟨0, 0⟩).cycleMs ∧
        (t.recovery.timing.getD ⟨0, 0⟩).cycleMs ≤ maxSafeInteger ∧
        0 ≤ (t.recovery.timing.getD ⟨0, 0⟩).providerMs ∧
        (t.recovery.timing.getD ⟨0, 0⟩).providerMs ≤ (t.recovery.timing.getD ⟨0, 0⟩).cycleMs := by
      have timing := intact.valid.timing
      cases earlier : t.recovery.timing with
      | none => decide
      | some timing' =>
        rw [earlier] at timing
        simp only [Option.all_some, RecoverySnapshot.Timing.valid, Bool.and_eq_true,
          isCounter_iff, decide_eq_true_eq] at timing
        rw [Option.getD_some]
        omega
    have zero : (0 : ℤ) ≤ maxSafeInteger := by decide
    have elapsed := intact.elapsed
    simp only [Option.all_some, RecoverySnapshot.Timing.valid, Bool.and_eq_true, isCounter_iff,
      decide_eq_true_eq, running, limited, Option.mem_def, Option.some.injEq, forall_eq',
      Option.isSome_some, forall_const]
    omega
  next off =>
    refine ⟨fun _ started running limited => ?_, fun _ => intact.valid.timing⟩
    obtain ⟨deadline, limited⟩ := Option.isSome_iff_exists.mp limited
    exact absurd limited (off started deadline running)

theorem Intact.cycle (intact : Intact t) {measured started : ℤ} (fits : TimingFits t measured) :
    Sound (t.cycle spec measured started) := by
  have timed : { t.recovery with timing := t.measure measured }.Valid :=
    { intact.valid with timing := (measure_valid_iff intact).mpr fits }
  have owes : Owes { t.recovery with timing := t.measure measured } t.unsettled :=
    ⟨intact.owes.nonneg, intact.owes.reserved, intact.owes.unknown⟩
  unfold Turn.cycle
  split
  next => exact ⟨{ intact with }, trivial⟩
  next =>
    dsimp only
    split
    next => exact ⟨⟨timed, owes, intact.evidence, le_rfl, intact.saved⟩, trivial⟩
    next =>
      split
      next => exact ⟨⟨timed, owes, intact.evidence, le_rfl, intact.saved⟩, trivial⟩
      next => exact ⟨⟨timed, owes, intact.evidence, le_rfl, intact.saved⟩, trivial⟩

theorem Intact.summarize (intact : Intact t) {reactive : Bool}
    (fits : RequestFits spec t view) : Sound (t.summarize spec view reactive) := by
  unfold Turn.summarize
  dsimp only
  split
  next => exact ⟨{ intact with }, trivial⟩
  next =>
    split
    next => exact ⟨{ intact with }, trivial⟩
    next reservation admitted =>
      obtain ⟨nonneg, valid⟩ := admission_fits intact.valid fits admitted
      have charged : Intact { t with
          recovery := t.recovery.reserve reservation
          unsettled := reservation :: t.unsettled } :=
        ⟨valid, intact.owes.reserve nonneg, intact.evidence, intact.elapsed, intact.saved⟩
      exact charged.persist (mem_cons_self ..)

theorem Intact.failSummary (intact : Intact t) : Sound (t.failSummary spec) := by
  unfold Turn.failSummary
  cases consumed : t.recovery.consume spec.recoveryLimits .context with
  | none => exact ⟨{ intact with }, trivial⟩
  | some s =>
    exact ⟨⟨consume_valid intact.valid consumed, consume_owes intact.owes consumed, intact.evidence,
      intact.elapsed, intact.saved⟩, trivial⟩

theorem Sound.conclude (sound : Sound t) {outcome : SummaryOutcome} :
    Sound (t.conclude spec outcome) := by
  have again : Sound (t.persist .ended) := sound.toIntact.persist trivial
  have refused : Sound ((t.persist .ended).andThen (Turn.failSummary spec)) :=
    again.andThen again.toIntact.failSummary
  cases outcome with
  | rejected => exact refused
  | failed => exact sound.toIntact.failSummary
  | accepted =>
    unfold Turn.conclude
    dsimp only
    split
    next => exact sound.toIntact.persist trivial
    next => exact sound.toIntact.failSummary
  | changed =>
    unfold Turn.conclude
    dsimp only
    split
    next => exact refused
    next => exact sound.toIntact.failSummary

theorem Intact.summarized (intact : Intact t) (inside : r ∈ t.unsettled)
    {outcome : SummaryOutcome} (fits : Keeps spec t (.summarized r report outcome)) :
    Sound (t.summarized spec r report outcome) := by
  obtain ⟨valid, owes⟩ := settleSummary_valid intact.valid intact.owes inside fits
  have settled : Intact { t with
      recovery := t.recovery.settleSummary report r
      unsettled := if summaryComplete report then t.unsettled.erase r else t.unsettled } :=
    ⟨valid, owes, intact.evidence, intact.elapsed, intact.saved⟩
  have saved : Sound (Turn.persist _ .ended) := settled.persist trivial
  exact saved.andThen saved.conclude

variable {answerOnly : Bool}

theorem Intact.request (intact : Intact t) (fits : Keeps spec t (.request view answerOnly)) :
    Sound (t.request spec view answerOnly) := by
  obtain ⟨room, idle⟩ := fits
  unfold Turn.request
  split
  next => exact ⟨{ intact with }, trivial⟩
  next reservation admitted =>
    obtain ⟨nonneg, valid⟩ := admission_fits intact.valid room admitted
    have charged : Intact { t with
        recovery := t.recovery.admitRequest spec reservation
        unsettled := reservation :: t.unsettled } := by
      refine ⟨?_, ?_, intact.evidence, intact.elapsed, intact.saved⟩
      · exact valid.admitRequest intact.valid.attempts.1 idle intact.valid.noProgress
      · obtain ⟨all, reserved, unknown⟩ := intact.owes.reserve nonneg
        exact ⟨all, reserved, unknown⟩
    exact charged.persist (mem_cons_self ..)

theorem Intact.respond (intact : Intact t) (inside : r ∈ t.unsettled)
    {sent returned : ℤ} (fits : Keeps spec t (.respond r report sent returned)) :
    Sound (t.respond spec r answerOnly report sent returned) := by
  obtain ⟨valid, owes⟩ := settle_valid intact.valid intact.owes inside fits
  have settled : Intact { t with
      providerElapsed := max 0 (returned - sent)
      recovery := t.recovery.settle report r
      unsettled := if complete (usageDict report) then t.unsettled.erase r else t.unsettled } :=
    ⟨valid, owes, intact.evidence, le_max_left .., intact.saved⟩
  apply settled.persist
  generalize assertTokenBudget spec _ = checked
  cases checked with
  | ok | error => exact trivial

theorem Intact.admitTools (intact : Intact t) {calls : ℕ}
    (fits : t.recovery.toolCalls + calls ≤ maxSafeInteger) :
    Sound (t.admitTools spec answerOnly calls) := by
  unfold Turn.admitTools
  split
  next =>
    have nonneg := intact.valid.toolCalls.1
    have counted : (t.recovery.admitTools calls).Valid := by
      refine { intact.valid with toolCalls := ⟨?_, fits⟩ }
      change 0 ≤ t.recovery.toolCalls + calls
      omega
    have admitted : Intact { t with recovery := t.recovery.admitTools calls } :=
      ⟨counted, ⟨intact.owes.nonneg, intact.owes.reserved, intact.owes.unknown⟩, intact.evidence,
        intact.elapsed, intact.saved⟩
    exact admitted.persist trivial
  next => exact intact.persist trivial

theorem Sound.child (sound : Sound t) {request : ChildRequest} {now : ℤ}
    (fits : Keeps spec t (.child request now)) : Sound (t.child spec request now) := by
  unfold Turn.child
  split
  next recovery given =>
    have owes : Owes recovery t.unsettled := by
      obtain ⟨_, _, _, rfl, -⟩ := reserveChildBudget_ok given
      exact ⟨sound.owes.nonneg, sound.owes.reserved, sound.owes.unknown⟩
    have charged : Intact { t with recovery } :=
      ⟨child_valid sound.valid fits given, owes, sound.evidence, sound.elapsed, sound.saved⟩
    exact charged.persist trivial
  next => exact sound

theorem Intact.observe (intact : Intact t) (digest : Digest) : Intact (t.observe digest) := by
  unfold Turn.observe
  split
  next => exact intact
  next fresh =>
    refine ⟨?_, ?_, ⟨?_, ?_⟩, intact.elapsed, intact.saved⟩
    · dsimp only
      split
      next => exact intact.valid
      next => exact { intact.valid with noProgress := rfl }
    · dsimp only
      split
      next => exact intact.owes
      next => exact ⟨intact.owes.nonneg, intact.owes.reserved, intact.owes.unknown⟩
    · rw [length_append, length_singleton]
      omega
    · simp only [all_append, all_cons, all_nil, intact.evidence.2, digest.2,
        Bool.and_true]

theorem Intact.observed (intact : Intact t) (results : List Digest) :
    Intact (results.foldl Turn.observe t) := by
  induction results generalizing t with
  | nil => exact intact
  | cons digest rest ih => exact ih (intact.observe digest)

theorem Intact.noteEvidence (intact : Intact t) {results : List Digest} {keyId : Uuid} :
    Intact (t.noteEvidence spec results keyId) := by
  unfold Turn.noteEvidence
  split
  next =>
    have seen := intact.observed results
    refine { seen with
      valid := { seen.valid with evidence := ?_, keyId := keyId.2 }
      owes := ⟨seen.owes.nonneg, seen.owes.reserved, seen.owes.unknown⟩ }
    rw [Option.all_some, seen.evidence.2, Bool.and_true]
    exact decide_eq_true seen.evidence.1
  next => exact intact

theorem Intact.noteCut (intact : Intact t) {candidate : Option (Digest × Uuid)} :
    Intact (t.noteCut spec candidate) := by
  cases candidate with
  | none => exact intact
  | some pair =>
    obtain ⟨digest, keyId⟩ := pair
    change Intact (t.noteCandidate spec digest keyId)
    unfold Turn.noteCandidate
    split
    next =>
      refine { intact with
        valid := { intact.valid with candidate := digest.2, keyId := keyId.2, noProgress := ?_ }
        owes := ⟨intact.owes.nonneg, intact.owes.reserved, intact.owes.unknown⟩ }
      dsimp only
      split
      next => exact intact.valid.noProgress
      next => rfl
    next => exact intact

theorem Intact.recover (intact : Intact t) {candidate : Option (Digest × Uuid)} {granted : Bool} :
    Sound (t.recover spec kind candidate granted) := by
  unfold Turn.recover
  have noted : Intact (t.noteCut spec candidate) := intact.noteCut
  dsimp only
  split
  next => exact ⟨{ noted with }, trivial⟩
  next recovery consumed =>
    have spent : Intact { t.noteCut spec candidate with recovery } :=
      ⟨consume_valid noted.valid consumed, consume_owes noted.owes consumed, noted.evidence,
        noted.elapsed, noted.saved⟩
    split
    next => exact spent.persist trivial
    next => exact ⟨{ spent with }, trivial⟩

theorem Intact.inject (intact : Intact t) : Sound (t.inject spec) := by
  unfold Turn.inject
  split
  next =>
    have reset : Intact { t with recovery := { t.recovery with noProgressSteps := some 0 } } :=
      { intact with
        valid := { intact.valid with noProgress := rfl }
        owes := ⟨intact.owes.nonneg, intact.owes.reserved, intact.owes.unknown⟩ }
    exact reset.persist trivial
  next => exact ⟨{ intact with }, trivial⟩

/-! ## Every run -/

theorem enter_sound {saved : List Saved} {deadline : Option JsNumber} {runId keyId : Uuid}
    (valid : s.Valid) (owes : Owes s u)
    (kept : ∀ c ∈ saved, validateRecoverySnapshot c.snapshot = .ok c.snapshot ∧
      Owes c.snapshot c.unsettled)
    (dated : deadline.all isNumber = true) :
    Sound (.enter spec s u saved deadline runId keyId) := by
  refine ⟨⟨{ valid with deadlineAt := ?_, runId := ?_ }, ?_, ?_, le_rfl, kept⟩, trivial⟩
  · change Option.all isNumber (deadline.or s.deadlineAt) = true
    cases deadline with
    | none => exact valid.deadlineAt
    | some ms => exact dated
  · change Option.all isUuid (if spec.budgetLimits.isSome then
      some (s.progressRunId.getD runId.1) else s.progressRunId) = true
    split
    next =>
      have earlier := valid.runId
      cases known : s.progressRunId with
      | none => exact runId.2
      | some id =>
        rw [known] at earlier
        exact earlier
    next => exact valid.runId
  · exact ⟨owes.nonneg, owes.reserved, owes.unknown⟩
  · change (if s.progressKeyId == some keyId.1 then s.progressEvidence.getD [] else []).length ≤ 256 ∧
      (if s.progressKeyId == some keyId.1 then s.progressEvidence.getD [] else []).all isDigest = true
    have earlier := valid.evidence
    split
    next =>
      cases known : s.progressEvidence with
      | none => exact ⟨Nat.zero_le _, rfl⟩
      | some evidence =>
        rw [known, Option.all_some, Bool.and_eq_true, decide_eq_true_eq] at earlier
        exact earlier
    next => exact ⟨Nat.zero_le _, rfl⟩

theorem fresh_valid : RecoverySnapshot.Valid {} where
  version := rfl
  modelSteps := le_rfl
  attempts := by decide
  toolCalls := by decide
  total := by decide
  counts kind := by cases kind <;> exact le_rfl
  unknown := by decide
  reserved := by decide
  usage k v found := by
    rw [show (Table.empty : Table String JsNumber).get k = none from Table.get_empty k] at found
    cases found
  delegated := rfl
  timing := rfl
  deadlineAt := rfl
  noProgress := rfl
  runId := rfl
  keyId := rfl
  evidence := rfl
  candidate := rfl

theorem resume_sound {snapshot : Option RecoverySnapshot} {deadline : Option JsNumber}
    {runId keyId : Uuid} (valid : ∀ s ∈ snapshot, s.Valid) (dated : deadline.all isNumber = true) :
    Sound (.resume spec snapshot [] [] deadline runId keyId) := by
  have nothing : ∀ {s : RecoverySnapshot}, s.Valid → Owes s [] := fun {s} valid =>
    ⟨forall_mem_nil _, valid.reserved.1, valid.unknown.1⟩
  unfold Turn.resume
  cases snapshot with
  | none => exact enter_sound fresh_valid (nothing fresh_valid) (forall_mem_nil _) dated
  | some s =>
    have kept := validateRecoverySnapshot_ok.mpr ⟨valid s rfl, rfl⟩
    dsimp only
    rw [kept]
    have again := (validateRecoverySnapshot_ok.mp (validateRecoverySnapshot_idem kept)).1
    exact enter_sound again (nothing again) (forall_mem_nil _) dated

theorem Sound.step (sound : Sound t) (fits : Keeps spec t e) (step : TurnStep spec t e t') :
    Sound t' := by
  have backed := sound.backed
  cases step with
  | cycle => exact sound.toIntact.cycle fits
  | summarize => exact sound.toIntact.summarize fits
  | summarized phase =>
    rw [phase] at backed
    exact sound.toIntact.summarized backed fits
  | failSummary => exact sound.toIntact.failSummary
  | request => exact sound.toIntact.request fits
  | respond phase =>
    rw [phase] at backed
    exact sound.toIntact.respond backed fits
  | admitTools => exact sound.toIntact.admitTools fits
  | child => exact sound.child fits
  | finishTools => exact sound.toIntact.noteEvidence.persist trivial
  | recover => exact sound.toIntact.recover
  | inject => exact sound.toIntact.inject
  | overflow => exact ⟨{ sound.toIntact with }, trivial⟩
  | answer => exact sound.toIntact.persist trivial
  | stop => exact ⟨{ sound.toIntact with }, trivial⟩
  | close => exact sound.toIntact.persist trivial
  | @restart saved _ _ _ written =>
    obtain ⟨kept, owes⟩ := sound.saved saved written
    unfold Turn.resume
    dsimp only
    rw [kept]
    exact enter_sound (validateRecoverySnapshot_ok.mp kept).1 owes sound.saved fits

/-- The counters, the totals a checkpoint keeps, the reservations and the allowance of children. -/
structure Ledger where
  (modelSteps providerAttempts toolCalls total : ℤ)
  counts : RecoveryCounts
  (unknownRequests reservedTokens : ℤ)
  delegated : Option Delegated
  usage : List (Option JsNumber)

def RecoverySnapshot.ledger (s : RecoverySnapshot) : Ledger where
  modelSteps := s.modelSteps
  providerAttempts := s.providerAttempts
  toolCalls := s.toolCalls
  total := s.total
  counts := s.counts
  unknownRequests := s.unknownRequests
  reservedTokens := s.reservedTokens
  delegated := s.delegated
  usage := usageKeys.map s.usage.get

theorem ledger_validated (ok : validateRecoverySnapshot s = .ok s') : s'.ledger = s.ledger := by
  obtain ⟨-, rfl⟩ := validateRecoverySnapshot_ok.mp ok
  have totals : usageKeys.map (keptUsage s.usage).get = usageKeys.map s.usage.get :=
    map_congr_left fun k counted => get_keptUsage.trans (if_pos counted)
  simp only [RecoverySnapshot.ledger, totals]

/-- Where every step meets its condition, a turn never throws at a checkpoint, and what it stores is
restored as it is. -/
theorem checkpoints_restored {snapshot : Option RecoverySnapshot} {deadline : Option JsNumber}
    {runId keyId : Uuid} (valid : ∀ s ∈ snapshot, s.Valid) (dated : deadline.all isNumber = true)
    (run : Run (KeptStep spec) (.resume spec snapshot [] [] deadline runId keyId) es t) :
    (∀ error, t.phase ≠ .thrown error) ∧
      (∃ c, validateRecoverySnapshot t.recovery = .ok c ∧ c.ledger = t.recovery.ledger ∧
        validateRecoverySnapshot c = .ok c) ∧
      ∀ c ∈ t.saved, validateRecoverySnapshot c.snapshot = .ok c.snapshot ∧
        ∀ deadline runId keyId, (Turn.resume spec (some c.snapshot) c.unsettled t.saved deadline
          runId keyId).recovery.ledger = c.snapshot.ledger := by
  have sound : Sound t :=
    run.invariant (resume_sound valid dated) fun _ _ _ sound step => sound.step step.1 step.2
  refine ⟨?_, ?_, ?_⟩
  · intro error thrown
    have backed := sound.backed
    rw [thrown] at backed
    exact backed
  · have kept := validateRecoverySnapshot_ok.mpr ⟨sound.valid, rfl⟩
    exact ⟨_, kept, ledger_validated kept, validateRecoverySnapshot_idem kept⟩
  · intro c mem
    have kept := (sound.saved c mem).1
    refine ⟨kept, fun deadline runId keyId => ?_⟩
    unfold Turn.resume
    dsimp only
    rw [kept]
    rfl

/-! A request is answered with its usage, and the text is saved. -/

private def turnSpec : AgentRunSpec where
  maxIterations := 3

private def turnUuid : Uuid := ⟨"00000000-0000-0000-0000-000000000000", isUuid_zeros⟩

private def promptReport (tokens : ℚ) : UsageReport :=
  Table.empty.put "prompt_tokens" (.finite tokens)

private theorem get_promptReport {tokens : ℚ} {k : String} {v : JsNumber}
    (found : (usageDict (promptReport tokens)).get k = some v) : v = .finite tokens := by
  rw [get_usageDict] at found
  have reported := (Option.filter_eq_some_iff.mp found).1
  rw [promptReport, Table.get_put] at reported
  split at reported
  next => exact (some.inj reported).symm
  next =>
    rw [Table.get_empty] at reported
    cases reported

private def freshTurn (deadline : Option JsNumber) : Turn :=
  .resume turnSpec none [] [] deadline turnUuid turnUuid

private def askedTurn : Turn :=
  ((freshTurn none).cycle turnSpec 0 0).request turnSpec ⟨40, 10, 20⟩ false

private theorem usage_askedTurn {k : String} : askedTurn.recovery.usage.get k = none := by
  unfold askedTurn Turn.request
  split
  next => exact Table.get_empty k
  next =>
    rw [Turn.persist_recovery]
    exact Table.get_empty k

/-- Fifteen tokens are counted, saved and restored. -/
theorem checkpoints_restored_answer : ∃ (es : List TurnEvent) (t : Turn),
    Run (KeptStep turnSpec) (freshTurn none) es t ∧
      t.recovery.usage.get "prompt_tokens" = some (.finite 15) ∧ t.phase = .ended ∧
      ∀ c ∈ t.saved, validateRecoverySnapshot c.snapshot = .ok c.snapshot := by
  have cycled : KeptStep turnSpec (freshTurn none) (.cycle 0 0) ((freshTurn none).cycle turnSpec 0 0) :=
    ⟨by rintro _ ⟨⟩, .cycle rfl⟩
  have asked : KeptStep turnSpec ((freshTurn none).cycle turnSpec 0 0) (.request ⟨40, 10, 20⟩ false)
      askedTurn :=
    ⟨⟨⟨by decide, by decide, by decide, by rintro _ ⟨⟩⟩, by decide⟩, .request rfl⟩
  have answered : KeptStep turnSpec askedTurn (.respond 40 (promptReport 15) 0 1)
      (askedTurn.respond turnSpec 40 false (promptReport 15) 0 1) := by
    refine ⟨?_, .respond (by rfl)⟩
    intro k v found
    rw [get_promptReport found, usage_askedTurn]
    decide +kernel
  have saved : KeptStep turnSpec (askedTurn.respond turnSpec 40 false (promptReport 15) 0 1) .answer
      ((askedTurn.respond turnSpec 40 false (promptReport 15) 0 1).persist .ended) :=
    ⟨trivial, @TurnStep.answer turnSpec _ false (by decide +kernel)⟩
  have run := (((Run.single cycled).snoc asked).snoc answered).snoc saved
  refine ⟨_, _, run, by decide +kernel, by decide +kernel, ?_⟩
  intro c mem
  exact ((checkpoints_restored (by rintro _ ⟨⟩) rfl run).2.2 c mem).1

/-- A negative count is added up, and the next checkpoint throws; so does the one after a clock has
stepped back between the response and the end of the cycle. -/
theorem checkpoint_throws :
    (∃ (es : List TurnEvent) (t : Turn),
      Run (TurnStep turnSpec) (freshTurn none) es t ∧
        t.phase = .thrown ⟨"INVALID_CHECKPOINT", "Invalid runtime recovery checkpoint"⟩) ∧
    ∃ (es : List TurnEvent) (t : Turn),
      Run (TurnStep turnSpec) (freshTurn (some (.finite 100000))) es t ∧
        t.phase = .thrown ⟨"INVALID_CHECKPOINT", "Invalid runtime timing"⟩ := by
  constructor
  · have cycled := Run.single (@TurnStep.cycle turnSpec
      (freshTurn none) 0 0 rfl)
    have requested := cycled.snoc (@TurnStep.request _ _ false ⟨40, 10, 20⟩ false rfl)
    have responded := requested.snoc
      (@TurnStep.respond _ _ 40 false (promptReport (-1)) 0 1 (by rfl))
    exact ⟨_, _, responded, by decide +kernel⟩
  · have cycled := Run.single (@TurnStep.cycle turnSpec
      (freshTurn (some (.finite 100000))) 1000 1000 rfl)
    have requested := cycled.snoc (@TurnStep.request _ _ false ⟨40, 10, 20⟩ false rfl)
    have responded := requested.snoc
      (@TurnStep.respond _ _ 40 false .empty 1000 2000 (by rfl))
    have overflowed := responded.snoc (@TurnStep.overflow _ _ false (by rfl))
    have again := overflowed.snoc (@TurnStep.cycle _ _ 500 500 rfl)
    have thrown := again.snoc (@TurnStep.request _ _ false ⟨40, 10, 20⟩ false (by rfl))
    exact ⟨_, _, thrown, by rfl⟩

end Slide.Runtime
