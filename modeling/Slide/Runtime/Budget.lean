import Slide.Runtime.Recovery

/-!
# Execution budgets

The admission checks of `runtime/budget.ts` and the accounting that `turn-loop.ts` and
`auto-compact.ts` do around them.  `RequestView` is what the planning of a request asks of the
context manager; how the manager comes to it decides nothing here.
-/

namespace Slide.Runtime

structure RuntimeBudgetLimits where
  (maxToolCalls maxProviderAttempts maxTotalTokens maxNoProgressSteps : ℕ)

/-- What the accounting reads of `AgentRunSpec`. -/
structure AgentRunSpec where
  maxIterations : ℕ
  budgetLimits : Option RuntimeBudgetLimits := none
  contextBlockLimit : Option ℕ := none
  recoveryLimits : RecoveryLimits := standardLimits

/-- The context window and the output allowance of the manager, and the tokens of the complete
request. -/
structure RequestView where
  (contextWindowTokens maxTokens tokens : ℕ)

namespace RecoverySnapshot

def promptTokens (s : RecoverySnapshot) : JsNumber := (s.usage.get "prompt_tokens").getD 0

def completionTokens (s : RecoverySnapshot) : JsNumber := (s.usage.get "completion_tokens").getD 0

/-- `delegated ?? { modelSteps: 0, … }`. -/
def used (s : RecoverySnapshot) : Delegated := s.delegated.getD {}

end RecoverySnapshot

def consumedTokens (s : RecoverySnapshot) : JsNumber :=
  s.promptTokens + s.completionTokens + .ofInt s.reservedTokens + .ofInt s.used.tokens

/-- `planRequestBudget`: the reservation of a request, narrowed only while everything before it is
settled. -/
def planRequestBudget (spec : AgentRunSpec) (view : RequestView) (state : RecoverySnapshot)
    (reduceOutput : Bool) : Except RuntimeError ℤ := do
  let reservation : ℤ := view.contextWindowTokens
  let some limits := spec.budgetLimits | return reservation
  if ¬ (state.unknownRequests = 0 ∧ state.reservedTokens = 0) then return reservation
  let remaining := .ofInt limits.maxTotalTokens - consumedTokens state
  if ¬ (remaining.lt (.ofInt reservation) ∨ spec.contextBlockLimit.isSome) then return reservation
  let output : JsNumber := if reduceOutput then
      JsNumber.min (.ofInt view.maxTokens)
        (JsNumber.min remaining (.ofInt reservation) - .ofInt view.tokens)
    else .ofInt view.maxTokens
  match output.safeInteger? with
  | none => throw ⟨"TOKEN_BUDGET", "Token budget cannot cover the complete request and output"⟩
  | some output =>
    if output ≤ 0 ∨ remaining.lt (.ofInt (view.tokens + output)) then
      throw ⟨"TOKEN_BUDGET", "Token budget cannot cover the complete request and output"⟩
    return view.tokens + output

def assertRequestBudget (spec : AgentRunSpec) (state : RecoverySnapshot) (reservation : ℤ) :
    Except RuntimeError Unit :=
  match spec.budgetLimits with
  | none => .ok ()
  | some limits =>
    if limits.maxProviderAttempts ≤ state.providerAttempts + state.used.providerAttempts then
      .error ⟨"MAX_PROVIDER_ATTEMPTS", "Provider attempt budget exhausted"⟩
    else if (JsNumber.ofInt limits.maxTotalTokens).lt (consumedTokens state + .ofInt reservation) then
      .error ⟨"TOKEN_BUDGET", "Token budget cannot cover the next request"⟩
    else .ok ()

def assertTokenBudget (spec : AgentRunSpec) (state : RecoverySnapshot) : Except RuntimeError Unit :=
  match spec.budgetLimits with
  | none => .ok ()
  | some limits =>
    if (JsNumber.ofInt limits.maxTotalTokens).lt (consumedTokens state) then
      .error ⟨"TOKEN_BUDGET", "Token budget exhausted"⟩
    else .ok ()

def assertToolBudget (spec : AgentRunSpec) (state : RecoverySnapshot) (calls : ℤ) :
    Except RuntimeError Unit :=
  match spec.budgetLimits with
  | none => .ok ()
  | some limits =>
    if limits.maxToolCalls < state.toolCalls + state.used.toolCalls + calls then
      .error ⟨"MAX_TOOL_CALLS", "Tool call budget exhausted"⟩
    else .ok ()

/-- What a tool asks for a child. -/
structure ChildRequest where
  maxIterations : ℤ
  budgetLimits : Option RuntimeBudgetLimits := none
  runTimeoutMs : Option JsNumber := none

/-- `Math.floor((maxTotalTokens - consumed) / 2)`.  Tools run only after totals that are not numbers
have been refused at a checkpoint. -/
def halfRemainder (maxTotalTokens : ℕ) (consumed : JsNumber) : Option ℤ :=
  match consumed with
  | .finite consumed => some ⌊((maxTotalTokens : ℚ) - consumed) / 2⌋
  | _ => none

/-- The time a child has left. -/
def remainingMs (state : RecoverySnapshot) (request : ChildRequest) (now : ℤ) : Option JsNumber :=
  match state.deadlineAt with
  | none => request.runTimeoutMs
  | some deadline =>
    some (JsNumber.min (request.runTimeoutMs.getD (.infinite false)) (deadline - .ofInt now))

/-- `a <= 0`. -/
def expired (ms : Option JsNumber) : Bool := ms.any fun ms => ms.lt 0 || ms == 0

/-- `reserveChildBudget` up to its `persist`: the state with the allowance of the child, `none`
without a budget.  The two `throwIfAborted` before it change nothing. -/
def reserveChildBudget (spec : AgentRunSpec) (state : RecoverySnapshot) (request : ChildRequest)
    (now : ℤ) : Except RuntimeError (Option RecoverySnapshot) := do
  let some limits := spec.budgetLimits | return none
  let used := state.used
  let own := request.budgetLimits.getD limits
  let some half := halfRemainder limits.maxTotalTokens (consumedTokens state)
    | throw ⟨"CHILD_BUDGET_EXHAUSTED", "Parent remaining allowance cannot fund a child"⟩
  let steps := min request.maxIterations (spec.maxIterations - state.modelSteps - used.modelSteps)
  let attempts := min (own.maxProviderAttempts : ℤ)
    ((limits.maxProviderAttempts - state.providerAttempts - used.providerAttempts) / 2)
  let calls := min (own.maxToolCalls : ℤ)
    ((limits.maxToolCalls - state.toolCalls - used.toolCalls) / 2)
  let tokens := min (own.maxTotalTokens : ℤ) half
  let idle := min own.maxNoProgressSteps limits.maxNoProgressSteps
  if steps ≤ 0 ∨ attempts ≤ 0 ∨ calls ≤ 0 ∨ tokens ≤ 0 ∨ idle = 0 ∨
      expired (remainingMs state request now) then
    throw ⟨"CHILD_BUDGET_EXHAUSTED", "Parent remaining allowance cannot fund a child"⟩
  return some { state with
    delegated := some ⟨used.modelSteps + steps, used.providerAttempts + attempts,
      used.toolCalls + calls, used.tokens + tokens⟩ }

/-! ## Usage reports -/

/-- The usage of one response, under distinct keys. -/
abbrev UsageReport := Table String JsNumber

/-- `usageDict`: everything but NaN. -/
def usageDict (usage : UsageReport) : UsageReport :=
  usage.entries.foldl (fun kept e => if e.2 = .nan then kept else kept.put e.1 e.2) .empty

def accumulateUsage (target addition : UsageReport) : UsageReport :=
  addition.entries.foldl
    (fun target e => target.put e.1 (((target.get e.1).getD 0).orZero + e.2)) target

/-- Both token counts are finite: the request is settled. -/
def complete (raw : UsageReport) : Bool :=
  (raw.get "prompt_tokens").any JsNumber.isFinite &&
    (raw.get "completion_tokens").any JsNumber.isFinite

/-- The summary path counts what is a non-negative safe integer. -/
def accumulateSummary (usage report : UsageReport) : UsageReport :=
  usageKeys.foldl (fun usage key =>
    match report.get key with
    | some value => if isNumber value then usage.put key ((usage.get key).getD 0 + value) else usage
    | none => usage) usage

def summaryComplete (report : UsageReport) : Bool :=
  (report.get "prompt_tokens").any isNumber && (report.get "completion_tokens").any isNumber

namespace RecoverySnapshot

/-- One more request in flight. -/
def reserve (s : RecoverySnapshot) (reservation : ℤ) : RecoverySnapshot :=
  { s with
    providerAttempts := s.providerAttempts + 1
    unknownRequests := s.unknownRequests + 1
    reservedTokens := s.reservedTokens + reservation }

/-- A request whose usage is known. -/
def release (s : RecoverySnapshot) (reservation : ℤ) : RecoverySnapshot :=
  { s with
    unknownRequests := s.unknownRequests - 1, reservedTokens := s.reservedTokens - reservation }

/-- The admission of an ordinary request. -/
def admitRequest (s : RecoverySnapshot) (spec : AgentRunSpec) (reservation : ℤ) :
    RecoverySnapshot :=
  { s.reserve reservation with
    modelSteps := s.modelSteps + 1
    noProgressSteps := if spec.budgetLimits.isSome then some (s.noProgressSteps.getD 0 + 1)
      else s.noProgressSteps }

/-- The settlement of an ordinary request. -/
def settle (s : RecoverySnapshot) (report : UsageReport) (reservation : ℤ) : RecoverySnapshot :=
  let raw := usageDict report
  let s := { s with usage := accumulateUsage s.usage raw }
  if complete raw then s.release reservation else s

/-- The settlement of a summary request. -/
def settleSummary (s : RecoverySnapshot) (report : UsageReport) (reservation : ℤ) :
    RecoverySnapshot :=
  let s := { s with usage := accumulateSummary s.usage report }
  if summaryComplete report then s.release reservation else s

/-- The admission of a tool batch. -/
def admitTools (s : RecoverySnapshot) (calls : ℤ) : RecoverySnapshot :=
  { s with toolCalls := s.toolCalls + calls }

end RecoverySnapshot

/-! ## What the checks admit -/

section Facts

variable {spec : AgentRunSpec} {limits : RuntimeBudgetLimits} {s t : RecoverySnapshot}
  {report raw usage : UsageReport} {k : String}

theorem assertRequestBudget_ok {reservation : ℤ} (budget : spec.budgetLimits = some limits) :
    assertRequestBudget spec s reservation = .ok () ↔
      s.providerAttempts + s.used.providerAttempts < limits.maxProviderAttempts ∧
        (JsNumber.ofInt limits.maxTotalTokens).lt (consumedTokens s + .ofInt reservation) = false := by
  simp only [assertRequestBudget, budget]
  split
  next spent => exact ⟨nofun, fun h => absurd spent (not_le.mpr h.1)⟩
  next room =>
    split
    next spent => exact ⟨nofun, fun h => by rw [spent] at h; cases h.2⟩
    next fits => exact ⟨fun _ => ⟨not_le.mp room, by simpa using fits⟩, fun _ => rfl⟩

theorem assertToolBudget_ok {calls : ℤ} (budget : spec.budgetLimits = some limits) :
    assertToolBudget spec s calls = .ok () ↔
      s.toolCalls + s.used.toolCalls + calls ≤ limits.maxToolCalls := by
  simp only [assertToolBudget, budget]
  split
  next spent => exact ⟨nofun, fun le => absurd spent (not_lt.mpr le)⟩
  next fits => exact ⟨fun _ => not_lt.mp fits, fun _ => rfl⟩

theorem reserveChildBudget_ok {request : ChildRequest} {now : ℤ}
    (given : reserveChildBudget spec s request now = .ok (some t)) :
    ∃ limits d, spec.budgetLimits = some limits ∧ t = { s with delegated := some d } ∧
      s.used.modelSteps < d.modelSteps ∧ s.modelSteps + d.modelSteps ≤ spec.maxIterations ∧
      s.used.providerAttempts < d.providerAttempts ∧
        s.providerAttempts + d.providerAttempts ≤ limits.maxProviderAttempts ∧
      s.used.toolCalls < d.toolCalls ∧ s.toolCalls + d.toolCalls ≤ limits.maxToolCalls ∧
      s.used.tokens < d.tokens ∧
        ∃ consumed, consumedTokens s = .finite consumed ∧
          consumed + (d.tokens - s.used.tokens : ℤ) ≤ limits.maxTotalTokens := by
  unfold reserveChildBudget at given
  split at given
  next limits budget =>
    dsimp only at given
    split at given
    next half split =>
      obtain ⟨funds, given⟩ := guard_eq_ok.mp given
      obtain rfl := some.inj (Except.ok.inj given)
      simp only [not_or, not_le] at funds
      obtain ⟨steps, attempts, calls, tokens, -⟩ := funds
      refine ⟨limits, _, budget, rfl, ?_⟩
      dsimp only
      cases total : consumedTokens s with
      | nan | infinite => rw [total] at split; cases split
      | finite consumed =>
        rw [total] at split
        obtain rfl := some.inj split
        refine ⟨by omega, by omega, by omega, by omega, by omega, by omega, by omega, consumed, rfl, ?_⟩
        generalize part : min (_ : ℤ) ⌊((limits.maxTotalTokens : ℚ) - consumed) / 2⌋ = share at tokens ⊢
        have le : share ≤ ⌊((limits.maxTotalTokens : ℚ) - consumed) / 2⌋ := part ▸ min_le_right _ _
        have bound := (Int.le_floor.mp le)
        have positive : (0 : ℚ) < share := by exact_mod_cast tokens
        push_cast
        linarith
    next => cases given
  next => cases given

theorem get_usageDict : (usageDict report).get k = (report.get k).filter (· ≠ .nan) := by
  have only : ∀ (t : UsageReport) (e : String × JsNumber) (j : String), j ≠ e.1 →
      (if e.2 = .nan then t else t.put e.1 e.2).get j = t.get j := by
    intro t e j differ
    split
    next => rfl
    next => exact Table.get_put_ne differ
  cases found : report.get k with
  | none => exact Table.get_foldl_of_notMem only (Table.key_notMem_entries found)
  | some v =>
    obtain ⟨t, before, after⟩ := Table.get_foldl_of_mem (t := .empty) only Table.nodup_entries
      (Table.mem_entries.mpr found)
    refine after.trans ?_
    by_cases nan : v = .nan
    · subst nan
      exact before
    · simp [nan, Option.filter]

theorem get_accumulateUsage : (accumulateUsage usage raw).get k =
    match raw.get k with
    | some v => some (((usage.get k).getD 0).orZero + v)
    | none => usage.get k := by
  have only : ∀ (t : UsageReport) (e : String × JsNumber) (j : String), j ≠ e.1 →
      (t.put e.1 (((t.get e.1).getD 0).orZero + e.2)).get j = t.get j :=
    fun t e j differ => Table.get_put_ne differ
  cases found : raw.get k with
  | none => exact Table.get_foldl_of_notMem only (Table.key_notMem_entries found)
  | some v =>
    obtain ⟨t, before, after⟩ := Table.get_foldl_of_mem (t := usage) only Table.nodup_entries
      (Table.mem_entries.mpr found)
    refine after.trans ?_
    dsimp only at before ⊢
    rw [Table.get_put_self, before]

theorem get_accumulateSummary : (accumulateSummary usage report).get k =
    match (if k ∈ usageKeys then (report.get k).filter isNumber else none) with
    | some v => some ((usage.get k).getD 0 + v)
    | none => usage.get k := by
  have only : ∀ (t : UsageReport) (key : String) (j : String), j ≠ key →
      (match report.get key with
        | some value => if isNumber value then t.put key ((t.get key).getD 0 + value) else t
        | none => t).get j = t.get j := by
    intro t key j differ
    split
    next =>
      split
      next => exact Table.get_put_ne differ
      next => rfl
    next => rfl
  by_cases counted : k ∈ usageKeys
  · obtain ⟨t, before, after⟩ := Table.get_foldl_of_mem (f := id) (t := usage) only
      (by decide : (usageKeys.map id).Nodup) counted
    refine after.trans ?_
    rw [if_pos counted]
    cases report.get k with
    | none => exact before
    | some v =>
      by_cases number : isNumber v = true
      · simp only [id_eq, number, if_true, Table.get_put_self, Option.filter] at before ⊢
        rw [before]
      · simpa [number, Option.filter] using before
  · rw [if_neg counted]
    exact Table.get_foldl_of_notMem only (by simpa using counted)

end Facts

end Slide.Runtime
