import Slide.Runtime.TurnLoop

/-!
# Budgets are never overspent

Four paths charge a turn: ordinary requests, summaries, tool batches and children.  `Within` is the
account they share; each charge keeps it under the check made just before, and a settlement only
lowers it as long as a provider reports no more than was reserved.  A checkpoint stores an account
that was within its budget, so a turn resumed from any checkpoint starts within it too.
-/

namespace Slide.Runtime

open Transition

variable {spec : AgentRunSpec} {limits : RuntimeBudgetLimits} {s s' : RecoverySnapshot}
  {u : List ℤ} {t t' : Turn} {e : TurnEvent} {es : List TurnEvent} {r : ℤ}

/-- A settled request used no more than its reservation; one that is not settled reports no
counts. -/
def Honest (settled : Bool) (report : UsageReport) (reservation : ℤ) : Prop :=
  let raw := usageDict report
  if settled then
    ∃ p c : ℚ, raw.get "prompt_tokens" = some (.finite p) ∧
      raw.get "completion_tokens" = some (.finite c) ∧ 0 ≤ p ∧ 0 ≤ c ∧ p + c ≤ reservation
  else raw.get "prompt_tokens" = none ∧ raw.get "completion_tokens" = none

/-- The provider's part of the contract, in the one event that settles a request of either kind. -/
def TurnEvent.honest : TurnEvent → Prop
  | .respond reservation report _ _ => Honest (complete (usageDict report)) report reservation
  | .summarized reservation report _ => Honest (summaryComplete report) report reservation
  | _ => True

/-- The account of a turn under its budget; `u` are the reservations of its unsettled requests. -/
structure Within (spec : AgentRunSpec) (limits : RuntimeBudgetLimits) (s : RecoverySnapshot)
    (u : List ℤ) : Prop where
  tokens : ∃ p c : ℚ, s.promptTokens = .finite p ∧ s.completionTokens = .finite c ∧
    p + c + s.reservedTokens + s.used.tokens ≤ limits.maxTotalTokens
  attempts : s.providerAttempts + s.used.providerAttempts ≤ limits.maxProviderAttempts
  toolCalls : s.toolCalls + s.used.toolCalls ≤ limits.maxToolCalls
  modelSteps : s.modelSteps + s.used.modelSteps ≤ spec.maxIterations
  reserved : s.reservedTokens = u.sum

/-- What the account reads of a state. -/
structure Account where
  (modelSteps providerAttempts toolCalls reservedTokens : ℤ)
  used : Delegated
  (promptTokens completionTokens : JsNumber)

def RecoverySnapshot.account (s : RecoverySnapshot) : Account where
  modelSteps := s.modelSteps
  providerAttempts := s.providerAttempts
  toolCalls := s.toolCalls
  reservedTokens := s.reservedTokens
  used := s.used
  promptTokens := s.promptTokens
  completionTokens := s.completionTokens

theorem Within.same (within : Within spec limits s u) (same : s'.account = s.account) :
    Within spec limits s' u := by
  obtain ⟨steps, attempts, calls, reserved, used, prompt, completion⟩ := Account.mk.inj same
  refine ⟨?_, ?_, ?_, ?_, ?_⟩
  · rw [prompt, completion, reserved, used]
    exact within.tokens
  · rw [attempts, used]
    exact within.attempts
  · rw [calls, used]
    exact within.toolCalls
  · rw [steps, used]
    exact within.modelSteps
  · rw [reserved]
    exact within.reserved

theorem Within.consumed (within : Within spec limits s u) :
    ∃ consumed, consumedTokens s = .finite consumed ∧ consumed ≤ limits.maxTotalTokens := by
  obtain ⟨p, c, prompt, completion, le⟩ := within.tokens
  exact ⟨_, by simp only [consumedTokens, prompt, completion, JsNumber.ofInt_eq,
    JsNumber.finite_add], le⟩

/-! ## Charges -/

theorem Within.reserve (within : Within spec limits s u) (budget : spec.budgetLimits = some limits)
    (admitted : assertRequestBudget spec s r = .ok ()) :
    Within spec limits (s.reserve r) (r :: u) := by
  obtain ⟨room, fits⟩ := (assertRequestBudget_ok budget).mp admitted
  obtain ⟨p, c, prompt, completion, -⟩ := within.tokens
  refine ⟨⟨p, c, prompt, completion, ?_⟩, ?_, within.toolCalls, within.modelSteps, ?_⟩
  · simp only [consumedTokens, prompt, completion, JsNumber.ofInt_eq, JsNumber.finite_add,
      JsNumber.finite_lt, decide_eq_false_iff_not, not_lt] at fits
    simp only [RecoverySnapshot.reserve, RecoverySnapshot.used] at fits ⊢
    push_cast at fits ⊢
    linarith
  · simp only [RecoverySnapshot.reserve, RecoverySnapshot.used] at room ⊢
    omega
  · rw [List.sum_cons, ← within.reserved]
    exact add_comm _ _

theorem Within.admitRequest (within : Within spec limits s u)
    (budget : spec.budgetLimits = some limits)
    (admitted : assertRequestBudget spec s r = .ok ())
    (room : s.modelSteps + s.used.modelSteps < spec.maxIterations) :
    Within spec limits (s.admitRequest spec r) (r :: u) := by
  obtain ⟨tokens, attempts, calls, -, reserved⟩ := within.reserve budget admitted
  refine ⟨tokens, attempts, calls, ?_, reserved⟩
  simp only [RecoverySnapshot.admitRequest, RecoverySnapshot.reserve, RecoverySnapshot.used] at room ⊢
  omega

theorem Within.admitTools (within : Within spec limits s u)
    (budget : spec.budgetLimits = some limits) {calls : ℤ}
    (admitted : assertToolBudget spec s calls = .ok ()) :
    Within spec limits (s.admitTools calls) u := by
  have fits := (assertToolBudget_ok budget).mp admitted
  refine ⟨within.tokens, within.attempts, ?_, within.modelSteps, within.reserved⟩
  simp only [RecoverySnapshot.admitTools, RecoverySnapshot.used] at fits ⊢
  omega

theorem Within.child (within : Within spec limits s u) (budget : spec.budgetLimits = some limits)
    {request : ChildRequest} {now : ℤ}
    (given : reserveChildBudget spec s request now = .ok (some s')) : Within spec limits s' u := by
  obtain ⟨limits', d, budget', rfl, -, steps, -, attempts, -, calls, -, consumed, total, le⟩ :=
    reserveChildBudget_ok given
  obtain rfl := some.inj (budget.symm.trans budget')
  obtain ⟨p, c, prompt, completion, -⟩ := within.tokens
  refine ⟨⟨p, c, prompt, completion, ?_⟩, attempts, calls, steps, within.reserved⟩
  simp only [consumedTokens, prompt, completion, JsNumber.ofInt_eq, JsNumber.finite_add,
    JsNumber.finite.injEq] at total
  change p + c + s.reservedTokens + d.tokens ≤ limits.maxTotalTokens
  push_cast at le
  linarith

/-! ## Settlements -/

theorem Within.settled (within : Within spec limits s u) (inside : r ∈ u) {p' c' : ℚ}
    {usage : UsageReport}
    (prompt' : ∀ p, s.promptTokens = .finite p →
      (usage.get "prompt_tokens").getD 0 = .finite (p + p'))
    (completion' : ∀ c, s.completionTokens = .finite c →
      (usage.get "completion_tokens").getD 0 = .finite (c + c'))
    (le : p' + c' ≤ r) :
    Within spec limits (RecoverySnapshot.release { s with usage } r) (u.erase r) := by
  obtain ⟨p, c, prompt, completion, bound⟩ := within.tokens
  refine ⟨⟨p + p', c + c', prompt' p prompt, completion' c completion, ?_⟩, within.attempts,
    within.toolCalls, within.modelSteps, ?_⟩
  · change p + p' + (c + c') + ((s.reservedTokens - r : ℤ) : ℚ) + s.used.tokens ≤ _
    push_cast
    linarith
  · have total := List.sum_erase inside
    have reserved := within.reserved
    change s.reservedTokens - r = _
    omega

theorem Within.unsettled (within : Within spec limits s u) {usage : UsageReport}
    (prompt : usage.get "prompt_tokens" = s.usage.get "prompt_tokens")
    (completion : usage.get "completion_tokens" = s.usage.get "completion_tokens") :
    Within spec limits { s with usage } u := by
  apply within.same
  simp only [RecoverySnapshot.account, RecoverySnapshot.promptTokens,
    RecoverySnapshot.completionTokens, prompt, completion]
  rfl

variable {report : UsageReport}

theorem Within.settle (within : Within spec limits s u) (inside : r ∈ u)
    (honest : Honest (complete (usageDict report)) report r) :
    Within spec limits (s.settle report r)
      (if complete (usageDict report) then u.erase r else u) := by
  unfold Honest at honest
  unfold RecoverySnapshot.settle
  dsimp only at honest ⊢
  split at honest
  next done =>
    rw [if_pos done, if_pos done]
    obtain ⟨p', c', prompt, completion, -, -, le⟩ := honest
    refine within.settled inside ?_ ?_ le
    · intro p before
      rw [get_accumulateUsage, prompt]
      change (s.promptTokens.orZero + .finite p') = _
      rw [before]
      rfl
    · intro c before
      rw [get_accumulateUsage, completion]
      change (s.completionTokens.orZero + .finite c') = _
      rw [before]
      rfl
  next open_ =>
    rw [if_neg open_, if_neg open_]
    apply within.unsettled
    · rw [get_accumulateUsage, honest.1]
    · rw [get_accumulateUsage, honest.2]

theorem get_report {k : String} {v : JsNumber}
    (kept : (usageDict report).get k = some v) : report.get k = some v := by
  rw [get_usageDict] at kept
  exact (Option.filter_eq_some_iff.mp kept).1

theorem no_number {k : String} (absent : (usageDict report).get k = none) :
    (report.get k).filter isNumber = none := by
  rw [get_usageDict, Option.filter_eq_none_iff] at absent
  apply Option.filter_eq_none_iff.mpr
  intro v found number
  have nan : v = .nan := by simpa using absent v found
  rw [nan] at number
  cases number

theorem Within.settleSummary (within : Within spec limits s u)
    (inside : r ∈ u) (honest : Honest (summaryComplete report) report r) :
    Within spec limits (s.settleSummary report r)
      (if summaryComplete report then u.erase r else u) := by
  unfold Honest at honest
  unfold RecoverySnapshot.settleSummary
  dsimp only at honest ⊢
  have prompted : "prompt_tokens" ∈ usageKeys := by decide
  have completed : "completion_tokens" ∈ usageKeys := by decide
  split at honest
  next done =>
    rw [if_pos done, if_pos done]
    obtain ⟨p', c', prompt, completion, -, -, le⟩ := honest
    have numbers := done
    simp only [summaryComplete, Bool.and_eq_true, get_report prompt, get_report completion,
      Option.any_some] at numbers
    refine within.settled inside ?_ ?_ le
    · intro p before
      rw [get_accumulateSummary, if_pos prompted, get_report prompt, Option.filter_some_pos numbers.1]
      change s.promptTokens + .finite p' = _
      rw [before]
      rfl
    · intro c before
      rw [get_accumulateSummary, if_pos completed, get_report completion,
        Option.filter_some_pos numbers.2]
      change s.completionTokens + .finite c' = _
      rw [before]
      rfl
  next open_ =>
    rw [if_neg open_, if_neg open_]
    apply within.unsettled
    · rw [get_accumulateSummary, if_pos prompted, no_number honest.1]
    · rw [get_accumulateSummary, if_pos completed, no_number honest.2]

/-! ## What leaves the account as it is -/

theorem account_validated (ok : validateRecoverySnapshot s = .ok s') : s'.account = s.account := by
  obtain ⟨-, rfl⟩ := validateRecoverySnapshot_ok.mp ok
  have prompt : "prompt_tokens" ∈ usageKeys := by decide
  have completion : "completion_tokens" ∈ usageKeys := by decide
  simp only [RecoverySnapshot.account, RecoverySnapshot.promptTokens,
    RecoverySnapshot.completionTokens, get_keptUsage, prompt, completion, if_true]
  rfl

theorem account_consume {kind : RecoveryKind}
    (consumed : s.consume spec.recoveryLimits kind = some s') : s'.account = s.account := by
  unfold RecoverySnapshot.consume at consumed
  split at consumed
  next => cases consumed
  next =>
    cases consumed
    rfl

/-- A part of a step that charges nothing, settles nothing and saves nothing. -/
structure Uncharged (t t' : Turn) : Prop where
  account : t'.recovery.account = t.recovery.account
  unsettled : t'.unsettled = t.unsettled
  saved : t'.saved = t.saved

theorem Uncharged.refl : Uncharged t t := ⟨rfl, rfl, rfl⟩

theorem Uncharged.trans {t'' : Turn} (left : Uncharged t t') (right : Uncharged t' t'') :
    Uncharged t t'' :=
  ⟨right.account.trans left.account, right.unsettled.trans left.unsettled,
    right.saved.trans left.saved⟩

theorem uncharged_observe (digest : Digest) : Uncharged t (t.observe digest) := by
  unfold Turn.observe
  split
  next => exact ⟨rfl, rfl, rfl⟩
  next =>
    refine ⟨?_, rfl, rfl⟩
    dsimp only
    split <;> exact rfl

theorem uncharged_observed (results : List Digest) : Uncharged t (results.foldl Turn.observe t) := by
  induction results generalizing t with
  | nil => exact .refl
  | cons digest rest ih => exact (uncharged_observe digest).trans ih

variable {keyId : Uuid}

theorem uncharged_noteEvidence {results : List Digest} :
    Uncharged t (t.noteEvidence spec results keyId) := by
  unfold Turn.noteEvidence
  split
  next =>
    exact (uncharged_observed results).trans ⟨rfl, rfl, rfl⟩
  next => exact ⟨rfl, rfl, rfl⟩

theorem uncharged_noteCandidate {digest : Digest} :
    Uncharged t (t.noteCandidate spec digest keyId) := by
  unfold Turn.noteCandidate
  split
  next => exact ⟨rfl, rfl, rfl⟩
  next => exact ⟨rfl, rfl, rfl⟩

/-! ## One step -/

/-- What a phase relies on: an iteration under way has its step, a request in flight its
reservation. -/
def Covers (spec : AgentRunSpec) (s : RecoverySnapshot) (u : List ℤ) : Phase → Prop
  | .governing _ => s.modelSteps + s.used.modelSteps < spec.maxIterations
  | .summarizing r => s.modelSteps + s.used.modelSteps < spec.maxIterations ∧ r ∈ u
  | .requesting r _ => r ∈ u
  | _ => True

/-- A turn within its budget, now and at every checkpoint. -/
structure Funded (spec : AgentRunSpec) (limits : RuntimeBudgetLimits) (t : Turn) : Prop where
  now : Within spec limits t.recovery t.unsettled
  saved : ∀ c ∈ t.saved, Within spec limits c.snapshot c.unsettled
  covers : Covers spec t.recovery t.unsettled t.phase

theorem Funded.same (funded : Funded spec limits t) (same : Uncharged t t')
    (covers : Covers spec t'.recovery t'.unsettled t'.phase) : Funded spec limits t' := by
  refine ⟨?_, ?_, covers⟩
  · rw [same.unsettled]
    exact funded.now.same same.account
  · rw [same.saved]
    exact funded.saved

theorem persist_funded {next : Phase} (now : Within spec limits t.recovery t.unsettled)
    (saved : ∀ c ∈ t.saved, Within spec limits c.snapshot c.unsettled)
    (covers : Covers spec t.recovery t.unsettled next) : Funded spec limits (t.persist next) := by
  unfold Turn.persist
  split
  next snapshot ok =>
    refine ⟨now, ?_, covers⟩
    intro c mem
    rcases List.mem_cons.mp mem with rfl | mem
    · exact now.same (account_validated ok)
    · exact saved c mem
  next => exact ⟨now, saved, trivial⟩

theorem Funded.persist {next : Phase} (funded : Funded spec limits t)
    (covers : Covers spec t.recovery t.unsettled next) : Funded spec limits (t.persist next) :=
  persist_funded funded.now funded.saved covers

theorem Funded.persistSame {next : Phase} (funded : Funded spec limits t) (same : Uncharged t t')
    (covers : Covers spec t'.recovery t'.unsettled next) : Funded spec limits (t'.persist next) := by
  apply persist_funded _ _ covers
  · rw [same.unsettled]
    exact funded.now.same same.account
  · rw [same.saved]
    exact funded.saved

theorem Funded.andThen {rest : Turn → Turn} (funded : Funded spec limits t)
    (after : Funded spec limits (rest t)) : Funded spec limits (t.andThen rest) := by
  unfold Turn.andThen
  split
  next => exact funded
  next => exact after

theorem Funded.cycle (funded : Funded spec limits t) {measured started : ℤ} :
    Funded spec limits (t.cycle spec measured started) := by
  unfold Turn.cycle
  split
  next => exact funded.same ⟨rfl, rfl, rfl⟩ trivial
  next =>
    dsimp only
    split
    next => exact funded.same ⟨rfl, rfl, rfl⟩ trivial
    next room =>
      split
      next => exact funded.same ⟨rfl, rfl, rfl⟩ trivial
      next =>
        exact funded.same ⟨rfl, rfl, rfl⟩ (not_le.mp room)

variable {view : RequestView}

theorem admission_ok {reduceOutput : Bool} (admitted : t.admission spec view reduceOutput = .ok r) :
    assertRequestBudget spec t.recovery r = .ok () := by
  unfold Turn.admission at admitted
  obtain ⟨reservation, -, admitted⟩ := bind_eq_ok.mp admitted
  obtain ⟨_, checked, same⟩ := bind_eq_ok.mp admitted
  cases same
  exact checked

theorem Funded.summarize (funded : Funded spec limits t) (budget : spec.budgetLimits = some limits)
    (room : t.recovery.modelSteps + t.recovery.used.modelSteps < spec.maxIterations)
    {reactive : Bool} :
    Funded spec limits (t.summarize spec view reactive) := by
  unfold Turn.summarize
  dsimp only
  split
  next => exact funded.same ⟨rfl, rfl, rfl⟩ trivial
  next =>
    split
    next => exact funded.same ⟨rfl, rfl, rfl⟩ trivial
    next reservation admitted =>
      have charged := funded.now.reserve budget (admission_ok admitted)
      exact persist_funded charged funded.saved ⟨room, List.mem_cons_self ..⟩

theorem Funded.failSummary (funded : Funded spec limits t) :
    Funded spec limits (t.failSummary spec) := by
  refine funded.same ⟨?_, rfl, rfl⟩ trivial
  change ((t.recovery.consume spec.recoveryLimits .context).getD t.recovery).account = _
  cases consumed : t.recovery.consume spec.recoveryLimits .context with
  | none => rfl
  | some s => exact account_consume consumed

theorem settleSummary_steps (s : RecoverySnapshot) (report : UsageReport) (r : ℤ) :
    (s.settleSummary report r).modelSteps = s.modelSteps ∧
      (s.settleSummary report r).used = s.used := by
  unfold RecoverySnapshot.settleSummary
  dsimp only
  split <;> exact ⟨rfl, rfl⟩

theorem Funded.conclude (funded : Funded spec limits t)
    (room : t.recovery.modelSteps + t.recovery.used.modelSteps < spec.maxIterations)
    {outcome : SummaryOutcome} : Funded spec limits (t.conclude spec outcome) := by
  have again : Funded spec limits (t.persist .ended) := funded.persist trivial
  have refused : Funded spec limits ((t.persist .ended).andThen (Turn.failSummary spec)) :=
    again.andThen again.failSummary
  cases outcome with
  | rejected => exact refused
  | failed => exact funded.failSummary
  | accepted =>
    unfold Turn.conclude
    dsimp only
    split
    next => exact funded.persist room
    next => exact funded.failSummary
  | changed =>
    unfold Turn.conclude
    dsimp only
    split
    next => exact refused
    next => exact funded.failSummary

theorem Funded.summarized (funded : Funded spec limits t)
    (room : t.recovery.modelSteps + t.recovery.used.modelSteps < spec.maxIterations)
    (inside : r ∈ t.unsettled) {outcome : SummaryOutcome}
    (honest : Honest (summaryComplete report) report r) :
    Funded spec limits (t.summarized spec r report outcome) := by
  unfold Turn.summarized
  have settled : Funded spec limits (Turn.persist { t with
      recovery := t.recovery.settleSummary report r
      unsettled := if summaryComplete report then t.unsettled.erase r else t.unsettled } .ended) :=
    persist_funded (funded.now.settleSummary inside honest) funded.saved trivial
  apply settled.andThen
  apply settled.conclude
  obtain ⟨steps, used⟩ := settleSummary_steps t.recovery report r
  rw [Turn.persist_recovery, steps, used]
  exact room

variable {answerOnly : Bool}

theorem Funded.request (funded : Funded spec limits t) (budget : spec.budgetLimits = some limits)
    (room : t.recovery.modelSteps + t.recovery.used.modelSteps < spec.maxIterations) :
    Funded spec limits (t.request spec view answerOnly) := by
  unfold Turn.request
  split
  next => exact funded.same ⟨rfl, rfl, rfl⟩ trivial
  next reservation admitted =>
    have charged := funded.now.admitRequest budget (admission_ok admitted) room
    exact persist_funded charged funded.saved (List.mem_cons_self ..)

theorem Funded.respond (funded : Funded spec limits t) (inside : r ∈ t.unsettled)
    {sent returned : ℤ}
    (honest : Honest (complete (usageDict report)) report r) :
    Funded spec limits (t.respond spec r answerOnly report sent returned) := by
  unfold Turn.respond
  have settled := funded.now.settle inside honest
  refine persist_funded settled funded.saved ?_
  generalize assertTokenBudget spec _ = checked
  cases checked with
  | ok | error => exact trivial

theorem Funded.admitTools (funded : Funded spec limits t)
    (budget : spec.budgetLimits = some limits) {calls : ℕ} :
    Funded spec limits (t.admitTools spec answerOnly calls) := by
  unfold Turn.admitTools
  split
  next admitted =>
    have checked : assertToolBudget spec t.recovery calls = .ok () := by
      cases result : assertToolBudget spec t.recovery calls with
      | ok => rfl
      | error => simp [result, Except.isOk, Except.toBool] at admitted
    exact persist_funded (funded.now.admitTools budget checked) funded.saved trivial
  next => exact funded.persist trivial

theorem Funded.child (funded : Funded spec limits t) (budget : spec.budgetLimits = some limits)
    {request : ChildRequest} {now : ℤ} : Funded spec limits (t.child spec request now) := by
  unfold Turn.child
  split
  next recovery given => exact persist_funded (funded.now.child budget given) funded.saved trivial
  next => exact funded

theorem Funded.recover (funded : Funded spec limits t) {kind : RecoveryKind}
    {candidate : Option (Digest × Uuid)} {granted : Bool} :
    Funded spec limits (t.recover spec kind candidate granted) := by
  unfold Turn.recover
  have same : Uncharged t (t.noteCut spec candidate) := by
    cases candidate with
    | none => exact .refl
    | some pair => exact uncharged_noteCandidate
  dsimp only
  split
  next => exact funded.same (same.trans ⟨rfl, rfl, rfl⟩) trivial
  next recovery consumed =>
    have spent : Uncharged t { t.noteCut spec candidate with recovery } :=
      same.trans ⟨account_consume consumed, rfl, rfl⟩
    split
    next => exact funded.persistSame spent trivial
    next => exact funded.same (spent.trans ⟨rfl, rfl, rfl⟩) trivial

theorem Funded.inject (funded : Funded spec limits t) :
    Funded spec limits (t.inject spec) := by
  unfold Turn.inject
  split
  next =>
    exact funded.persistSame ⟨rfl, rfl, rfl⟩ trivial
  next => exact funded.same ⟨rfl, rfl, rfl⟩ trivial

theorem resume_funded {saved : List Saved} {deadline : Option JsNumber} {runId : Uuid}
    (now : Within spec limits s u) (before : ∀ c ∈ saved, Within spec limits c.snapshot c.unsettled) :
    Funded spec limits (.resume spec (some s) u saved deadline runId keyId) := by
  unfold Turn.resume
  dsimp only
  split
  next recovery ok =>
    refine ⟨now.same (.trans ?_ (account_validated ok)), before, trivial⟩
    rfl
  next => exact ⟨now, before, trivial⟩

theorem within_fresh : Within spec limits {} [] := by
  have none : ∀ k, (Table.empty : UsageReport).get k = none := Table.get_empty
  refine ⟨⟨0, 0, ?_, ?_, ?_⟩, ?_, ?_, ?_, rfl⟩
  · simp only [RecoverySnapshot.promptTokens, none, Option.getD_none, JsNumber.zero_eq]
  · simp only [RecoverySnapshot.completionTokens, none, Option.getD_none, JsNumber.zero_eq]
  · simp only [RecoverySnapshot.used, Option.getD_none]
    simp
  · exact Int.natCast_nonneg limits.maxProviderAttempts
  · exact Int.natCast_nonneg limits.maxToolCalls
  · exact Int.natCast_nonneg spec.maxIterations

theorem fresh_funded {deadline : Option JsNumber} {runId : Uuid} :
    Funded spec limits (.resume spec none [] [] deadline runId keyId) :=
  ⟨within_fresh.same rfl, List.forall_mem_nil _, trivial⟩

theorem Funded.step (funded : Funded spec limits t) (budget : spec.budgetLimits = some limits)
    (step : TurnStep spec t e t') (honest : e.honest) : Funded spec limits t' := by
  have covers := funded.covers
  cases step with
  | cycle => exact funded.cycle
  | summarize phase =>
    rw [phase] at covers
    exact funded.summarize budget covers
  | summarized phase =>
    rw [phase] at covers
    exact funded.summarized covers.1 covers.2 honest
  | failSummary => exact funded.failSummary
  | request phase =>
    rw [phase] at covers
    exact funded.request budget covers
  | respond phase =>
    rw [phase] at covers
    exact funded.respond covers honest
  | admitTools => exact funded.admitTools budget
  | child => exact funded.child budget
  | finishTools => exact funded.persistSame uncharged_noteEvidence trivial
  | recover => exact funded.recover
  | inject => exact funded.inject
  | overflow => exact funded.same ⟨rfl, rfl, rfl⟩ trivial
  | answer => exact funded.persist trivial
  | stop => exact funded.same ⟨rfl, rfl, rfl⟩ trivial
  | close => exact funded.persist trivial
  | restart written => exact resume_funded (funded.saved _ written) funded.saved

/-- Execution budgets are never overspent. -/
theorem budget_never_overspent (budget : spec.budgetLimits = some limits)
    {deadline : Option JsNumber} {runId keyId : Uuid}
    (run : Run (TurnStep spec) (.resume spec none [] [] deadline runId keyId) es t)
    (honest : ∀ e ∈ es, e.honest) :
    (∃ consumed, consumedTokens t.recovery = .finite consumed ∧
      consumed ≤ limits.maxTotalTokens) ∧
      t.recovery.providerAttempts + t.recovery.used.providerAttempts ≤ limits.maxProviderAttempts ∧
      t.recovery.toolCalls + t.recovery.used.toolCalls ≤ limits.maxToolCalls ∧
      t.recovery.modelSteps + t.recovery.used.modelSteps ≤ spec.maxIterations ∧
      t.recovery.reservedTokens = t.unsettled.sum := by
  have funded : (∀ e ∈ es, e.honest) → Funded spec limits t := by
    refine run.history (P := fun es t => (∀ e ∈ es, e.honest) → Funded spec limits t)
      (fun _ => fresh_funded) ?_
    intro es t e t' before step honest
    have earlier := before fun e mem => honest e (List.mem_append_left _ mem)
    exact earlier.step budget step (honest e (List.mem_append_right _ (List.mem_singleton_self e)))
  have within := (funded honest).now
  exact ⟨within.consumed, within.attempts, within.toolCalls, within.modelSteps, within.reserved⟩

/-! A request is planned under its budget and settled, and its response asks for a tool. -/

private def sampleSpec : AgentRunSpec where
  maxIterations := 3
  budgetLimits := some ⟨2, 3, 100, 2⟩

private def sampleUuid : Uuid := ⟨"00000000-0000-0000-0000-000000000000", isUuid_zeros⟩

private def sampleReport : UsageReport :=
  (Table.empty.put "prompt_tokens" (.finite 15)).put "completion_tokens" (.finite 5)

/-- Twenty tokens are consumed of the forty that were reserved. -/
theorem budget_never_overspent_request : ∃ (es : List TurnEvent) (t : Turn),
    Run (TurnStep sampleSpec) (.resume sampleSpec none [] [] none sampleUuid sampleUuid) es t ∧
      consumedTokens t.recovery = .finite 20 ∧ t.recovery.toolCalls = 1 ∧
      t.recovery.reservedTokens = t.unsettled.sum := by
  have cycled := Run.single (@TurnStep.cycle sampleSpec
    (.resume sampleSpec none [] [] none sampleUuid sampleUuid) 0 0 rfl)
  have requested := cycled.snoc (@TurnStep.request _ _ false ⟨40, 10, 20⟩ false rfl)
  have responded := requested.snoc (@TurnStep.respond _ _ 40 false sampleReport 0 1 (by decide +kernel))
  have admitted := responded.snoc (@TurnStep.admitTools _ _ false 1 (by decide +kernel))
  have honest : Honest (complete (usageDict sampleReport)) sampleReport 40 := by
    have done : complete (usageDict sampleReport) = true := by rfl
    unfold Honest
    rw [done]
    exact ⟨15, 5, by rfl, by rfl, by norm_num, by norm_num, by norm_num⟩
  refine ⟨_, _, admitted, by decide +kernel, by decide +kernel, ?_⟩
  refine (@budget_never_overspent sampleSpec ⟨2, 3, 100, 2⟩ _ _ rfl _ _ _ admitted ?_).2.2.2.2
  intro e mem
  simp only [List.mem_append, List.mem_singleton] at mem
  rcases mem with ((rfl | rfl) | rfl) | rfl
  · trivial
  · trivial
  · exact honest
  · trivial

end Slide.Runtime
