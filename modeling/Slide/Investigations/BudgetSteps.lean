import Mathlib.Algebra.Order.Ring.Int
import Mathlib.Tactic.Ring
import Slide.Investigations.BudgetLedger

/-!
# Steps of the budget ledger

What one operation does to the rows: it admits one row that passed every check, it moves rows on
without a higher charge, or it leaves them.  A settlement within its reservation is charged no more
than the reservation, in tokens and, with its prices rounded up, in money.
-/

namespace Slide.Investigations

open Display

variable {host : BudgetHost} {ledger : BudgetLedger} {s t : BudgetStore} {row : LedgerRow}
  {input value : BudgetReservationInput} {limit : Option Int} {now : Instant} {id domain : String}
  {keys : List String} {admission : BudgetAdmission}

/-! ## One row -/

/-- What every row of the ledger keeps. -/
structure LedgerRow.Sound (row : LedgerRow) : Prop where
  covered : pricesCovered row.reservation
  tokens : (row.reservedTokens : Int) = row.reservation.reserveTokens
  cost : (row.reservedCostMicros : Int) = row.reservation.reserveCostMicros
  held : row.state.active → row.chargedTokens = row.reservedTokens ∧
    row.chargedCostMicros = row.reservedCostMicros
  day : row.budgetDay = row.budgetHour / 24

/-- What a transition may do to a row: its identity and its dates stay, its charges do not rise, and
what is over does not start again. -/
structure LedgerRow.Spends (old new : LedgerRow) : Prop where
  id : new.id = old.id
  requestId : new.requestId = old.requestId
  domain : new.domain = old.domain
  mode : new.mode = old.mode
  day : new.budgetDay = old.budgetDay
  hour : new.budgetHour = old.budgetHour
  resourceKeys : new.resourceKeys = old.resourceKeys
  active : new.state.active → old.state.active
  tokens : new.chargedTokens ≤ old.chargedTokens
  cost : new.chargedCostMicros ≤ old.chargedCostMicros

theorem LedgerRow.Spends.refl (row : LedgerRow) : row.Spends row :=
  ⟨rfl, rfl, rfl, rfl, rfl, rfl, rfl, fun active => active, le_rfl, le_rfl⟩

theorem LedgerRow.Spends.of_state {state : BudgetState} {costStatus : CostStatus}
    (active : state.active → row.state.active) :
    row.Spends { row with state, costStatus } :=
  ⟨rfl, rfl, rfl, rfl, rfl, rfl, rfl, active, le_rfl, le_rfl⟩

theorem LedgerRow.Sound.of_state {state : BudgetState} {costStatus : CostStatus} (sound : row.Sound)
    (active : row.state.active) : { row with state, costStatus : LedgerRow }.Sound :=
  ⟨sound.covered, sound.tokens, sound.cost, fun _ => sound.held active, sound.day⟩

theorem ceilMicros_mono {a b : Int} (le : a ≤ b) : ceilMicros a ≤ ceilMicros b := by
  unfold ceilMicros
  omega

theorem cost_le_reserved {usage : BudgetUsage} {prices : BudgetPrices} (valid : usage.valid)
    (covered : pricesCovered input) (priced : prices ∈ input.prices)
    (within : usage.inputTokens + usage.outputTokens ≤ input.reserveTokens) :
    ceilMicros ((usage.inputTokens - usage.cachedInputTokens) * prices.input +
      usage.cachedInputTokens * prices.cachedInput + usage.outputTokens * prices.output) ≤
      input.reserveCostMicros := by
  obtain ⟨rates, enough⟩ := covered prices priced
  refine (ceilMicros_mono ?_).trans enough
  generalize top : max prices.input (max prices.cachedInput prices.output) = highest
  have input_le : prices.input ≤ highest := by omega
  have cached_le : prices.cachedInput ≤ highest := by omega
  have output_le : prices.output ≤ highest := by omega
  have nonneg : 0 ≤ highest := rates.1.1.trans input_le
  have fresh : 0 ≤ usage.inputTokens - usage.cachedInputTokens := by
    have := valid.2.2.2.1
    omega
  calc (usage.inputTokens - usage.cachedInputTokens) * prices.input +
        usage.cachedInputTokens * prices.cachedInput + usage.outputTokens * prices.output
      ≤ (usage.inputTokens - usage.cachedInputTokens) * highest +
        usage.cachedInputTokens * highest + usage.outputTokens * highest :=
        add_le_add (add_le_add (mul_le_mul_of_nonneg_left input_le fresh)
          (mul_le_mul_of_nonneg_left cached_le valid.2.1.1))
          (mul_le_mul_of_nonneg_left output_le valid.2.2.1.1)
    _ = (usage.inputTokens + usage.outputTokens) * highest := by ring
    _ ≤ input.reserveTokens * highest := mul_le_mul_of_nonneg_right within nonneg

variable {set : LedgerRow → LedgerRow}

theorem markSentRow_spends (sound : row.Sound)
    (ok : markSentRow row = .ok set) : row.Spends (set row) ∧ (set row).Sound := by
  unfold markSentRow at ok
  split at ok
  next state =>
    cases ok
    exact ⟨.of_state fun _ => by rw [state]; rfl, sound.of_state (by rw [state]; rfl)⟩
  all_goals cases ok
  all_goals exact ⟨.refl row, sound⟩

theorem cancelReserved_spends (sound : row.Sound)
    (ok : cancelReserved row = .ok set) : row.Spends (set row) ∧ (set row).Sound := by
  unfold cancelReserved at ok
  split at ok
  · cases ok
    exact ⟨.refl row, sound⟩
  · cases ok
    exact ⟨⟨rfl, rfl, rfl, rfl, rfl, rfl, rfl, nofun, Nat.zero_le _, Nat.zero_le _⟩,
      ⟨sound.covered, sound.tokens, sound.cost, nofun, sound.day⟩⟩
  · cases ok

theorem retainUnknown_spends (sound : row.Sound)
    (ok : retainUnknown row = .ok set) : row.Spends (set row) ∧ (set row).Sound := by
  unfold retainUnknown at ok
  split at ok
  · cases ok
    exact ⟨.refl row, sound⟩
  · cases ok
    exact ⟨.refl row, sound⟩
  · next settled cancelled =>
    cases ok
    have active : row.state.active := by
      cases state : row.state <;> first | rfl | exact absurd state ‹_›
    exact ⟨.of_state fun _ => active, sound.of_state active⟩

theorem measuredBudget_le {usage : BudgetUsage} {tokens : Int} {cost : Option Int}
    (valid : usage.valid) (covered : pricesCovered input)
    (within : usage.inputTokens + usage.outputTokens ≤ input.reserveTokens)
    (measured : measuredBudget usage input.prices = .ok (tokens, cost)) :
    tokens ≤ input.reserveTokens ∧ ∀ micros ∈ cost, micros ≤ input.reserveCostMicros := by
  unfold measuredBudget at measured
  rw [if_neg (not_not.mpr valid)] at measured
  split at measured
  next unpriced =>
    cases measured
    exact ⟨within, nofun⟩
  next rate priced =>
    dsimp only at measured
    have bound := cost_le_reserved valid covered priced within
    split at measured
    · cases measured
    · cases measured
      refine ⟨within, fun micros mem => ?_⟩
      cases mem
      exact bound

theorem settlement_spends {usage : Option BudgetUsage}
    (sound : row.Sound) (active : row.state.active) (valid : ∀ value ∈ usage, value.valid)
    (within : ∀ value ∈ usage,
      value.inputTokens + value.outputTokens ≤ row.reservation.reserveTokens)
    (ok : settlement host usage row = .ok set) : row.Spends (set row) ∧ (set row).Sound := by
  cases usage with
  | none =>
    cases ok
    exact ⟨.of_state fun _ => active, sound.of_state active⟩
  | some value =>
    obtain ⟨⟨tokens, cost⟩, measured, ok⟩ := bind_eq_ok.mp ok
    cases ok
    obtain ⟨fewer, cheaper⟩ :=
      measuredBudget_le (valid value rfl) sound.covered (within value rfl) measured
    obtain ⟨heldTokens, heldCost⟩ := sound.held active
    have reservedTokens := sound.tokens
    have reservedCost := sound.cost
    refine ⟨⟨rfl, rfl, rfl, rfl, rfl, rfl, rfl, nofun, ?_, ?_⟩,
      ⟨sound.covered, sound.tokens, sound.cost, nofun, sound.day⟩⟩
    · dsimp only
      omega
    · cases cost with
      | none => exact heldCost.ge
      | some micros =>
        have := cheaper micros rfl
        dsimp only [Option.map_some, Option.getD_some]
        omega

theorem settleRow_spends {usage : Option BudgetUsage}
    (sound : row.Sound) (valid : ∀ value ∈ usage, value.valid)
    (within : ∀ value ∈ usage,
      value.inputTokens + value.outputTokens ≤ row.reservation.reserveTokens)
    (ok : settleRow host usage row = .ok set) : row.Spends (set row) ∧ (set row).Sound := by
  unfold settleRow at ok
  split at ok
  · split at ok
    · cases ok
    · cases ok
      exact ⟨.refl row, sound⟩
  next state => exact settlement_spends sound (by rw [state]; rfl) valid within ok
  next state => exact settlement_spends sound (by rw [state]; rfl) valid within ok
  · cases ok

/-! ## One operation -/

/-- The deployment that serves the operation. -/
def BudgetOperation.deployment : BudgetOperation → Option BudgetLedger
  | .reserve ledger .. | .reserveExecution ledger .. | .reuseExecution ledger ..
  | .prepareDomain ledger _ => some ledger
  | _ => none

/-- The token ceiling that the command is checked against. -/
def BudgetLedger.ceiling (host : BudgetHost) (ledger : BudgetLedger) (value : BudgetReservationInput)
    (executionTokenLimit : Option Int) : Option Int :=
  (ledger.input host value executionTokenLimit).toOption.bind fun input =>
    input.ceiling executionTokenLimit

/-- The request an operation may admit, with the token ceiling it is admitted under. -/
def BudgetOperation.ceiling (host : BudgetHost) : BudgetOperation → Option (String × Option Int)
  | .reserve ledger value _ _ =>
    some (value.requestId, ledger.ceiling host value ledger.executionTokenLimit)
  | .reserveExecution ledger value limit _ _ =>
    some (value.requestId, ledger.ceiling host { value with operationId := "request:" ++ value.requestId }
      (limit.or ledger.executionTokenLimit))
  | _ => none

/-- The facts under which a reservation becomes a row. -/
structure Admission (host : BudgetHost) (s : BudgetStore) (ledger : BudgetLedger)
    (input : BudgetReservationInput) (limit : Option Int) (keys : List String) (now : Instant)
    (id : String) : Prop where
  frozen : (lockDomain host ledger input.domain s).1.policyHash = host.hash ledger.policy.toJson
  checked : suppression ledger.policy input limit keys now s.ledger = none
  fresh : id ∉ s.ledger.map LedgerRow.id
  unused : ∀ row ∈ s.ledger, ¬ (row.requestId = input.requestId ∧ row.operationId = input.operationId)
  tokens : integer input.reserveTokens 1
  cost : integer input.reserveCostMicros 1
  covered : pricesCovered input
  ceiling : ∃ ceiling, input.ceiling limit = some ceiling

theorem reservationInput_eq_ok (ok : reservationInput value limit = .ok input) :
    input = value ∧ validateInvestigationProfile value.profile ∧ integer value.reserveTokens 1 ∧
      integer value.reserveCostMicros 1 ∧ pricesCovered value := by
  unfold reservationInput at ok
  split at ok
  next passed =>
    cases ok
    exact ⟨rfl, passed.2.2.2.1, passed.2.2.2.2.1, passed.2.2.2.2.2.2.1, passed.2.2.2.2.2.2.2⟩
  · cases ok

theorem tokenCeiling_of_valid (valid : validateInvestigationProfile value.profile) :
    ∃ ceiling, tokenCeiling value.profile limit = some ceiling := by
  have field : "maxTokens" ∈ profileBudgetFields := by decide
  obtain ⟨tokens, found, -⟩ := profileBudget_of_valid valid field
  cases limit with
  | none => exact ⟨tokens, found⟩
  | some limit => exact ⟨limit, rfl⟩

theorem BudgetLedger.input_eq_ok (ok : ledger.input host value limit = .ok input) :
    (∃ allocation, input = { value with executionAllocation := allocation } ∧
      allocation.isSome = value.executionAllocation.isSome) ∧
    input.ceiling limit = (if value.executionAllocation.isSome then some value.reserveTokens
      else tokenCeiling value.profile limit) ∧
    validateInvestigationProfile value.profile ∧ integer input.reserveTokens 1 ∧
    integer input.reserveCostMicros 1 ∧ pricesCovered input := by
  unfold BudgetLedger.input at ok
  split at ok
  next plain =>
    obtain ⟨rfl, bounds⟩ := reservationInput_eq_ok ok
    refine ⟨⟨none, by rw [← plain], by rw [plain]⟩, ?_, bounds⟩
    unfold BudgetReservationInput.ceiling
    rw [plain]
    rfl
  next candidate given =>
    obtain ⟨allocation, read, ok⟩ := bind_eq_ok.mp ok
    obtain ⟨equal, ok⟩ := guard_eq_ok.mp ok
    obtain ⟨rfl, bounds⟩ := reservationInput_eq_ok ok
    have total := not_not.mp equal
    have present : allocation.isSome := by
      cases allocation with
      | none => cases total
      | some allocation => rfl
    refine ⟨⟨allocation, rfl, by rw [present, given]; rfl⟩, ?_, bounds⟩
    unfold BudgetReservationInput.ceiling tokenCeiling
    dsimp only
    rw [total, given]
    rfl

theorem BudgetLedger.ceiling_of_input (ok : ledger.input host value limit = .ok input) :
    ∃ ceiling, input.ceiling limit = some ceiling := by
  obtain ⟨-, same, valid, -⟩ := ledger.input_eq_ok ok
  rw [same]
  split
  · exact ⟨_, rfl⟩
  · exact tokenCeiling_of_valid valid

theorem BudgetLedger.ceiling_input (ok : ledger.input host value limit = .ok input) :
    input.ceiling limit = ledger.ceiling host value limit := by
  unfold BudgetLedger.ceiling
  rw [ok]
  rfl

theorem BudgetLedger.ceiling_again {again : BudgetReservationInput}
    (ok : ledger.input host value limit = .ok input) (ok' : ledger.input host input limit = .ok again) :
    again.ceiling limit = ledger.ceiling host value limit := by
  obtain ⟨⟨allocation, rfl, same⟩, first, -⟩ := ledger.input_eq_ok ok
  obtain ⟨-, second, -⟩ := ledger.input_eq_ok ok'
  rw [← ceiling_input ok, first, second, same]

theorem admitCommand_cases {frozen : BudgetDomain}
    (ok : admitCommand host ledger input limit keys frozen now id s = .ok (admission, t)) :
    t = s ∧ (∀ reservation, admission ≠ .accepted false reservation) ∨
    (∃ reservation, admission = .accepted false reservation) ∧
      frozen.policyHash = host.hash ledger.policy.toJson ∧
      suppression ledger.policy input limit keys now s.ledger = none ∧
      id ∉ s.ledger.map LedgerRow.id ∧
      (∀ row ∈ s.ledger, ¬ (row.requestId = input.requestId ∧ row.operationId = input.operationId)) ∧
      t = { s with ledger := s.ledger ++ [newRow host input keys now id] } := by
  unfold admitCommand at ok
  split at ok
  next existing found =>
    obtain ⟨-, ok⟩ := guard_eq_ok.mp ok
    obtain ⟨reservation, -, ok⟩ := bind_eq_ok.mp ok
    cases ok
    exact .inl ⟨rfl, nofun⟩
  next missing =>
    obtain ⟨sameHash, ok⟩ := guard_eq_ok.mp ok
    obtain ⟨-, ok⟩ := guard_eq_ok.mp ok
    split at ok
    next reason refused =>
      cases ok
      exact .inl ⟨rfl, nofun⟩
    next admitted =>
      obtain ⟨fresh, ok⟩ := guard_eq_ok.mp ok
      obtain ⟨reservation, -, ok⟩ := bind_eq_ok.mp ok
      cases ok
      exact .inr ⟨⟨reservation, rfl⟩, not_not.mp sameHash, admitted, fun used => fresh (.inl used),
        fun row mem => of_decide_eq_false (Bool.eq_false_iff.mpr (List.find?_eq_none.mp missing row mem)),
        rfl⟩

theorem lockDomain_ledger : (lockDomain host ledger domain s).2.ledger = s.ledger := by
  unfold lockDomain
  split <;> rfl

theorem lockDomain_requests : (lockDomain host ledger domain s).2.requests = s.requests := by
  unfold lockDomain
  split <;> rfl

theorem lockDomain_resources : (lockDomain host ledger domain s).2.resources = s.resources := by
  unfold lockDomain
  split <;> rfl

/-- The request and its resources let the command through to the lock of its domain. -/
structure Presented (host : BudgetHost) (ledger : BudgetLedger) (input : BudgetReservationInput)
    (request : RequestRow) (resources : List ResourceRef) : Prop where
  profile : ¬ (request.snapshot.profileId ≠ input.profile.at? "id" ∨
    request.snapshot.profileVersion ≠ input.profile.at? "version" ∨
    request.snapshot.profileHash ≠ some (host.investigationProfileHash input.profile))
  allocation : ∃ allocation,
    readExecutionAllocation host (request.snapshot.executionAllocation.map host.column)
      { requestId := input.requestId, investigationId := request.investigationId,
        domain := input.domain, mode := input.mode, profile := input.profile,
        executionDomain := some request.executionDomain } ledger.policy ledger.taskExecution =
        .ok allocation ∧
      allocation.map Json.canonical = input.executionAllocation.map Json.canonical
  resources : ¬ (input.profile.at? "id" = some (.string "ops") ∧ resources = [] ∨
    input.profile.at? "id" = some (.string "system") ∧ resources ≠ [])

/-- The resources of an investigation. -/
def BudgetStore.resourcesOf (store : BudgetStore) (request : RequestRow) : List ResourceRef :=
  (store.resources.get request.investigationId).getD []

theorem BudgetLedger.reserveInTransaction_eq_ok {result : BudgetAdmission × BudgetStore}
    (ok : ledger.reserveInTransaction host value limit now id s = .ok result) :
    ∃ input request, ledger.input host value limit = .ok input ∧
      s.requests.get input.requestId = some request ∧
      Presented host ledger input request (s.resourcesOf request) ∧
      admitCommand host ledger input limit (resourceKeys host request.snapshot (s.resourcesOf request))
        (lockDomain host ledger input.domain s).1 now id (lockDomain host ledger input.domain s).2 =
          .ok result := by
  obtain ⟨input, checked, ok⟩ := bind_eq_ok.mp ok
  split at ok
  next missing => cases ok
  next request found =>
    obtain ⟨profile, ok⟩ := guard_eq_ok.mp ok
    obtain ⟨allocation, read, ok⟩ := bind_eq_ok.mp ok
    obtain ⟨same, ok⟩ := guard_eq_ok.mp ok
    obtain ⟨resources, ok⟩ := guard_eq_ok.mp ok
    exact ⟨input, request, checked, found,
      ⟨profile, ⟨allocation, read, not_not.mp same⟩, resources⟩, ok⟩

theorem BudgetLedger.reserveInTransaction_of_presented {request : RequestRow}
    (checked : ledger.input host value limit = .ok input)
    (found : s.requests.get input.requestId = some request)
    (presented : Presented host ledger input request (s.resourcesOf request)) :
    ledger.reserveInTransaction host value limit now id s =
      admitCommand host ledger input limit (resourceKeys host request.snapshot (s.resourcesOf request))
        (lockDomain host ledger input.domain s).1 now id (lockDomain host ledger input.domain s).2 := by
  obtain ⟨allocation, read, same⟩ := presented.allocation
  unfold BudgetLedger.reserveInTransaction
  rw [checked]
  simp only [bind, Except.bind, found]
  rw [if_neg presented.profile, read]
  change (if _ then _ else _) = _
  rw [if_neg (not_not.mpr same)]
  exact if_neg presented.resources

theorem BudgetLedger.reserveInTransaction_cases
    (ok : ledger.reserveInTransaction host value limit now id s = .ok (admission, t)) :
    ∃ input, ledger.input host value limit = .ok input ∧
      t.domains = (lockDomain host ledger input.domain s).2.domains ∧
      (t.ledger = s.ledger ∧ (∀ reservation, admission ≠ .accepted false reservation) ∨
        (∃ reservation, admission = .accepted false reservation) ∧
        ∃ keys, Admission host s ledger input limit keys now id ∧
          t.ledger = s.ledger ++ [newRow host input keys now id]) := by
  obtain ⟨input, request, checked, found, presented, ok⟩ := ledger.reserveInTransaction_eq_ok ok
  obtain ⟨-, -, -, tokens, cost, covered⟩ := ledger.input_eq_ok checked
  refine ⟨input, checked, ?_⟩
  rcases admitCommand_cases ok with ⟨rfl, old⟩ | ⟨new, frozen, admitted, fresh, unused, rfl⟩
  · exact ⟨rfl, .inl ⟨lockDomain_ledger, old⟩⟩
  · rw [lockDomain_ledger] at admitted fresh unused
    refine ⟨rfl, .inr ⟨new, _, ⟨frozen, admitted, fresh, unused, tokens, cost, covered,
      ledger.ceiling_of_input checked⟩, ?_⟩⟩
    dsimp only
    rw [lockDomain_ledger]

theorem BudgetLedger.reserveExecutionInTransaction_cases
    (ok : ledger.reserveExecutionInTransaction host value limit now id s = .ok (admission, t)) :
    ∃ input r, ledger.input host { value with operationId := "request:" ++ value.requestId } limit =
        .ok input ∧
      ledger.reserveInTransaction host input limit now id s = .ok (admission, r) ∧
      t.ledger = r.ledger ∧ t.domains = r.domains := by
  obtain ⟨input, checked, ok⟩ := bind_eq_ok.mp ok
  obtain ⟨⟨given, r⟩, reserved, ok⟩ := bind_eq_ok.mp ok
  dsimp only at ok
  split at ok
  · cases ok
    exact ⟨input, t, checked, reserved, rfl, rfl⟩
  · cases ok
  · split at ok
    · split at ok
      · cases ok
      · cases ok
        exact ⟨input, t, checked, reserved, rfl, rfl⟩
    · cases ok
      exact ⟨input, r, checked, reserved, rfl, rfl⟩

/-- Every known settlement uses at most the tokens its row reserved. -/
def BudgetOperation.Within (s : BudgetStore) : BudgetOperation → Prop
  | .settle id (some usage) => ∀ row ∈ s.ledger, row.id = id →
    usage.inputTokens + usage.outputTokens ≤ row.reservedTokens
  | _ => True

/-- What the operation writes to its row. -/
def BudgetOperation.Writes (host : BudgetHost) (row : LedgerRow) (set : LedgerRow → LedgerRow) :
    BudgetOperation → Prop
  | .markSent id => row.id = id ∧ markSentRow row = .ok set
  | .cancelUnsent id => row.id = id ∧ cancelReserved row = .ok set
  | .retainUnknown id => row.id = id ∧ Investigations.retainUnknown row = .ok set
  | .settle id usage => row.id = id ∧ (∀ value ∈ usage, value.valid) ∧ settleRow host usage row = .ok set
  | _ => False

/-- What an operation may do to the rows and to the domains, where rows move on by `R`. -/
inductive BudgetChange (host : BudgetHost) (R : LedgerRow → LedgerRow → Prop)
    (operation : BudgetOperation) (s t : BudgetStore) : Prop
  | kept (rows : t.ledger = s.ledger) (domains : t.domains = s.domains)
  | locked (ledger : BudgetLedger) (domain : String) (serves : operation.deployment = some ledger)
    (rows : t.ledger = s.ledger) (domains : t.domains = (lockDomain host ledger domain s).2.domains)
  | admitted (ledger : BudgetLedger) (input : BudgetReservationInput) (limit : Option Int)
    (keys : List String) (now : Instant) (id : String) (serves : operation.deployment = some ledger)
    (ceiling : operation.ceiling host = some (input.requestId, input.ceiling limit))
    (admission : Admission host s ledger input limit keys now id)
    (rows : t.ledger = s.ledger ++ [newRow host input keys now id])
    (domains : t.domains = (lockDomain host ledger input.domain s).2.domains)
  | moved (f : LedgerRow → LedgerRow)
    (moves : ∀ row ∈ s.ledger, R row (f row)) (rows : t.ledger = s.ledger.map f)
    (domains : t.domains = s.domains)

theorem mutate_cases {R : LedgerRow → LedgerRow → Prop} {operation : BudgetOperation}
    {reservation : BudgetReservation}
    {work : LedgerRow → Except BudgetLedgerError (LedgerRow → LedgerRow)}
    (ids : (s.ledger.map LedgerRow.id).Nodup) (stays : ∀ row ∈ s.ledger, R row row)
    (moves : ∀ row ∈ s.ledger, row.id = id → ∀ set, work row = .ok set → R row (set row))
    (ok : s.mutate id work = .ok (reservation, t)) : BudgetChange host R operation s t := by
  obtain ⟨-, ok⟩ := guard_eq_ok.mp ok
  split at ok
  next missing => cases ok
  next row found =>
    obtain ⟨-, ok⟩ := guard_eq_ok.mp ok
    obtain ⟨set, worked, ok⟩ := bind_eq_ok.mp ok
    have written : t = s.update id set := by
      dsimp only at ok
      split at ok
      · cases ok
      · obtain ⟨_, -, ok⟩ := bind_eq_ok.mp ok
        cases ok
        rfl
    subst written
    obtain ⟨mem, same⟩ := (Keyed.find?_eq_some_iff ids).mp found
    refine .moved _ (fun row' mem' => ?_) rfl rfl
    by_cases target : row'.id = id
    · obtain rfl := List.inj_on_of_nodup_map ids mem' mem (target.trans same.symm)
      rw [if_pos target]
      exact moves _ mem same set worked
    · rw [if_neg target]
      exact stays row' mem'

variable {R : LedgerRow → LedgerRow → Prop}

theorem reserve_change (ok : ledger.reserve host value now id s = .ok (admission, t)) :
    BudgetChange host R (.reserve ledger value now id) s t := by
  obtain ⟨copy, checked, ok⟩ := bind_eq_ok.mp ok
  obtain ⟨input, checked', domains, change⟩ := ledger.reserveInTransaction_cases ok
  rcases change with ⟨rows, -⟩ | ⟨-, keys, admission, rows⟩
  · exact .locked ledger _ rfl rows domains
  · refine .admitted ledger input _ keys now id rfl ?_ admission rows domains
    obtain ⟨⟨_, same, -⟩, -⟩ := ledger.input_eq_ok checked
    obtain ⟨⟨_, same', -⟩, -⟩ := ledger.input_eq_ok checked'
    rw [ledger.ceiling_again checked checked', same', same]
    rfl

theorem reserveExecution_change
    (ok : ledger.reserveExecution host value (limit.or ledger.executionTokenLimit) now id s =
      .ok (admission, t)) :
    BudgetChange host R (.reserveExecution ledger value limit now id) s t := by
  obtain ⟨copy, checked, ok⟩ := bind_eq_ok.mp ok
  obtain ⟨again, r, checked', ok, rows', domains'⟩ := ledger.reserveExecutionInTransaction_cases ok
  obtain ⟨input, checked'', domains, change⟩ := ledger.reserveInTransaction_cases ok
  rcases change with ⟨rows, -⟩ | ⟨-, keys, admission, rows⟩
  · exact .locked ledger _ rfl (rows'.trans rows) (domains'.trans domains)
  · refine .admitted ledger input _ keys now id rfl ?_ admission (rows'.trans rows)
      (domains'.trans domains)
    obtain ⟨⟨_, rfl, -⟩, -⟩ := ledger.input_eq_ok checked
    obtain ⟨⟨_, same, -⟩, -⟩ := ledger.input_eq_ok checked'
    obtain ⟨⟨_, same', -⟩, -⟩ := ledger.input_eq_ok checked''
    have ceiling := ledger.ceiling_again checked checked'
    rw [ledger.ceiling_again checked' checked'', ← ledger.ceiling_input checked', ceiling, same', same]
    rfl

theorem reuseExecution_change {requestId : String} {mode : Lane} {profile : Json}
    {reservation : BudgetReservation}
    (ok : ledger.reuseExecutionInTransaction host requestId domain mode profile
      (limit.or ledger.executionTokenLimit) now id s = .ok (reservation, t)) :
    BudgetChange host R (.reuseExecution ledger requestId domain mode profile limit now id) s t := by
  obtain ⟨-, ok⟩ := guard_eq_ok.mp ok
  split at ok
  next missing => cases ok
  next receipt found =>
    obtain ⟨-, ok⟩ := guard_eq_ok.mp ok
    obtain ⟨-, ok⟩ := guard_eq_ok.mp ok
    split at ok
    next missing => cases ok
    next row found =>
      obtain ⟨-, ok⟩ := guard_eq_ok.mp ok
      obtain ⟨⟨admission, r⟩, reserved, ok⟩ := bind_eq_ok.mp ok
      obtain ⟨_, r', -, inner, rows', domains'⟩ := ledger.reserveExecutionInTransaction_cases reserved
      obtain ⟨input, -, domains, change⟩ := ledger.reserveInTransaction_cases inner
      dsimp only at ok
      split at ok
      next reused =>
        split at ok
        · cases ok
        · cases ok
          rcases change with ⟨rows, -⟩ | ⟨⟨_, created⟩, -⟩
          · exact .locked ledger _ rfl (rows'.trans rows) (domains'.trans domains)
          · cases created
      · cases ok

theorem BudgetOperation.after_cases (operation : BudgetOperation)
    (ids : (s.ledger.map LedgerRow.id).Nodup) (stays : ∀ row ∈ s.ledger, R row row)
    (moves : ∀ row ∈ s.ledger, ∀ set, operation.Writes host row set → R row (set row)) :
    BudgetChange host R operation s (operation.after host s) := by
  unfold BudgetOperation.after
  split
  next t ok =>
    cases operation with
    | reserve ledger value now id =>
      obtain ⟨_, reserved, rfl⟩ := Except.map_eq_ok.mp ok
      exact reserve_change reserved
    | reserveExecution ledger value limit now id =>
      obtain ⟨_, reserved, rfl⟩ := Except.map_eq_ok.mp ok
      exact reserveExecution_change reserved
    | reuseExecution ledger requestId domain mode profile limit now id =>
      obtain ⟨_, reused, rfl⟩ := Except.map_eq_ok.mp ok
      exact reuseExecution_change reused
    | prepareDomain ledger domain =>
      change ledger.prepareDomainInTransaction host domain s = .ok t at ok
      unfold BudgetLedger.prepareDomainInTransaction at ok
      dsimp only at ok
      split at ok
      · cases ok
      · split at ok
        · cases ok
        · cases ok
          exact .locked ledger domain rfl lockDomain_ledger rfl
    | markSent id =>
      obtain ⟨_, marked, rfl⟩ := Except.map_eq_ok.mp ok
      obtain ⟨_, mutated, done⟩ := bind_eq_ok.mp marked
      cases done
      exact mutate_cases ids stays (fun row mem own set ok => moves row mem set ⟨own, ok⟩) mutated
    | cancelUnsent id =>
      obtain ⟨_, mutated, rfl⟩ := Except.map_eq_ok.mp ok
      exact mutate_cases ids stays (fun row mem own set ok => moves row mem set ⟨own, ok⟩) mutated
    | retainUnknown id =>
      obtain ⟨_, mutated, rfl⟩ := Except.map_eq_ok.mp ok
      exact mutate_cases ids stays (fun row mem own set ok => moves row mem set ⟨own, ok⟩) mutated
    | settle id usage =>
      obtain ⟨_, settled, rfl⟩ := Except.map_eq_ok.mp ok
      unfold Investigations.settle at settled
      split at settled
      next valid =>
        exact mutate_cases ids stays (fun row mem own set ok => moves row mem set ⟨own, valid, ok⟩)
          settled
      · cases settled
    | others requests resources =>
      cases ok
      exact .kept rfl rfl
  next failed => exact .kept rfl rfl

theorem BudgetOperation.Writes.spends {operation : BudgetOperation}
    (writes : operation.Writes host row set) (mem : row ∈ s.ledger) (sound : row.Sound)
    (within : operation.Within s) : row.Spends (set row) ∧ (set row).Sound := by
  cases operation with
  | markSent id => exact markSentRow_spends sound writes.2
  | cancelUnsent id => exact cancelReserved_spends sound writes.2
  | retainUnknown id => exact retainUnknown_spends sound writes.2
  | settle id usage =>
    obtain ⟨own, valid, ok⟩ := writes
    refine settleRow_spends sound valid (fun value given => ?_) ok
    cases given
    exact sound.tokens ▸ within row mem own
  | reserve | reserveExecution | reuseExecution | prepareDomain | others => exact writes.elim

end Slide.Investigations
