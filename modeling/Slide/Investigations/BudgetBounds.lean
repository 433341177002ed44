import Slide.Investigations.BudgetSteps
import Slide.Library.Quota
import Slide.Library.Run

/-!
# The limits of the budget ledger

Each limit of a frozen policy holds in every state that the operations reach, whatever settles, stays
unknown or crosses midnight between two admissions.

* `WithinLimits.spend`: a row that moves on keeps every limit.
* `WithinLimits.admitted`: so does a row that passed the checks.
* `budget_never_oversells`: the limits over runs.
-/

namespace Slide.Investigations

open Display Transition List

variable {host : BudgetHost} {ledger : BudgetLedger} {s t : BudgetStore} {row : LedgerRow}
  {input : BudgetReservationInput} {limit : Option Int} {now : Instant} {id domain : String}
  {keys : List String} {policy : BudgetPolicy} {rows : List LedgerRow} {f : LedgerRow → LedgerRow}

/-- The row is reserved, sent or unknown in the domain. -/
def LedgerRow.runsIn (domain : String) (row : LedgerRow) : Bool :=
  row.domain = domain ∧ row.state.active

/-- The row of the domain was admitted on the day. -/
def LedgerRow.datedIn (domain : String) (day : Nat) (row : LedgerRow) : Bool :=
  row.domain = domain ∧ row.budgetDay = day

/-- The limits of a policy over the rows of its domain. -/
structure WithinLimits (policy : BudgetPolicy) (domain : String) (rows : List LedgerRow) : Prop where
  concurrent : ((rows.filter fun row => row.runsIn domain).length : ℤ) ≤ policy.maxConcurrent
  automatic : ((rows.filter fun row => row.runsIn domain ∧ row.mode = .automatic).length : ℤ) ≤
    policy.maxConcurrent - policy.manualReserved
  resource : ∀ key, ((rows.filter fun row => row.runsIn domain ∧ key ∈ row.resourceKeys).length : ℤ) ≤
    policy.maxPerResourceConcurrent
  tokens : ∀ day, total LedgerRow.chargedTokens (rows.filter fun row => row.datedIn domain day) ≤
    policy.maxTotalTokensPerDay
  automaticTokens : ∀ day, total LedgerRow.chargedTokens
      (rows.filter fun row => row.datedIn domain day ∧ row.mode = .automatic) ≤
    policy.maxAutomaticTokensPerDay
  cost : ∀ day, total LedgerRow.chargedCostMicros (rows.filter fun row => row.datedIn domain day) ≤
    policy.maxCostMicrosPerDay
  hourly : ∀ hour, (((rows.filter fun row => row.domain = domain ∧ row.mode = .automatic ∧
      row.budgetHour = hour).map LedgerRow.requestId).toFinset.card : ℤ) ≤
    policy.maxAutomaticRequestsPerHour

theorem total_filter {column : LedgerRow → Nat} {p : LedgerRow → Bool} :
    total column (rows.filter p) = Quota.usage p column rows := rfl

theorem WithinLimits.of_absent (valid : policy.valid) (absent : ∀ row ∈ rows, row.domain ≠ domain) :
    WithinLimits policy domain rows := by
  have unused (p : LedgerRow → Bool) (inside : ∀ row, p row → row.domain = domain) :
      rows.filter p = [] :=
    filter_eq_nil_iff.mpr fun row mem covered => absent row mem (inside row covered)
  have runs {row : LedgerRow} (runs : row.runsIn domain) : row.domain = domain :=
    (of_decide_eq_true runs).1
  have dated {row : LedgerRow} {day : Nat} (dated : row.datedIn domain day) : row.domain = domain :=
    (of_decide_eq_true dated).1
  constructor
  · rw [unused _ fun _ => runs]
    exact (by decide : (0 : ℤ) ≤ 1).trans valid.maxConcurrent.1
  · rw [unused _ fun _ covered => runs (of_decide_eq_true covered).1]
    exact sub_nonneg.mpr valid.manual_le
  · intro key
    rw [unused _ fun _ covered => runs (of_decide_eq_true covered).1]
    exact (by decide : (0 : ℤ) ≤ 1).trans valid.maxPerResourceConcurrent.1
  · intro day
    rw [unused _ fun _ => dated]
    exact (by decide : (0 : ℤ) ≤ 1).trans valid.maxTotalTokensPerDay.1
  · intro day
    rw [unused _ fun _ covered => dated (of_decide_eq_true covered).1]
    exact (by decide : (0 : ℤ) ≤ 1).trans valid.maxAutomaticTokensPerDay.1
  · intro day
    rw [unused _ fun _ => dated]
    exact (by decide : (0 : ℤ) ≤ 1).trans valid.maxCostMicrosPerDay.1
  · intro hour
    rw [unused _ fun _ covered => (of_decide_eq_true covered).1]
    exact (by decide : (0 : ℤ) ≤ 1).trans valid.maxAutomaticRequestsPerHour.1

theorem LedgerRow.Spends.runsIn {new : LedgerRow} (spends : row.Spends new)
    (runs : new.runsIn domain) : row.runsIn domain := by
  obtain ⟨same, active⟩ := of_decide_eq_true runs
  exact decide_eq_true ⟨spends.domain ▸ same, spends.active active⟩

theorem LedgerRow.Spends.datedIn {new : LedgerRow} {day : Nat} (spends : row.Spends new)
    (dated : new.datedIn domain day) : row.datedIn domain day := by
  obtain ⟨same, day⟩ := of_decide_eq_true dated
  exact decide_eq_true ⟨spends.domain ▸ same, spends.day ▸ day⟩

theorem WithinLimits.spend (within : WithinLimits policy domain rows)
    (spends : ∀ row ∈ rows, row.Spends (f row)) : WithinLimits policy domain (rows.map f) := by
  have count (p : LedgerRow → Bool) (covered : ∀ row ∈ rows, p (f row) → p row) :
      (((rows.map f).filter p).length : ℤ) ≤ (rows.filter p).length := by
    rw [Quota.length_filter, Quota.length_filter]
    exact Int.ofNat_le.mpr (Quota.usage_map_le fun row mem inside => ⟨covered row mem inside, le_rfl⟩)
  have charge (column : LedgerRow → Nat) (p : LedgerRow → Bool)
      (covered : ∀ row ∈ rows, p (f row) → p row)
      (lower : ∀ row ∈ rows, column (f row) ≤ column row) :
      total column ((rows.map f).filter p) ≤ total column (rows.filter p) :=
    Int.ofNat_le.mpr (Quota.usage_map_le fun row mem inside =>
      ⟨covered row mem inside, lower row mem⟩)
  constructor
  · refine (count _ fun row mem => (spends row mem).runsIn).trans within.concurrent
  · refine (count _ fun row mem inside => ?_).trans within.automatic
    obtain ⟨runs, mode⟩ := of_decide_eq_true inside
    exact decide_eq_true ⟨(spends row mem).runsIn runs, (spends row mem).mode ▸ mode⟩
  · intro key
    refine (count _ fun row mem inside => ?_).trans (within.resource key)
    obtain ⟨runs, uses⟩ := of_decide_eq_true inside
    exact decide_eq_true ⟨(spends row mem).runsIn runs, (spends row mem).resourceKeys ▸ uses⟩
  · intro day
    exact (charge _ _ (fun row mem => (spends row mem).datedIn)
      fun row mem => (spends row mem).tokens).trans (within.tokens day)
  · intro day
    refine (charge _ _ (fun row mem inside => ?_) fun row mem => (spends row mem).tokens).trans
      (within.automaticTokens day)
    obtain ⟨dated, mode⟩ := of_decide_eq_true inside
    exact decide_eq_true ⟨(spends row mem).datedIn dated, (spends row mem).mode ▸ mode⟩
  · intro day
    exact (charge _ _ (fun row mem => (spends row mem).datedIn)
      fun row mem => (spends row mem).cost).trans (within.cost day)
  · intro hour
    refine (Int.ofNat_le.mpr (Quota.card_keys_map_le fun row mem inside => ?_)).trans
      (within.hourly hour)
    obtain ⟨same, mode, dated⟩ := of_decide_eq_true inside
    exact ⟨decide_eq_true ⟨(spends row mem).domain ▸ same, (spends row mem).mode ▸ mode,
      (spends row mem).hour ▸ dated⟩, (spends row mem).requestId⟩

/-! ## A row that passed the checks -/

/-- The rows that the admission reads. -/
def inWindow (domain : String) (now : Instant) (row : LedgerRow) : Bool :=
  row.domain = domain ∧ (row.state.active ∨ row.costStatus = .unknown ∨ row.budgetDay = now.day)

/-- The rows whose requests the frequency check counts. -/
def countsHourly (domain : String) (now : Instant) (row : LedgerRow) : Bool :=
  decide (row.mode = .automatic ∧ row.budgetHour = now.hour) && inWindow domain now row

/-- What holds of the rows when no check refuses. -/
structure Unsuppressed (policy : BudgetPolicy) (input : BudgetReservationInput) (limit : Option Int)
    (keys : List String) (now : Instant) (rows : List LedgerRow) : Prop where
  idle : ∀ row ∈ rows, row.requestId = input.requestId → ¬ row.state.active
  request : ∀ ceiling ∈ input.ceiling limit,
    total LedgerRow.chargedTokens (rows.filter fun row => row.requestId = input.requestId) +
      input.reserveTokens ≤ ceiling
  concurrent : (Quota.usage (fun row => row.runsIn input.domain) (fun _ => 1) rows : ℤ) <
    policy.maxConcurrent
  automatic : input.mode = .automatic →
    (Quota.usage (fun row => row.runsIn input.domain ∧ row.mode = .automatic) (fun _ => 1) rows : ℤ) <
      policy.maxConcurrent - policy.manualReserved
  resource : ∀ key ∈ keys,
    (Quota.usage (fun row => row.runsIn input.domain ∧ key ∈ row.resourceKeys) (fun _ => 1) rows : ℤ) <
      policy.maxPerResourceConcurrent
  hourly : input.mode = .automatic →
    input.requestId ∈ Quota.keys (countsHourly input.domain now) LedgerRow.requestId rows ∨
      ((Quota.keys (countsHourly input.domain now) LedgerRow.requestId rows).card : ℤ) <
        policy.maxAutomaticRequestsPerHour
  automaticTokens : input.mode = .automatic →
    (Quota.usage (fun row => row.datedIn input.domain now.day ∧ row.mode = .automatic)
      LedgerRow.chargedTokens rows : ℤ) + input.reserveTokens ≤ policy.maxAutomaticTokensPerDay
  tokens : (Quota.usage (fun row => row.datedIn input.domain now.day) LedgerRow.chargedTokens rows : ℤ) +
    input.reserveTokens ≤ policy.maxTotalTokensPerDay
  cost : (Quota.usage (fun row => row.datedIn input.domain now.day) LedgerRow.chargedCostMicros rows : ℤ) +
    input.reserveCostMicros ≤ policy.maxCostMicrosPerDay

theorem some_else_eq_none {c : Prop} [Decidable c] {reason : BudgetSuppression}
    {rest : Option BudgetSuppression} (none : (if c then some reason else rest) = none) :
    ¬ c ∧ rest = Option.none := by
  by_cases refused : c
  · rw [if_pos refused] at none
    cases none
  · rw [if_neg refused] at none
    exact ⟨refused, none⟩

theorem unsuppressed (checked : suppression policy input limit keys now rows = none) :
    Unsuppressed policy input limit keys now rows := by
  unfold suppression at checked
  dsimp only at checked
  obtain ⟨idle, checked⟩ := some_else_eq_none checked
  obtain ⟨-, checked⟩ := some_else_eq_none checked
  obtain ⟨request, checked⟩ := some_else_eq_none checked
  obtain ⟨concurrent, checked⟩ := some_else_eq_none checked
  obtain ⟨automatic, checked⟩ := some_else_eq_none checked
  obtain ⟨resource, checked⟩ := some_else_eq_none checked
  obtain ⟨hourly, checked⟩ := some_else_eq_none checked
  obtain ⟨automaticTokens, checked⟩ := some_else_eq_none checked
  obtain ⟨tokens, checked⟩ := some_else_eq_none checked
  obtain ⟨cost, -⟩ := some_else_eq_none checked
  -- each check reads at least the rows that its limit covers
  have wider {p q : LedgerRow → Bool} {column : LedgerRow → Nat} {allowance reserve : ℤ}
      (covered : ∀ row, p row → q row)
      (passed : total column (rows.filter q) + reserve ≤ allowance) :
      (Quota.usage p column rows : ℤ) + reserve ≤ allowance := by
    have le : Quota.usage p column rows ≤ Quota.usage q column rows :=
      Quota.usage_mono fun row _ => covered row
    have same : total column (rows.filter q) = Quota.usage q column rows := rfl
    omega
  have fewer {p q : LedgerRow → Bool} {allowance : ℤ} (covered : ∀ row, p row → q row)
      (passed : ¬ allowance ≤ (rows.filter q).length) :
      (Quota.usage p (fun _ => 1) rows : ℤ) < allowance := by
    have le : Quota.usage p (fun _ => 1) rows ≤ Quota.usage q (fun _ => 1) rows :=
      Quota.usage_mono fun row _ => covered row
    rw [← Quota.length_filter (p := q)] at le
    omega
  simp only [filter_filter] at concurrent automatic hourly automaticTokens tokens cost
  constructor
  · intro row mem same active
    exact idle (any_eq_true.mpr ⟨row, mem_filter.mpr ⟨mem, decide_eq_true same⟩, active⟩)
  · intro ceiling given
    by_contra above
    refine request (Option.any_eq_true _ _ |>.mpr ⟨ceiling, given, decide_eq_true ?_⟩)
    omega
  · exact fewer (fun row covered => by grind [LedgerRow.runsIn]) concurrent
  · intro mode
    exact fewer (fun row covered => by grind [LedgerRow.runsIn]) fun full => automatic ⟨mode, full⟩
  · intro key mem
    exact fewer (fun row covered => by grind [LedgerRow.runsIn]) fun full =>
      resource (any_eq_true.mpr ⟨key, mem, decide_eq_true full⟩)
  · intro mode
    by_contra neither
    rw [not_or, not_lt] at neither
    exact hourly ⟨mode, neither.1, neither.2⟩
  · intro mode
    exact wider (fun row covered => by grind [LedgerRow.datedIn])
      (not_lt.mp fun above => automaticTokens ⟨mode, above⟩)
  · exact wider (fun row covered => by grind [LedgerRow.datedIn]) (not_lt.mp tokens)
  · exact wider (fun row covered => by grind [LedgerRow.datedIn]) (not_lt.mp cost)

theorem Instant.day_eq : now.day = now.hour / 24 := by
  unfold Instant.day Instant.hour
  rw [Nat.div_div_eq_div_mul]

theorem WithinLimits.snoc_of_ne (within : WithinLimits policy domain rows) (ne : row.domain ≠ domain) :
    WithinLimits policy domain (rows ++ [row]) := by
  have unchanged (p : LedgerRow → Bool) (inside : p row → row.domain = domain) :
      (rows ++ [row]).filter p = rows.filter p := by
    have outside : p row = false := Bool.eq_false_iff.mpr fun covered => ne (inside covered)
    rw [filter_append, filter_cons_of_neg (Bool.eq_false_iff.mp outside), filter_nil,
      append_nil]
  have runs (runs : row.runsIn domain) : row.domain = domain := (of_decide_eq_true runs).1
  have dated {day : Nat} (dated : row.datedIn domain day) : row.domain = domain :=
    (of_decide_eq_true dated).1
  constructor
  · rw [unchanged _ runs]
    exact within.concurrent
  · rw [unchanged _ fun covered => runs (of_decide_eq_true covered).1]
    exact within.automatic
  · intro key
    rw [unchanged _ fun covered => runs (of_decide_eq_true covered).1]
    exact within.resource key
  · intro day
    rw [unchanged _ dated]
    exact within.tokens day
  · intro day
    rw [unchanged _ fun covered => dated (of_decide_eq_true covered).1]
    exact within.automaticTokens day
  · intro day
    rw [unchanged _ dated]
    exact within.cost day
  · intro hour
    rw [unchanged _ fun covered => (of_decide_eq_true covered).1]
    exact within.hourly hour

theorem WithinLimits.admitted (within : WithinLimits policy input.domain rows)
    (passed : Unsuppressed policy input limit keys now rows) (sound : ∀ row ∈ rows, row.Sound)
    (tokens : 1 ≤ input.reserveTokens) (cost : 1 ≤ input.reserveCostMicros) :
    WithinLimits policy input.domain (rows ++ [newRow host input keys now id]) := by
  -- the new row is either outside a quota or was counted by its check
  have count {p : LedgerRow → Bool} {allowance : ℤ} (kept : ((rows.filter p).length : ℤ) ≤ allowance)
      (checked : p (newRow host input keys now id) →
        (Quota.usage p (fun _ => 1) rows : ℤ) < allowance) :
      (((rows ++ [newRow host input keys now id]).filter p).length : ℤ) ≤ allowance := by
    rw [Quota.length_filter, Quota.usage_snoc]
    rw [Quota.length_filter] at kept
    split
    next covered =>
      have := checked covered
      omega
    next outside => omega
  have charge {p : LedgerRow → Bool} {column : LedgerRow → Nat} {allowance : ℤ}
      (kept : total column (rows.filter p) ≤ allowance)
      (checked : p (newRow host input keys now id) →
        (Quota.usage p column rows : ℤ) + column (newRow host input keys now id) ≤ allowance) :
      total column ((rows ++ [newRow host input keys now id]).filter p) ≤ allowance := by
    change (Quota.usage p column _ : ℤ) ≤ allowance
    change (Quota.usage p column rows : ℤ) ≤ allowance at kept
    rw [Quota.usage_snoc]
    split
    next covered =>
      have := checked covered
      omega
    next outside => omega
  have charged : ((newRow host input keys now id).chargedTokens : ℤ) = input.reserveTokens :=
    Int.toNat_of_nonneg (by omega)
  have costs : ((newRow host input keys now id).chargedCostMicros : ℤ) = input.reserveCostMicros :=
    Int.toNat_of_nonneg (by omega)
  constructor
  · exact count within.concurrent fun _ => passed.concurrent
  · exact count within.automatic fun covered => passed.automatic (of_decide_eq_true covered).2
  · intro key
    exact count (within.resource key) fun covered => passed.resource key (of_decide_eq_true covered).2
  · intro day
    refine charge (within.tokens day) fun dated => ?_
    obtain ⟨-, rfl⟩ := of_decide_eq_true dated
    rw [charged]
    exact passed.tokens
  · intro day
    refine charge (within.automaticTokens day) fun covered => ?_
    obtain ⟨dated, mode⟩ := of_decide_eq_true covered
    obtain ⟨-, rfl⟩ := of_decide_eq_true dated
    rw [charged]
    exact passed.automaticTokens mode
  · intro day
    refine charge (within.cost day) fun dated => ?_
    obtain ⟨-, rfl⟩ := of_decide_eq_true dated
    rw [costs]
    exact passed.cost
  · intro hour
    refine Quota.card_keys_snoc_le (within.hourly hour) fun covered => ?_
    obtain ⟨-, mode, rfl⟩ := of_decide_eq_true covered
    -- a row of this hour is of this day, so the admission has read it
    have read : ∀ row ∈ rows, countsHourly input.domain now row =
        decide (row.domain = input.domain ∧ row.mode = .automatic ∧ row.budgetHour = now.hour) := by
      intro row mem
      have day := (sound row mem).day
      have today : now.day = now.hour / 24 := Instant.day_eq
      unfold countsHourly inWindow
      grind
    have counted := passed.hourly mode
    rw [Quota.keys_congr read] at counted
    exact counted

/-! ## Runs -/

/-- One operation of a deployment that runs one of the policies, with settlements within their
reservations.  The readings of the clock are free; no limit needs them to rise. -/
structure BudgetStep (host : BudgetHost) (policies : Set BudgetPolicy) (s : BudgetStore)
    (operation : BudgetOperation) (t : BudgetStore) : Prop where
  served : ∀ ledger, operation.deployment = some ledger → ledger.policy ∈ policies
  within : operation.Within s
  committed : t = operation.after host s

/-- What holds of the rows and the domains between the operations. -/
structure BudgetStore.Sound (host : BudgetHost) (policies : Set BudgetPolicy) (s : BudgetStore) :
    Prop where
  ids : (s.ledger.map LedgerRow.id).Nodup
  rows : ∀ row ∈ s.ledger, row.Sound
  placed : ∀ row ∈ s.ledger, ∃ frozen, s.domains.get row.domain = some frozen
  frozen : ∀ domain frozen, s.domains.get domain = some frozen → frozen.policy.valid ∧
    frozen.policy ∈ policies ∧ frozen.policyHash = host.hash frozen.policy.toJson
  single : ∀ requestId, (s.ledger.filter fun row =>
    row.state.active ∧ row.requestId = requestId).length ≤ 1
  limits : ∀ domain frozen, s.domains.get domain = some frozen →
    WithinLimits frozen.policy domain s.ledger

variable {policies : Set BudgetPolicy} {operation : BudgetOperation} {operations : List BudgetOperation}
  {frozen : BudgetDomain}

theorem lockDomain_get {other : String} :
    (lockDomain host ledger domain s).2.domains.get other =
      if other = domain then some (lockDomain host ledger domain s).1 else s.domains.get other := by
  unfold lockDomain
  split
  next row found =>
    split
    next same => rw [same, found]
    next differ => rfl
  next missing => exact Table.get_put

theorem lockDomain_fst :
    (lockDomain host ledger domain s).1 = (s.domains.get domain).getD
      ⟨host.hash ledger.policy.toJson, ledger.policy⟩ := by
  unfold lockDomain
  split
  next row found => rw [found, Option.getD_some]
  next missing => rw [missing, Option.getD_none]

theorem BudgetStore.Sound.of_eq (sound : s.Sound host policies) (rows : t.ledger = s.ledger)
    (domains : t.domains = s.domains) : t.Sound host policies :=
  ⟨by rw [rows]; exact sound.ids, by rw [rows]; exact sound.rows,
    by rw [rows, domains]; exact sound.placed, by rw [domains]; exact sound.frozen,
    by rw [rows]; exact sound.single, by rw [rows, domains]; exact sound.limits⟩

theorem BudgetStore.Sound.lock (sound : s.Sound host policies) (served : ledger.policy ∈ policies)
    (rows : t.ledger = s.ledger)
    (domains : t.domains = (lockDomain host ledger domain s).2.domains) : t.Sound host policies := by
  have read (other : String) : t.domains.get other = s.domains.get other ∨
      other = domain ∧ s.domains.get domain = none ∧
        t.domains.get other = some ⟨host.hash ledger.policy.toJson, ledger.policy⟩ := by
    rw [domains, lockDomain_get, lockDomain_fst]
    split
    next same =>
      subst same
      cases found : s.domains.get other with
      | none => exact .inr ⟨rfl, rfl, rfl⟩
      | some frozen => exact .inl rfl
    next differ => exact .inl rfl
  refine ⟨rows ▸ sound.ids, rows ▸ sound.rows, fun row mem => ?_, fun other frozen found => ?_,
    rows ▸ sound.single, fun other frozen found => ?_⟩
  · rw [rows] at mem
    obtain ⟨frozen, found⟩ := sound.placed row mem
    rcases read row.domain with same | ⟨-, -, new⟩
    · exact ⟨frozen, same.trans found⟩
    · exact ⟨_, new⟩
  · rcases read other with same | ⟨-, -, new⟩
    · exact sound.frozen other frozen (same ▸ found)
    · obtain rfl := some.inj (new.symm.trans found)
      exact ⟨ledger.policySnapshot, served, rfl⟩
  · rw [rows]
    rcases read other with same | ⟨rfl, missing, new⟩
    · exact sound.limits other frozen (same ▸ found)
    · obtain rfl := some.inj (new.symm.trans found)
      refine .of_absent ledger.policySnapshot fun row mem inside => ?_
      obtain ⟨old, placed⟩ := sound.placed row mem
      rw [inside, missing] at placed
      cases placed

theorem BudgetStore.Sound.spend (sound : s.Sound host policies)
    (spends : ∀ row ∈ s.ledger, row.Spends (f row) ∧ (f row).Sound) (rows : t.ledger = s.ledger.map f)
    (domains : t.domains = s.domains) : t.Sound host policies := by
  have ids : t.ledger.map LedgerRow.id = s.ledger.map LedgerRow.id := by
    rw [rows, map_map]
    exact map_congr_left fun row mem => (spends row mem).1.id
  refine ⟨ids ▸ sound.ids, fun row mem => ?_, fun row mem => ?_, domains ▸ sound.frozen,
    fun requestId => ?_, fun domain frozen found => ?_⟩
  · rw [rows] at mem
    obtain ⟨old, before, rfl⟩ := mem_map.mp mem
    exact (spends old before).2
  · rw [rows] at mem
    obtain ⟨old, before, rfl⟩ := mem_map.mp mem
    rw [domains, (spends old before).1.domain]
    exact sound.placed old before
  · refine le_trans ?_ (sound.single requestId)
    rw [rows, Quota.length_filter, Quota.length_filter]
    refine Quota.usage_map_le fun row mem covered => ⟨?_, le_rfl⟩
    obtain ⟨active, same⟩ := of_decide_eq_true covered
    exact decide_eq_true ⟨(spends row mem).1.active active, (spends row mem).1.requestId ▸ same⟩
  · rw [rows]
    exact (sound.limits domain frozen (domains ▸ found)).spend fun row mem => (spends row mem).1

theorem BudgetStore.Sound.admitted (sound : s.Sound host policies)
    (collisionFree : ∀ p ∈ policies, ∀ q ∈ policies, host.hash p.toJson = host.hash q.toJson → p = q)
    (served : ledger.policy ∈ policies)
    (admission : Admission host s ledger input limit keys now id)
    (rows : t.ledger = s.ledger ++ [newRow host input keys now id])
    (domains : t.domains = (lockDomain host ledger input.domain s).2.domains) :
    t.Sound host policies := by
  have locked : BudgetStore.Sound host policies { t with ledger := s.ledger } :=
    sound.lock served rfl domains
  have passed := unsuppressed admission.checked
  have frozen : t.domains.get input.domain = some (lockDomain host ledger input.domain s).1 := by
    rw [domains, lockDomain_get, if_pos rfl]
  obtain ⟨-, known, hashed⟩ := locked.frozen _ _ frozen
  have own : (lockDomain host ledger input.domain s).1.policy = ledger.policy :=
    collisionFree _ known _ served (hashed.symm.trans admission.frozen)
  have new : (newRow host input keys now id).Sound :=
    ⟨admission.covered, Int.toNat_of_nonneg (by have := admission.tokens.1; omega),
      Int.toNat_of_nonneg (by have := admission.cost.1; omega), fun _ => ⟨rfl, rfl⟩, Instant.day_eq⟩
  refine ⟨?_, fun row mem => ?_, fun row mem => ?_, locked.frozen, fun requestId => ?_,
    fun domain policy found => ?_⟩
  · rw [rows, map_append, map_singleton]
    exact nodup_append'.mpr ⟨sound.ids, nodup_singleton _, by
      simpa [newRow] using admission.fresh⟩
  · rw [rows] at mem
    rcases mem_append.mp mem with old | last
    · exact sound.rows row old
    · rw [mem_singleton.mp last]
      exact new
  · rw [rows] at mem
    rcases mem_append.mp mem with old | last
    · exact locked.placed row old
    · rw [mem_singleton.mp last]
      exact ⟨_, frozen⟩
  · rw [rows, Quota.length_filter, Quota.usage_snoc, ← Quota.length_filter]
    split
    next covered =>
      -- the request was idle
      obtain ⟨-, rfl⟩ := of_decide_eq_true covered
      rw [Quota.length_filter, Quota.usage_eq_zero]
      intro row mem running
      obtain ⟨active, same⟩ := of_decide_eq_true running
      exact passed.idle row mem same active
    next outside => exact sound.single requestId
  · rw [rows]
    have within := locked.limits domain policy found
    by_cases same : input.domain = domain
    · subst same
      obtain rfl := some.inj (frozen.symm.trans found)
      rw [own] at within ⊢
      exact within.admitted passed sound.rows admission.tokens.1 admission.cost.1
    · exact within.snoc_of_ne same

theorem BudgetStore.Sound.after_cases (sound : s.Sound host policies) (within : operation.Within s) :
    BudgetChange host (fun old new => old.Spends new ∧ new.Sound) operation s
      (operation.after host s) :=
  operation.after_cases sound.ids (fun row mem => ⟨.refl row, sound.rows row mem⟩)
    fun row mem _ writes => writes.spends mem (sound.rows row mem) within

theorem BudgetStore.Sound.step (sound : s.Sound host policies)
    (collisionFree : ∀ p ∈ policies, ∀ q ∈ policies, host.hash p.toJson = host.hash q.toJson → p = q)
    (step : BudgetStep host policies s operation t) : t.Sound host policies := by
  obtain ⟨served, within, rfl⟩ := step
  rcases sound.after_cases within with ⟨rows, domains⟩ |
    ⟨ledger, domain, serves, rows, domains⟩ |
    ⟨ledger, input, limit, keys, now, id, serves, -, admission, rows, domains⟩ |
    ⟨f, spends, rows, domains⟩
  · exact sound.of_eq rows domains
  · exact sound.lock (served ledger serves) rows domains
  · exact sound.admitted collisionFree (served ledger serves) admission rows domains
  · exact sound.spend spends rows domains

theorem BudgetStep.request_le {requestId : String} {ceiling : ℤ} (sound : s.Sound host policies)
    (step : BudgetStep host policies s operation t)
    (below : total LedgerRow.chargedTokens (s.ledger.filter fun row => row.requestId = requestId) ≤ ceiling)
    (ceilings : ∀ own, operation.ceiling host = some (requestId, some own) → own ≤ ceiling) :
    total LedgerRow.chargedTokens (t.ledger.filter fun row => row.requestId = requestId) ≤ ceiling := by
  obtain ⟨served, within, rfl⟩ := step
  rw [total_filter] at below ⊢
  rcases sound.after_cases within with ⟨rows, -⟩ | ⟨_, _, -, rows, -⟩ |
    ⟨ledger, input, limit, keys, now, id, -, named, admission, rows, -⟩ | ⟨f, spends, rows, -⟩
  · rw [rows]
    exact below
  · rw [rows]
    exact below
  · rw [rows, Quota.usage_snoc]
    split
    next covered =>
      have same : input.requestId = requestId := of_decide_eq_true covered
      subst same
      obtain ⟨own, found⟩ := admission.ceiling
      have checked := (unsuppressed admission.checked).request own found
      have charged : ((newRow host input keys now id).chargedTokens : ℤ) = input.reserveTokens :=
        Int.toNat_of_nonneg (by have := admission.tokens.1; omega)
      have le := ceilings own (by rw [named, found])
      rw [total_filter] at checked
      omega
    next outside => exact below
  · rw [rows]
    refine le_trans (Int.ofNat_le.mpr (Quota.usage_map_le fun row mem covered => ⟨?_, ?_⟩)) below
    · exact decide_eq_true ((spends row mem).1.requestId ▸ of_decide_eq_true covered)
    · exact (spends row mem).1.tokens

/-- In every run from an empty ledger the rows of a domain keep the limits of its frozen policy, a
request runs at most once, and the charges of a request stay below the ceilings of its admissions.
The digests of the policies in use are told apart. -/
theorem budget_never_oversells {start : BudgetStore}
    (collisionFree : ∀ p ∈ policies, ∀ q ∈ policies, host.hash p.toJson = host.hash q.toJson → p = q)
    (noRows : start.ledger = []) (noDomains : start.domains = Table.empty)
    (run : Run (BudgetStep host policies) start operations s) :
    (∀ domain frozen, s.domains.get domain = some frozen →
      WithinLimits frozen.policy domain s.ledger) ∧
    (∀ requestId, (s.ledger.filter fun row =>
      row.state.active ∧ row.requestId = requestId).length ≤ 1) ∧
    ∀ requestId (ceiling : ℤ), 0 ≤ ceiling →
      (∀ operation ∈ operations, ∀ own,
        operation.ceiling host = some (requestId, some own) → own ≤ ceiling) →
      total LedgerRow.chargedTokens (s.ledger.filter fun row => row.requestId = requestId) ≤ ceiling := by
  have empty : start.Sound host policies := by
    refine ⟨?_, ?_, ?_, ?_, ?_, ?_⟩
    all_goals simp [noRows, noDomains]
  have sound := run.invariant empty fun _ _ _ sound step => sound.step collisionFree step
  refine ⟨sound.limits, sound.single, fun requestId ceiling nonneg ceilings => ?_⟩
  refine (run.history (P := fun operations s => s.Sound host policies ∧
      ((∀ operation ∈ operations, ∀ own,
        operation.ceiling host = some (requestId, some own) → own ≤ ceiling) →
      total LedgerRow.chargedTokens (s.ledger.filter fun row => row.requestId = requestId) ≤ ceiling))
    ⟨empty, fun _ => ?_⟩ ?_).2 ceilings
  · rw [noRows]
    exact nonneg
  · rintro before s operation t ⟨sound, below⟩ step
    refine ⟨sound.step collisionFree step, fun ceilings => ?_⟩
    refine step.request_le sound (below fun earlier mem => ?_) (ceilings operation ?_)
    · exact ceilings earlier (mem_append_left _ mem)
    · exact mem_append_right _ (mem_singleton_self operation)

/-! ### A settlement after midnight -/

def clearHost : BudgetHost := ⟨fun text => text, fun q => toString q.num, fun value => value⟩

def opsBudget : Json :=
  .object [("deadlineMs", .number 120000), ("maxToolCalls", .number 20),
    ("maxProviderAttempts", .number 8), ("maxTokens", .number 32000), ("maxRows", .number 200),
    ("maxBytes", .number 128000), ("maxWindowMs", .number 3600000)]

def opsProfile : Json :=
  .object [("id", .string "ops"), ("version", .number 1), ("responsibility", .string "read"),
    ("supportedSubjectKinds", .array [.string "resource"]), ("modelScene", .string "fault_diagnosis"),
    ("prompt", .object [("version", .string "1"),
      ("hash", .string "aaaaaaaaaaaaaaaaaaaaaaaaaaaaaaaaaaaaaaaaaaaaaaaaaaaaaaaaaaaaaaaa")]),
    ("skills", .array []), ("toolAllowlist", .array [.string "query_metrics"]),
    ("outputSchemaVersion", .number 2), ("resourceBoundary", .string "all_required_scopes"),
    ("readonly", .bool true), ("outputLanguage", .string "zh-CN"), ("budget", opsBudget)]

theorem usd_valid : "USD".toList.length = 3 ∧ ∀ c ∈ "USD".toList, 'A' ≤ c ∧ c ≤ 'Z' :=
  ⟨rfl, by simp⟩

def narrowPolicy : BudgetPolicy := ⟨"USD", 4, 1, 2, 20, 1000, 2000, 1000⟩

theorem no_limit : ∀ limit ∈ (none : Option Int), integer limit 1 ∧ limit ≤ 1000000 := nofun

def deployment : BudgetLedger where
  policy := narrowPolicy
  executionTokenLimit := none
  taskExecution := none
  policySnapshot := by constructor <;> first | exact usd_valid | decide
  limitValid := no_limit
  taskValid := nofun

def firstRequest : String := "00000000-0000-0000-0000-000000000001"

def firstCommand : BudgetReservationInput where
  requestId := firstRequest
  operationId := "initial"
  domain := "test-security-domain"
  mode := .automatic
  profile := opsProfile
  reserveTokens := 1000
  reserveCostMicros := 1000
  prices := some ⟨1000000, 1000000, 1000000⟩

def firstSnapshot : RequestSnapshot where
  profileId := some (.string "ops")
  profileVersion := some (.number 1)
  profileHash := some (clearHost.hash opsProfile)

def freshStore : BudgetStore where
  requests := Table.empty.put firstRequest ⟨"case", none, firstSnapshot⟩
  resources := Table.empty.put "case" [⟨"instance", 1⟩]
  domains := Table.empty
  ledger := []

def reservationId : String := "00000000-0000-0000-0000-00000000000a"

private def day : Instant := 86400000

private def firstReserve : BudgetOperation :=
  .reserve deployment firstCommand (day - 1) reservationId

private def lateSettlement : BudgetOperation := .settle reservationId (some ⟨600, 100, 50⟩)

private def beforeMidnight : BudgetStore :=
  (BudgetOperation.markSent reservationId).after clearHost (firstReserve.after clearHost freshStore)

private theorem midnight_evaluated :
    beforeMidnight.ledger.map (fun row => (row.state, row.reservedTokens)) = [(.sent, 1000)] ∧
    (lateSettlement.after clearHost beforeMidnight).domains.get "test-security-domain" =
      some ⟨clearHost.hash narrowPolicy.toJson, narrowPolicy⟩ := by
  decide +kernel

private theorem lateSettlement_within : lateSettlement.Within beforeMidnight := by
  intro row mem _
  have known := mem_map_of_mem (f := fun row => (row.state, row.reservedTokens)) mem
  rw [midnight_evaluated.1, mem_singleton] at known
  rw [(Prod.mk.inj known).2]
  decide

private theorem firstReserve_ceiling :
    firstReserve.ceiling clearHost = some (firstRequest, some 32000) := by rfl

/-- A row reserved before midnight and settled after it. -/
theorem budget_never_oversells_midnight :
    WithinLimits narrowPolicy "test-security-domain"
      (lateSettlement.after clearHost beforeMidnight).ledger ∧
    total LedgerRow.chargedTokens ((lateSettlement.after clearHost beforeMidnight).ledger.filter
      fun row => row.requestId = firstRequest) ≤ 32000 := by
  have served {operation : BudgetOperation} (own : operation.deployment = some deployment ∨
      operation.deployment = none) (ledger : BudgetLedger) (serves : operation.deployment = some ledger) :
      ledger.policy ∈ ({narrowPolicy} : Set BudgetPolicy) := by
    rcases own with own | own
    · obtain rfl := some.inj (own.symm.trans serves)
      rfl
    · cases own.symm.trans serves
  have run : Run (BudgetStep clearHost {narrowPolicy}) freshStore
      ((([] ++ [firstReserve]) ++ [.markSent reservationId]) ++ [lateSettlement])
      (lateSettlement.after clearHost beforeMidnight) := by
    refine .snoc (.snoc (.snoc .nil ⟨served (.inl rfl), trivial, rfl⟩)
      ⟨served (.inr rfl), trivial, rfl⟩) ⟨served (.inr rfl), lateSettlement_within, rfl⟩
  obtain ⟨limits, -, charged⟩ := budget_never_oversells
    (fun _ left _ right _ => left.trans right.symm) rfl rfl run
  refine ⟨limits _ _ midnight_evaluated.2, charged firstRequest 32000 (by decide) ?_⟩
  intro operation mem own named
  rcases mem_cons.mp mem with rfl | mem
  · rw [firstReserve_ceiling] at named
    cases named
    decide
  · rcases mem_pair.mp mem with rfl | rfl <;> cases named

end Slide.Investigations
