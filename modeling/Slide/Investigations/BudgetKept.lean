import Slide.Investigations.BudgetSteps

/-!
# What stays in the budget ledger

A row keeps its identity and its command through every operation, its counts stay safe integers
whatever it settles for, and a request keeps its receipt.
-/

namespace Slide.Investigations

open Display List

variable {host : BudgetHost} {ledger : BudgetLedger} {s t : BudgetStore} {row : LedgerRow}
  {input value : BudgetReservationInput} {limit : Option Int} {now : Instant}
  {id domain requestId : String} {keys : List String} {admission : BudgetAdmission}
  {operation : BudgetOperation}

/-! ## Rows -/

/-- The digest of a row is that of its command, and its counts are safe. -/
structure LedgerRow.Stored (host : BudgetHost) (row : LedgerRow) : Prop where
  command : row.commandHash = host.hash row.reservation.toJson
  reservedTokens : row.reservedTokens ≤ maxSafe
  reservedCost : row.reservedCostMicros ≤ maxSafe
  chargedTokens : row.chargedTokens ≤ maxSafe
  chargedCost : row.chargedCostMicros ≤ maxSafe

/-- The identity and the command of a row never change. -/
structure LedgerRow.Keeps (old new : LedgerRow) : Prop where
  id : new.id = old.id
  requestId : new.requestId = old.requestId
  operationId : new.operationId = old.operationId
  commandHash : new.commandHash = old.commandHash
  requestBudgetHash : new.requestBudgetHash = old.requestBudgetHash
  reservation : new.reservation = old.reservation

theorem LedgerRow.Keeps.refl (row : LedgerRow) : row.Keeps row := ⟨rfl, rfl, rfl, rfl, rfl, rfl⟩

theorem LedgerRow.Keeps.trans {a b c : LedgerRow} (left : a.Keeps b) (right : b.Keeps c) : a.Keeps c :=
  ⟨right.id.trans left.id, right.requestId.trans left.requestId,
    right.operationId.trans left.operationId, right.commandHash.trans left.commandHash,
    right.requestBudgetHash.trans left.requestBudgetHash, right.reservation.trans left.reservation⟩

theorem LedgerRow.Stored.record (stored : row.Stored host) :
    ∃ reservation, row.record = .ok reservation ∧ reservation.id = row.id := by
  unfold LedgerRow.record
  rw [if_pos ⟨⟨Int.natCast_nonneg _, stored.reservedTokens⟩, ⟨Int.natCast_nonneg _, stored.reservedCost⟩,
    ⟨Int.natCast_nonneg _, stored.chargedTokens⟩, ⟨Int.natCast_nonneg _, stored.chargedCost⟩⟩]
  exact ⟨_, rfl, rfl⟩

theorem LedgerRow.Stored.move {state : BudgetState} {tokens cost : Nat} {costStatus : CostStatus}
    {usage : Option BudgetUsage} {settlementHash : Option String} (stored : row.Stored host)
    (safeTokens : tokens ≤ maxSafe) (safeCost : cost ≤ maxSafe) :
    let moved : LedgerRow := { row with
      state, chargedTokens := tokens, chargedCostMicros := cost, costStatus, usage, settlementHash }
    row.Keeps moved ∧ moved.Stored host :=
  ⟨⟨rfl, rfl, rfl, rfl, rfl, rfl⟩, stored.command, stored.reservedTokens, stored.reservedCost,
    safeTokens, safeCost⟩

theorem measuredBudget_safe {usage : BudgetUsage} {prices : Option BudgetPrices} {tokens : Int}
    {cost : Option Int} (measured : measuredBudget usage prices = .ok (tokens, cost)) :
    tokens ≤ maxSafe ∧ ∀ micros ∈ cost, micros ≤ maxSafe := by
  unfold measuredBudget at measured
  split at measured
  · cases measured
  next valid =>
    have total := (not_not.mp valid).2.2.2.2.2
    split at measured
    · cases measured
      exact ⟨total, fun _ mem => by cases mem⟩
    · dsimp only at measured
      split at measured
      · cases measured
      next safe =>
        cases measured
        refine ⟨total, fun micros mem => ?_⟩
        cases mem
        exact (not_not.mp (not_or.mp safe).2).2

theorem settlement_keeps {usage : Option BudgetUsage} {set : LedgerRow → LedgerRow}
    (stored : row.Stored host) (ok : settlement host usage row = .ok set) :
    row.Keeps (set row) ∧ (set row).Stored host := by
  cases usage with
  | none =>
    cases ok
    exact stored.move stored.chargedTokens stored.chargedCost
  | some value =>
    obtain ⟨⟨tokens, cost⟩, measured, ok⟩ := bind_eq_ok.mp ok
    cases ok
    obtain ⟨safeTokens, safeCost⟩ := measuredBudget_safe measured
    have bound : (0 : ℤ) ≤ maxSafe := by decide
    refine stored.move ?_ ?_
    · omega
    · cases cost with
      | none => exact stored.reservedCost
      | some micros =>
        have := safeCost micros rfl
        rw [Option.map_some, Option.getD_some]
        omega

theorem BudgetOperation.Writes.keeps {operation : BudgetOperation} {set : LedgerRow → LedgerRow}
    (writes : operation.Writes host row set) (stored : row.Stored host) :
    row.Keeps (set row) ∧ (set row).Stored host := by
  have same : row.Keeps row ∧ row.Stored host := ⟨.refl row, stored⟩
  cases operation with
  | markSent id =>
    obtain ⟨-, ok⟩ := writes
    unfold markSentRow at ok
    split at ok <;> cases ok
    · exact stored.move stored.chargedTokens stored.chargedCost
    · exact same
    · exact same
  | cancelUnsent id =>
    obtain ⟨-, ok⟩ := writes
    unfold cancelReserved at ok
    split at ok <;> cases ok
    · exact same
    · exact stored.move (by decide) (by decide)
  | retainUnknown id =>
    obtain ⟨-, ok⟩ := writes
    unfold Investigations.retainUnknown at ok
    split at ok <;> cases ok
    · exact same
    · exact same
    · exact stored.move stored.chargedTokens stored.chargedCost
  | settle id usage =>
    obtain ⟨-, -, ok⟩ := writes
    unfold settleRow at ok
    split at ok
    · split at ok <;> cases ok
      exact same
    · exact settlement_keeps stored ok
    · exact settlement_keeps stored ok
    · cases ok
  | reserve | reserveExecution | reuseExecution | prepareDomain | others => exact writes.elim

/-- What holds of the rows between the operations, whatever they settle for. -/
structure BudgetStore.Stored (host : BudgetHost) (s : BudgetStore) : Prop where
  ids : (s.ledger.map LedgerRow.id).Nodup
  operations : (s.ledger.map fun row => (row.requestId, row.operationId)).Nodup
  rows : ∀ row ∈ s.ledger, row.Stored host

theorem BudgetStore.Stored.after_cases (stored : s.Stored host) (operation : BudgetOperation) :
    BudgetChange host (fun old new => old.Keeps new ∧ new.Stored host) operation s
      (operation.after host s) :=
  BudgetOperation.after_cases operation stored.ids (fun row mem => ⟨.refl row, stored.rows row mem⟩)
    fun row mem _ writes => writes.keeps (stored.rows row mem)

theorem newRow_stored (tokens : integer input.reserveTokens 1) (cost : integer input.reserveCostMicros 1) :
    (newRow host input keys now id).Stored host := by
  obtain ⟨positive, safe⟩ := tokens
  obtain ⟨positive', safe'⟩ := cost
  have reserved : ((newRow host input keys now id).reservedTokens : ℤ) = input.reserveTokens :=
    Int.toNat_of_nonneg (by omega)
  have reserved' : ((newRow host input keys now id).reservedCostMicros : ℤ) = input.reserveCostMicros :=
    Int.toNat_of_nonneg (by omega)
  exact ⟨rfl, reserved ▸ safe, reserved' ▸ safe', reserved ▸ safe, reserved' ▸ safe'⟩

theorem BudgetStore.Stored.step (stored : s.Stored host) (operation : BudgetOperation) :
    (operation.after host s).Stored host := by
  rcases stored.after_cases operation with ⟨rows, -⟩ | ⟨_, _, -, rows, -⟩ |
    ⟨ledger, input, limit, keys, now, id, -, -, admission, rows, -⟩ | ⟨f, moves, rows, -⟩
  · exact ⟨rows ▸ stored.ids, rows ▸ stored.operations, rows ▸ stored.rows⟩
  · exact ⟨rows ▸ stored.ids, rows ▸ stored.operations, rows ▸ stored.rows⟩
  · refine ⟨?_, ?_, ?_⟩
    all_goals rw [rows]
    · rw [map_append, map_singleton]
      exact nodup_append'.mpr ⟨stored.ids, nodup_singleton _, by
        simpa [newRow] using admission.fresh⟩
    · rw [map_append, map_singleton]
      refine nodup_append'.mpr ⟨stored.operations, nodup_singleton _, fun pair old new => ?_⟩
      obtain ⟨row, mem, rfl⟩ := mem_map.mp old
      exact admission.unused row mem (Prod.mk.inj (mem_singleton.mp new))
    · intro row mem
      rcases mem_append.mp mem with old | last
      · exact stored.rows row old
      · rw [mem_singleton.mp last]
        exact newRow_stored admission.tokens admission.cost
  · have ids : (operation.after host s).ledger.map LedgerRow.id = s.ledger.map LedgerRow.id := by
      rw [rows, map_map]
      exact map_congr_left fun row mem => (moves row mem).1.id
    have pairs : ((operation.after host s).ledger.map fun row => (row.requestId, row.operationId)) =
        s.ledger.map fun row => (row.requestId, row.operationId) := by
      rw [rows, map_map]
      exact map_congr_left fun row mem =>
        Prod.ext (moves row mem).1.requestId (moves row mem).1.operationId
    refine ⟨ids ▸ stored.ids, pairs ▸ stored.operations, fun row mem => ?_⟩
    rw [rows] at mem
    obtain ⟨old, before, rfl⟩ := mem_map.mp mem
    exact (moves old before).2

theorem BudgetStore.Stored.row_stays (stored : s.Stored host) (operation : BudgetOperation)
    (mem : row ∈ s.ledger) :
    ∃ row' ∈ (operation.after host s).ledger, row.Keeps row' := by
  rcases stored.after_cases operation with ⟨rows, -⟩ | ⟨_, _, -, rows, -⟩ |
    ⟨_, _, _, _, _, _, -, -, -, rows, -⟩ | ⟨f, moves, rows, -⟩
  · exact ⟨row, rows ▸ mem, .refl row⟩
  · exact ⟨row, rows ▸ mem, .refl row⟩
  · exact ⟨row, rows ▸ mem_append_left _ mem, .refl row⟩
  · exact ⟨f row, rows ▸ mem_map_of_mem mem, (moves row mem).1⟩

theorem lockDomain_isSome (present : (s.domains.get domain).isSome) (other : String) :
    ((lockDomain host ledger other s).2.domains.get domain).isSome := by
  unfold lockDomain
  split
  · exact present
  · dsimp only
    rw [Table.get_put]
    split
    · rfl
    · exact present

theorem BudgetStore.Stored.domain_stays (stored : s.Stored host)
    (present : (s.domains.get domain).isSome) :
    ((operation.after host s).domains.get domain).isSome := by
  rcases stored.after_cases operation with ⟨-, domains⟩ | ⟨_, other, -, -, domains⟩ |
    ⟨_, input, _, _, _, _, -, -, -, -, domains⟩ | ⟨_, -, -, domains⟩
  · exact domains ▸ present
  · exact domains ▸ lockDomain_isSome present other
  · exact domains ▸ lockDomain_isSome present input.domain
  · exact domains ▸ present

/-! ## The request row -/

theorem BudgetLedger.reserveInTransaction_reads
    (ok : ledger.reserveInTransaction host value limit now id s = .ok (admission, t)) :
    t.requests = s.requests ∧ t.resources = s.resources := by
  obtain ⟨input, request, -, -, -, ok⟩ := ledger.reserveInTransaction_eq_ok ok
  rcases admitCommand_cases ok with ⟨rfl, -⟩ | ⟨-, -, -, -, -, rfl⟩
  · exact ⟨lockDomain_requests, lockDomain_resources⟩
  · exact ⟨lockDomain_requests, lockDomain_resources⟩

theorem BudgetLedger.reserveExecutionInTransaction_reads {request : RequestRow}
    (ok : ledger.reserveExecutionInTransaction host value limit now id s = .ok (admission, t))
    (found : s.requests.get requestId = some request) (receipt : request.snapshot.budgetReceipt ≠ none) :
    t.requests.get requestId = some request ∧ t.resources = s.resources := by
  obtain ⟨input, checked, ok⟩ := bind_eq_ok.mp ok
  obtain ⟨⟨given, r⟩, reserved, ok⟩ := bind_eq_ok.mp ok
  obtain ⟨requests, resources⟩ := ledger.reserveInTransaction_reads reserved
  rw [← requests] at found
  dsimp only at ok
  split at ok
  · cases ok
    exact ⟨found, resources⟩
  · cases ok
  next own =>
    split at ok
    · split at ok
      · cases ok
      · cases ok
        exact ⟨found, resources⟩
    next absent =>
      cases ok
      refine ⟨?_, resources⟩
      have other : requestId ≠ input.requestId := by
        rintro rfl
        cases found.symm.trans own
        exact receipt absent
      exact (Table.get_put_ne other).trans found

/-- Other services leave the request and the resources of its investigation. -/
def BudgetOperation.Quiet (requestId investigationId : String) (s : BudgetStore) :
    BudgetOperation → Prop
  | .others requests resources => requests.get requestId = s.requests.get requestId ∧
    resources.get investigationId = s.resources.get investigationId
  | _ => True

theorem mutate_reads {reservation : BudgetReservation}
    {work : LedgerRow → Except BudgetLedgerError (LedgerRow → LedgerRow)}
    (ok : s.mutate id work = .ok (reservation, t)) :
    t.requests = s.requests ∧ t.resources = s.resources := by
  obtain ⟨-, ok⟩ := guard_eq_ok.mp ok
  split at ok
  · cases ok
  · obtain ⟨-, ok⟩ := guard_eq_ok.mp ok
    obtain ⟨set, -, ok⟩ := bind_eq_ok.mp ok
    dsimp only at ok
    split at ok
    · cases ok
    · obtain ⟨_, -, ok⟩ := bind_eq_ok.mp ok
      cases ok
      exact ⟨rfl, rfl⟩

theorem BudgetOperation.after_reads {request : RequestRow} {investigationId : String}
    (quiet : operation.Quiet requestId investigationId s)
    (found : s.requests.get requestId = some request) (receipt : request.snapshot.budgetReceipt ≠ none) :
    (operation.after host s).requests.get requestId = some request ∧
      (operation.after host s).resources.get investigationId = s.resources.get investigationId := by
  have unread {t : BudgetStore} (same : t.requests = s.requests ∧ t.resources = s.resources) :
      t.requests.get requestId = some request ∧
        t.resources.get investigationId = s.resources.get investigationId :=
    ⟨by rw [same.1, found], by rw [same.2]⟩
  unfold BudgetOperation.after
  split
  next t ok =>
    cases operation with
    | reserve ledger value now id =>
      obtain ⟨_, reserved, rfl⟩ := Except.map_eq_ok.mp ok
      obtain ⟨copy, -, reserved⟩ := bind_eq_ok.mp reserved
      exact unread (ledger.reserveInTransaction_reads reserved)
    | reserveExecution ledger value limit now id =>
      obtain ⟨_, reserved, rfl⟩ := Except.map_eq_ok.mp ok
      obtain ⟨copy, -, reserved⟩ := bind_eq_ok.mp reserved
      obtain ⟨kept, resources⟩ := ledger.reserveExecutionInTransaction_reads reserved found receipt
      exact ⟨kept, by rw [resources]⟩
    | reuseExecution ledger other domain mode profile limit now id =>
      obtain ⟨_, reused, rfl⟩ := Except.map_eq_ok.mp ok
      obtain ⟨-, reused⟩ := guard_eq_ok.mp reused
      split at reused
      · cases reused
      · obtain ⟨-, reused⟩ := guard_eq_ok.mp reused
        obtain ⟨-, reused⟩ := guard_eq_ok.mp reused
        split at reused
        · cases reused
        · obtain ⟨-, reused⟩ := guard_eq_ok.mp reused
          obtain ⟨⟨admission, r⟩, reserved, reused⟩ := bind_eq_ok.mp reused
          obtain ⟨kept, resources⟩ := ledger.reserveExecutionInTransaction_reads reserved found receipt
          dsimp only at reused
          split at reused
          · split at reused
            · cases reused
            · cases reused
              exact ⟨kept, by rw [resources]⟩
          · cases reused
    | prepareDomain ledger domain =>
      change ledger.prepareDomainInTransaction host domain s = .ok t at ok
      unfold BudgetLedger.prepareDomainInTransaction at ok
      dsimp only at ok
      split at ok
      · cases ok
      · split at ok
        · cases ok
        · cases ok
          exact unread ⟨lockDomain_requests, lockDomain_resources⟩
    | markSent id =>
      obtain ⟨_, marked, rfl⟩ := Except.map_eq_ok.mp ok
      obtain ⟨_, mutated, done⟩ := bind_eq_ok.mp marked
      cases done
      exact unread (mutate_reads mutated)
    | cancelUnsent id =>
      obtain ⟨_, mutated, rfl⟩ := Except.map_eq_ok.mp ok
      exact unread (mutate_reads mutated)
    | retainUnknown id =>
      obtain ⟨_, mutated, rfl⟩ := Except.map_eq_ok.mp ok
      exact unread (mutate_reads mutated)
    | settle id usage =>
      obtain ⟨_, settled, rfl⟩ := Except.map_eq_ok.mp ok
      unfold Investigations.settle at settled
      split at settled
      · exact unread (mutate_reads settled)
      · cases settled
    | others requests resources =>
      cases ok
      exact ⟨quiet.1.trans found, quiet.2⟩
  next failed => exact ⟨found, rfl⟩

end Slide.Investigations
