import Slide.Library.Guarded
import Slide.Security.Approvals

/-!
# An approval authorizes what was reviewed

The uses of an approval are the intents that have not been released.  A grant for one call has one of
them while it is consumed and none while it is approved; a reusable grant counts them.  Every statement
keeps both, and what an intent was granted for does not change behind it.
-/

namespace Slide.Security

open Transaction Guarded List

/-- The intents of an approval that are under way or done. -/
def ApprovalStore.active (store : ApprovalStore) (id : Nat) : Nat :=
  store.intents.countP fun intent => intent.approvalId = id ∧ intent.state ≠ .released

/-- A reviewer has granted the approval. -/
def ApprovalRow.Granted (row : ApprovalRow) : Prop :=
  row.status = .approved ∨ row.status = .consumed

/-- What a row says about the number of its uses. -/
structure RowOk (databaseNow : Int) (uses : Nat) (row : ApprovalRow) : Prop where
  ungranted : ¬ row.Granted → row.status ≠ .expired → uses = 0
  unused : row.status = .pending → row.usedCount = 0
  unspent : row.scope = .once → row.status = .approved → uses = 0
  once : row.scope = .once → uses ≤ 1
  counted : row.scope ≠ .once → uses = row.usedCount ∧ uses ≤ row.maxUses
  high : row.riskLevel = .high → row.scope = .once
  reviewed : row.Granted → ∃ t, row.reviewedAt = some t ∧ t ≤ databaseNow

/-- What an intent was granted for is what the row says. -/
structure GrantedFor (intent : IntentRow) (row : ApprovalRow) : Prop where
  granted : row.Granted
  requester : intent.requesterId = row.requesterId
  binding : intent.bindingHash = row.bindingHash
  before : intent.createdAt < row.expiresAt
  reviewed : ∃ t, row.reviewedAt = some t ∧ t ≤ intent.createdAt
  session : row.scope ≠ .once → ∃ options key, intent.options = some options ∧
    options.sessionKey = some key ∧ row.sessionKey = some key
  risk : ∀ options, intent.options = some options →
    (options.riskLevel.getD .high).rank ≤ row.riskLevel.rank

structure StoreInv (databaseNow : Int) (store : ApprovalStore) : Prop where
  rows : ∀ id row, store.approvals.get id = some row → RowOk databaseNow (store.active id) row
  fresh : ∀ id row, store.approvals.get id = some row → id < store.nextId
  intents : ∀ intent ∈ store.intents, ∃ row, store.approvals.get intent.approvalId = some row ∧
    GrantedFor intent row

/-! ## What later statements leave -/

/-- A row later on: what was asked for stays, and so does what was granted. -/
structure ApprovalRow.Later (row row' : ApprovalRow) : Prop where
  requester : row'.requesterId = row.requesterId
  binding : row'.bindingHash = row.bindingHash
  session : row'.sessionKey = row.sessionKey
  risk : row'.riskLevel = row.riskLevel
  rejected : row.status = .rejected → row'.status = .rejected
  granted : row.Granted → row'.Granted ∧ row'.scope = row.scope ∧ row'.expiresAt = row.expiresAt ∧
    row'.reviewedAt = row.reviewedAt ∧ row'.maxUses = row.maxUses

variable {row row' row'' : ApprovalRow} {intent intent' : IntentRow} {s s' : ApprovalStore} {id : Nat}
  {databaseNow now : Int} {reviewerId : Int} {action : ReviewAction} {scope : Option ApprovalScope}

theorem ApprovalRow.later_refl (row : ApprovalRow) : row.Later row :=
  ⟨rfl, rfl, rfl, rfl, id, fun granted => ⟨granted, rfl, rfl, rfl, rfl⟩⟩

theorem ApprovalRow.Later.trans (first : row.Later row') (second : row'.Later row'') :
    row.Later row'' := by
  refine ⟨second.requester.trans first.requester, second.binding.trans first.binding,
    second.session.trans first.session, second.risk.trans first.risk,
    fun rejected => second.rejected (first.rejected rejected), fun granted => ?_⟩
  obtain ⟨granted', scope, expires, reviewed, uses⟩ := first.granted granted
  obtain ⟨granted'', scope', expires', reviewed', uses'⟩ := second.granted granted'
  exact ⟨granted'', scope'.trans scope, expires'.trans expires, reviewed'.trans reviewed,
    uses'.trans uses⟩

theorem GrantedFor.later (granted : GrantedFor intent row) (later : row.Later row') :
    GrantedFor intent row' := by
  obtain ⟨granted', scope, expires, reviewed, -⟩ := later.granted granted.granted
  refine ⟨granted', granted.requester.trans later.requester.symm,
    granted.binding.trans later.binding.symm, expires ▸ granted.before, reviewed ▸ granted.reviewed,
    fun reusable => ?_, later.risk ▸ granted.risk⟩
  rw [later.session]
  exact granted.session (scope ▸ reusable)

/-- An intent later on: only one under way changes, and only in its state. -/
structure IntentRow.Later (intent intent' : IntentRow) : Prop where
  same : ∃ state, intent' = { intent with state }
  settled : intent.state ≠ .dispatching → intent' = intent

theorem IntentRow.later_refl (intent : IntentRow) : intent.Later intent :=
  ⟨⟨intent.state, rfl⟩, fun _ => rfl⟩

theorem IntentRow.Later.trans {intent'' : IntentRow} (first : intent.Later intent')
    (second : intent'.Later intent'') : intent.Later intent'' := by
  refine ⟨?_, fun settled => ?_⟩
  · obtain ⟨state, rfl⟩ := first.same
    obtain ⟨state', rfl⟩ := second.same
    exact ⟨state', rfl⟩
  · have same := first.settled settled
    exact (second.settled (same ▸ settled)).trans same

structure StoreLater (s s' : ApprovalStore) : Prop where
  rows : ∀ id row, s.approvals.get id = some row →
    ∃ row', s'.approvals.get id = some row' ∧ row.Later row'
  intents : ∀ (e : Nat) intent, s.intents[e]? = some intent →
    ∃ intent', s'.intents[e]? = some intent' ∧ intent.Later intent'

/-- A store that is in order leads to one that is, and nothing is taken back. -/
def StoreSound (databaseNow : Int) (s s' : ApprovalStore) : Prop :=
  StoreInv databaseNow s → StoreInv databaseNow s' ∧ StoreLater s s'

theorem StoreLater.refl (s : ApprovalStore) : StoreLater s s :=
  ⟨fun _ row found => ⟨row, found, row.later_refl⟩, fun _ intent found =>
    ⟨intent, found, intent.later_refl⟩⟩

theorem StoreLater.trans {s'' : ApprovalStore} (first : StoreLater s s') (second : StoreLater s' s'') :
    StoreLater s s'' := by
  refine ⟨fun id row found => ?_, fun e intent found => ?_⟩
  · obtain ⟨row', found', later⟩ := first.rows id row found
    obtain ⟨row'', found'', later'⟩ := second.rows id row' found'
    exact ⟨row'', found'', later.trans later'⟩
  · obtain ⟨intent', found', later⟩ := first.intents e intent found
    obtain ⟨intent'', found'', later'⟩ := second.intents e intent' found'
    exact ⟨intent'', found'', later.trans later'⟩

theorem storeSound_refl : StoreSound databaseNow s s := fun inv => ⟨inv, .refl s⟩

theorem StoreSound.trans {s'' : ApprovalStore} (first : StoreSound databaseNow s s')
    (second : StoreSound databaseNow s' s'') : StoreSound databaseNow s s'' := by
  intro inv
  obtain ⟨inv', later⟩ := first inv
  obtain ⟨inv'', later'⟩ := second inv'
  exact ⟨inv'', later.trans later'⟩

theorem storeSound_of_row {approvals : Table Nat ApprovalRow} {intents : List IntentRow}
    (found : s.approvals.get id = some row)
    (get : ∀ j, approvals.get j = if j = id then some row' else s.approvals.get j)
    (later : StoreInv databaseNow s → row.Later row')
    (uses : StoreInv databaseNow s → RowOk databaseNow
      (ApprovalStore.active ⟨approvals, intents, s.nextId⟩ id) row')
    (others : ∀ j, j ≠ id → ApprovalStore.active ⟨approvals, intents, s.nextId⟩ j = s.active j)
    (kept : ∀ (e : Nat) intent, s.intents[e]? = some intent →
      ∃ intent', intents[e]? = some intent' ∧ intent.Later intent')
    (granted : StoreInv databaseNow s → ∀ intent ∈ intents,
      (∃ old ∈ s.intents, ∃ state, intent = { old with state }) ∨
        (intent.approvalId = id ∧ GrantedFor intent row')) :
    StoreSound databaseNow s ⟨approvals, intents, s.nextId⟩ := by
  intro inv
  have rows (j : Nat) (r : ApprovalRow) (here : s.approvals.get j = some r) :
      ∃ r', approvals.get j = some r' ∧ r.Later r' := by
    rw [get]
    split
    next same =>
      subst same
      cases found.symm.trans here
      exact ⟨row', rfl, later inv⟩
    next => exact ⟨r, here, r.later_refl⟩
  refine ⟨⟨fun j r here => ?_, fun j r here => ?_, fun intent mem => ?_⟩, rows, kept⟩
  · dsimp only at here
    rw [get] at here
    split at here
    next same =>
      subst same
      cases here
      exact uses inv
    next differ =>
      rw [others j differ]
      exact inv.rows j r here
  · dsimp only at here
    rw [get] at here
    split at here
    next same => exact same ▸ inv.fresh id row found
    next => exact inv.fresh j r here
  · rcases granted inv intent mem with ⟨old, before, state, rfl⟩ | ⟨of_id, granted⟩
    · obtain ⟨r, here, granted⟩ := inv.intents old before
      obtain ⟨r', here', later⟩ := rows old.approvalId r here
      obtain ⟨granted, requester, binding, time, reviewed, session, risk⟩ := granted.later later
      exact ⟨r', here', granted, requester, binding, time, reviewed, session, risk⟩
    · refine ⟨row', ?_, granted⟩
      dsimp only
      rw [get, if_pos of_id]

/-! ## Reviews -/

theorem ApprovalRow.reviewable_iff : row.reviewable databaseNow = true ↔
    row.status = .pending ∧ databaseNow < row.expiresAt ∧ row.toolName ≠ actionApprovalTool := by
  unfold ApprovalRow.reviewable
  exact decide_eq_true_iff

theorem ApprovalRow.not_granted_of_pending (pending : row.status = .pending) : ¬ row.Granted := by
  unfold ApprovalRow.Granted
  rw [pending]
  rintro (absurd | absurd) <;> cases absurd

theorem ApprovalRow.review_later (pending : row.status = .pending) :
    row.Later (row.review databaseNow reviewerId action scope) := by
  have absurd : row.status ≠ .rejected := by
    rw [pending]
    nofun
  cases action with
  | approve | reject =>
    exact ⟨rfl, rfl, rfl, rfl, fun rejected => (absurd rejected).elim,
      fun granted => (row.not_granted_of_pending pending granted).elim⟩

theorem RowOk.review {uses : Nat} (ok : RowOk databaseNow uses row) (pending : row.status = .pending) :
    RowOk databaseNow uses (row.review databaseNow reviewerId action scope) := by
  have none_used : uses = 0 := by
    apply ok.ungranted (row.not_granted_of_pending pending)
    rw [pending]
    nofun
  have counter := ok.unused pending
  subst none_used
  refine ⟨fun _ _ => rfl, fun again => ?_, fun _ _ => rfl, fun _ => Nat.zero_le 1,
    fun _ => ⟨?_, Nat.zero_le _⟩, fun high => ?_, fun _ => ⟨databaseNow, ?_, le_rfl⟩⟩
  · cases action <;> cases again
  · cases action <;> exact counter.symm
  · cases action with
    | approve => exact if_pos high
    | reject => exact ok.high high
  · cases action <;> rfl

theorem storeSound_reviewWithExecutor : StoreSound databaseNow s
    (reviewWithExecutor s databaseNow id reviewerId action scope).1 := by
  unfold reviewWithExecutor
  dsimp only
  by_cases affected : (s.approvals.updateWhere id (fun row => row.reviewable databaseNow)
      fun row => row.review databaseNow reviewerId action scope).2 = 1
  · obtain ⟨row, found, passes⟩ := Table.affected_iff.mp affected
    have pending := (ApprovalRow.reviewable_iff.mp passes).1
    rw [Table.updateWhere_of_pass found passes]
    apply storeSound_of_row found
    · exact fun j => Table.get_put
    · exact fun _ => ApprovalRow.review_later pending
    · exact fun inv => (inv.rows id row found).review pending
    · exact fun j _ => rfl
    · exact fun e intent here => ⟨intent, here, intent.later_refl⟩
    · exact fun _ intent mem => .inl ⟨intent, mem, intent.state, rfl⟩
  · rw [Table.updateWhere_of_not_affected affected]
    exact storeSound_refl

theorem storeSound_review {name : String} : StoreSound databaseNow s
    (review s databaseNow name reviewerId action scope).1 := by
  unfold review
  split
  next =>
    split
    · exact storeSound_refl
    · exact storeSound_reviewWithExecutor
  next => exact storeSound_refl

theorem storeSound_reviews (ids reviewed : List Nat) : StoreSound databaseNow s
    (ids.foldl (fun (reviewed, store) id =>
      let (store, changed) := reviewWithExecutor store databaseNow id reviewerId action scope
      (if changed then reviewed ++ [id] else reviewed, store)) (reviewed, s)).2 := by
  induction ids generalizing s reviewed with
  | nil => exact storeSound_refl
  | cons id ids ih =>
    rw [foldl_cons]
    exact storeSound_reviewWithExecutor.trans (ih _)

theorem storeSound_reviewPendingByTool {toolName : String} {reviewed : List Nat}
    (ran : reviewPendingByTool databaseNow toolName reviewerId action scope s = .ok (reviewed, s')) :
    StoreSound databaseNow s s' := by
  unfold reviewPendingByTool at ran
  split at ran
  · cases ran
    exact storeSound_refl
  · have same := congrArg Prod.snd (Except.ok.inj ran)
    dsimp only at same
    exact same ▸ storeSound_reviews _ _

/-! ## Uses -/

section Consuming

variable {approvals : Table Nat ApprovalRow} {bindingHash : String} {requesterId : Int}
  {options : Option ApprovalConsumeOptions}

/-- A use of a row: what has been checked, and the row after it. -/
structure Consumes (databaseNow : Int) (bindingHash : String) (requesterId : Int)
    (options : Option ApprovalConsumeOptions) (row row' : ApprovalRow) : Prop where
  requester : row.requesterId = requesterId
  binding : row.bindingHash = bindingHash
  approved : row.status = .approved
  before : databaseNow < row.expiresAt
  risk : ∀ given, options = some given → (given.riskLevel.getD .high).rank ≤ row.riskLevel.rank
  use : (row.scope = .once ∧ row' = { row with status := .consumed }) ∨
    (row.scope ≠ .once ∧ (∃ given key, options = some given ∧ given.sessionKey = some key ∧
      row.sessionKey = some key) ∧ row.usedCount < row.maxUses ∧
      row' = { row with usedCount := row.usedCount + 1 })

/-- A refusal that changes nothing, or a use. -/
def ConsumeOutcome (databaseNow : Int) (id : Nat) (bindingHash : String) (requesterId : Int)
    (options : Option ApprovalConsumeOptions) (approvals : Table Nat ApprovalRow)
    (outcome : ApprovalConsumeResult × Table Nat ApprovalRow) : Prop :=
  (∃ failure, outcome = (.error failure, approvals)) ∨
    ∃ row row', approvals.get id = some row ∧ outcome = (.ok (), approvals.put id row') ∧
      Consumes databaseNow bindingHash requesterId options row row'

theorem granted_updateWhere {guard : ApprovalRow → Bool} {set : ApprovalRow → ApprovalRow}
    {failure : ApprovalConsumeFailure} (found : approvals.get id = some row) :
    granted (approvals.updateWhere id guard set) failure = (.error failure, approvals) ∨
      (guard row = true ∧
        granted (approvals.updateWhere id guard set) failure = (.ok (), approvals.put id (set row))) := by
  unfold granted
  by_cases passes : guard row = true
  · rw [Table.updateWhere_of_pass found passes]
    exact .inr ⟨passes, rfl⟩
  · have missed : (approvals.updateWhere id guard set).2 ≠ 1 := by
      intro affected
      obtain ⟨row', found', passes'⟩ := Table.affected_iff.mp affected
      cases found'.symm.trans found
      exact passes passes'
    rw [if_neg missed, Table.updateWhere_of_not_affected missed]
    exact .inl rfl

theorem consumeOnce_outcome {failure : ApprovalConsumeFailure} (found : approvals.get id = some row)
    (once : row.scope = .once)
    (risk : ∀ given, options = some given →
      (given.riskLevel.getD .high).rank ≤ row.riskLevel.rank) :
    ConsumeOutcome databaseNow id bindingHash requesterId options approvals
      (granted (consumeOnce approvals databaseNow id bindingHash requesterId) failure) := by
  rcases granted_updateWhere found with refused | ⟨passes, used⟩
  · exact .inl ⟨failure, refused⟩
  · obtain ⟨requester, binding, approved, before⟩ := of_decide_eq_true passes
    exact .inr ⟨row, _, found, used, requester, binding, approved, before, risk, .inl ⟨once, rfl⟩⟩

theorem consumeUse_outcome {failure : ApprovalConsumeFailure} {given : ApprovalConsumeOptions}
    {key : String} (found : approvals.get id = some row) (reusable : row.scope ≠ .once)
    (of_key : given.sessionKey = some key)
    (risk : (given.riskLevel.getD .high).rank ≤ row.riskLevel.rank) :
    ConsumeOutcome databaseNow id bindingHash requesterId (some given) approvals
      (granted (consumeUse approvals databaseNow id bindingHash requesterId key) failure) := by
  rcases granted_updateWhere found with refused | ⟨passes, used⟩
  · exact .inl ⟨failure, refused⟩
  · obtain ⟨requester, binding, approved, session, fewer, before⟩ := of_decide_eq_true passes
    refine .inr ⟨row, _, found, used, requester, binding, approved, before, fun given' same => ?_,
      .inr ⟨reusable, ⟨given, key, rfl, of_key, session⟩, fewer, rfl⟩⟩
    cases same
    exact risk

theorem consumeRow_outcome (found : approvals.get id = some row) :
    ConsumeOutcome databaseNow id bindingHash requesterId options approvals
      (consumeRow approvals databaseNow now id bindingHash requesterId options row) := by
  have refused (failure : ApprovalConsumeFailure) : ConsumeOutcome databaseNow id bindingHash
      requesterId options approvals (.error failure, approvals) := .inl ⟨failure, rfl⟩
  unfold consumeRow
  split
  · exact refused _
  split
  · exact refused _
  split
  · exact refused _
  split
  · exact refused _
  split
  · exact refused _
  split
  · exact refused _
  split
  next given =>
    split
    · exact refused _
    next enough =>
      have risk : (given.riskLevel.getD .high).rank ≤ row.riskLevel.rank := by omega
      split
      next once =>
        split
        · exact refused _
        · apply consumeOnce_outcome found once
          intro given' same
          cases same
          exact risk
      next reusable =>
        split
        next key of_key =>
          split
          · exact refused _
          split
          · exact refused _
          · exact consumeUse_outcome found reusable of_key risk
        next => exact refused _
  next =>
    split
    · exact refused _
    next matching =>
      rw [not_or, not_not] at matching
      exact consumeOnce_outcome found matching.1 nofun

theorem consumeApprovedDetailed_outcome {name : String} (of_name : parseId name = some id) :
    ConsumeOutcome databaseNow id bindingHash requesterId options approvals
      (consumeApprovedDetailed approvals databaseNow now name bindingHash requesterId options) := by
  have refused (failure : ApprovalConsumeFailure) : ConsumeOutcome databaseNow id bindingHash
      requesterId options approvals (.error failure, approvals) := .inl ⟨failure, rfl⟩
  unfold consumeApprovedDetailed
  rw [of_name]
  dsimp only
  split
  · exact refused _
  · split
    next row found =>
      split
      · exact refused _
      · exact consumeRow_outcome found
    next => exact refused _

end Consuming

/-! ## Intents -/

theorem active_append (store : ApprovalStore) (approvals : Table Nat ApprovalRow) (intent : IntentRow)
    (j : Nat) : ApprovalStore.active ⟨approvals, store.intents ++ [intent], store.nextId⟩ j =
      store.active j + if intent.approvalId = j ∧ intent.state ≠ .released then 1 else 0 := by
  unfold ApprovalStore.active
  rw [countP_append, countP_singleton]
  simp only [decide_eq_true_eq]

theorem RowOk.consume {uses : Nat} {bindingHash : String} {requesterId : Int}
    {options : Option ApprovalConsumeOptions} (ok : RowOk databaseNow uses row)
    (use : Consumes databaseNow bindingHash requesterId options row row') :
    RowOk databaseNow (uses + 1) row' := by
  have granted : row.Granted := .inl use.approved
  rcases use.use with ⟨once, rfl⟩ | ⟨reusable, -, fewer, rfl⟩
  · have none_used := ok.unspent once use.approved
    refine ⟨fun refused => ?_, nofun, nofun, fun _ => by omega, fun reusable => ?_, fun _ => once,
      fun _ => ok.reviewed granted⟩
    · exact absurd (.inr rfl) refused
    · exact absurd once reusable
  · obtain ⟨counted, -⟩ := ok.counted reusable
    refine ⟨fun refused => absurd granted refused, fun pending => ?_, fun once => ?_, fun once => ?_,
      fun _ => ⟨?_, ?_⟩, ok.high, fun _ => ok.reviewed granted⟩
    · exact absurd granted (row.not_granted_of_pending pending)
    · exact absurd once reusable
    · exact absurd once reusable
    · exact congrArg (· + 1) counted
    · dsimp only
      omega

theorem Consumes.later {bindingHash : String} {requesterId : Int}
    {options : Option ApprovalConsumeOptions}
    (use : Consumes databaseNow bindingHash requesterId options row row') : row.Later row' := by
  have unrejected : row.status ≠ .rejected := by
    rw [use.approved]
    nofun
  rcases use.use with ⟨-, rfl⟩ | ⟨-, -, -, rfl⟩
  · exact ⟨rfl, rfl, rfl, rfl, fun rejected => absurd rejected unrejected,
      fun _ => ⟨.inr rfl, rfl, rfl, rfl, rfl⟩⟩
  · exact ⟨rfl, rfl, rfl, rfl, id, fun granted => ⟨granted, rfl, rfl, rfl, rfl⟩⟩

theorem Consumes.granted {bindingHash requestId : String} {requesterId : Int}
    {options : Option ApprovalConsumeOptions} {uses : Nat} (ok : RowOk databaseNow uses row)
    (use : Consumes databaseNow bindingHash requesterId options row row') :
    GrantedFor ⟨id, requestId, .dispatching, requesterId, bindingHash, options, databaseNow⟩ row' := by
  have later := use.later
  have granted : row.Granted := .inl use.approved
  obtain ⟨granted', scope, expires, reviewed, -⟩ := later.granted granted
  refine ⟨granted', ?_, ?_, ?_, ?_, fun reusable => ?_, ?_⟩
  · exact use.requester.symm.trans later.requester.symm
  · exact use.binding.symm.trans later.binding.symm
  · exact expires ▸ use.before
  · exact reviewed ▸ ok.reviewed granted
  · rcases use.use with ⟨once, -⟩ | ⟨-, ⟨given, key, of_given, of_key, of_row⟩, -, -⟩
    · exact absurd once (scope ▸ reusable)
    · exact ⟨given, key, of_given, of_key, later.session.trans of_row⟩
  · intro given of_given
    rw [later.risk]
    exact use.risk given of_given

theorem storeSound_consume {bindingHash requestId : String} {requesterId : Int}
    {options : Option ApprovalConsumeOptions} (found : s.approvals.get id = some row)
    (use : Consumes databaseNow bindingHash requesterId options row row') :
    StoreSound databaseNow s ⟨s.approvals.put id row', s.intents ++ [⟨id, requestId, .dispatching,
      requesterId, bindingHash, options, databaseNow⟩], s.nextId⟩ := by
  apply storeSound_of_row found
  · exact fun j => Table.get_put
  · exact fun _ => use.later
  · intro inv
    rw [active_append, if_pos ⟨rfl, nofun⟩]
    exact (inv.rows id row found).consume use
  · intro j differ
    rw [active_append, if_neg fun of_j => differ of_j.1.symm]
    rfl
  · intro e intent here
    refine ⟨intent, ?_, intent.later_refl⟩
    rw [List.getElem?_append_left (List.getElem?_eq_some_iff.mp here).1]
    exact here
  · intro inv intent mem
    rcases mem_append.mp mem with old | new
    · exact .inl ⟨intent, old, intent.state, rfl⟩
    · rw [mem_singleton.mp new]
      exact .inr ⟨rfl, use.granted (inv.rows id row found)⟩

theorem authorize_cases {name bindingHash requestId : String} {requesterId : Int}
    {options : Option ApprovalConsumeOptions} {audited aborted : Bool}
    {answer : ApprovalConsumeResult × Nat}
    (ran : authorize databaseNow now name bindingHash requesterId requestId options audited aborted s =
      .ok (answer, s')) :
    answer.2 = s.intents.length ∧
      ((answer.1 ≠ .ok () ∧ s' = s) ∨
        ∃ id row row', parseId name = some id ∧ s.approvals.get id = some row ∧
          Consumes databaseNow bindingHash requesterId options row row' ∧
          s' = ⟨s.approvals.put id row', s.intents ++ [⟨id, requestId, .dispatching, requesterId,
            bindingHash, options, databaseNow⟩], s.nextId⟩) := by
  unfold authorize at ran
  dsimp only at ran
  split at ran
  · cases ran
  split at ran
  · cases ran
  cases ran
  refine ⟨rfl, ?_⟩
  cases of_name : parseId name with
  | none =>
    have refused : consumeApprovedDetailed s.approvals databaseNow now name bindingHash requesterId
        options = (.error .invalid, s.approvals) := by
      unfold consumeApprovedDetailed
      rw [of_name]
    rw [refused, ite_self]
    exact .inl ⟨by simp, rfl⟩
  | some id =>
    have outcome : ConsumeOutcome databaseNow id bindingHash requesterId options s.approvals
        (if ((some id).bind s.approvals.get).any (fun row => row.toolName = actionApprovalTool) then
          (.error .invalid, s.approvals)
        else consumeApprovedDetailed s.approvals databaseNow now name bindingHash requesterId
          options) := by
      split
      · exact .inl ⟨.invalid, rfl⟩
      · exact consumeApprovedDetailed_outcome of_name
    rcases outcome with ⟨failure, refused⟩ | ⟨row, row', found, used, use⟩
    · rw [refused]
      exact .inl ⟨by simp, rfl⟩
    · rw [used]
      exact .inr ⟨id, row, row', rfl, found, use, rfl⟩

theorem storeSound_authorize {name bindingHash requestId : String} {requesterId : Int}
    {options : Option ApprovalConsumeOptions} {audited aborted : Bool}
    {answer : ApprovalConsumeResult × Nat}
    (ran : authorize databaseNow now name bindingHash requesterId requestId options audited aborted s =
      .ok (answer, s')) : StoreSound databaseNow s s' := by
  obtain ⟨-, ⟨-, rfl⟩ | ⟨id, row, row', -, found, use, rfl⟩⟩ := authorize_cases ran
  · exact storeSound_refl
  · exact storeSound_consume found use

/-! ## Receipts -/

theorem settleIntent_cases (intents : List IntentRow) (e : Nat) (state : IntentState) :
    (∃ intent, intents[e]? = some intent ∧ intent.state = .dispatching ∧
      settleIntent intents e state = (intents.set e { intent with state }, 1)) ∨
    settleIntent intents e state = (intents, 0) := by
  unfold settleIntent
  split
  next intent here =>
    split
    next dispatching => exact .inl ⟨intent, here, dispatching, rfl⟩
    next => exact .inr rfl
  next => exact .inr rfl

theorem active_settle (approvals : Table Nat ApprovalRow) {e : Nat} (state : IntentState)
    (here : s.intents[e]? = some intent) (dispatching : intent.state = .dispatching) (j : Nat) :
    ApprovalStore.active ⟨approvals, s.intents.set e { intent with state }, s.nextId⟩ j +
        (if intent.approvalId = j ∧ state = .released then 1 else 0) = s.active j := by
  obtain ⟨inside, rfl⟩ := List.getElem?_eq_some_iff.mp here
  unfold ApprovalStore.active
  dsimp only
  rw [countP_set inside]
  by_cases of_j : s.intents[e].approvalId = j
  · have before : decide (s.intents[e].approvalId = j ∧ s.intents[e].state ≠ .released) = true := by
      rw [dispatching]
      exact decide_eq_true ⟨of_j, nofun⟩
    have counted : 0 < s.intents.countP fun intent =>
        decide (intent.approvalId = j ∧ intent.state ≠ .released) :=
      countP_pos_iff.mpr ⟨s.intents[e], getElem_mem inside, before⟩
    rw [if_pos before]
    by_cases released : state = .released
    · rw [if_neg fun after => (of_decide_eq_true after).2 released, if_pos ⟨of_j, released⟩]
      omega
    · rw [if_pos (decide_eq_true ⟨of_j, released⟩), if_neg fun after => released after.2]
      omega
  · rw [if_neg fun before => of_j (of_decide_eq_true before).1,
      if_neg fun after => of_j (of_decide_eq_true after).1, if_neg fun after => of_j after.1]
    omega

theorem intents_settle {e : Nat} {state : IntentState} (here : s.intents[e]? = some intent)
    (dispatching : intent.state = .dispatching) (d : Nat) {other : IntentRow}
    (found : s.intents[d]? = some other) :
    ∃ intent', (s.intents.set e { intent with state })[d]? = some intent' ∧ other.Later intent' := by
  by_cases same : e = d
  · subst same
    cases here.symm.trans found
    refine ⟨_, List.getElem?_set_self (List.getElem?_eq_some_iff.mp here).1, ⟨state, rfl⟩, ?_⟩
    exact fun settled => absurd dispatching settled
  · exact ⟨other, (getElem?_set_ne same).trans found, other.later_refl⟩

theorem mem_settle {e : Nat} {state : IntentState} (here : s.intents[e]? = some intent)
    {other : IntentRow} (mem : other ∈ s.intents.set e { intent with state }) :
    ∃ old ∈ s.intents, ∃ state, other = { old with state } := by
  rcases mem_or_eq_of_mem_set mem with old | rfl
  · exact ⟨other, old, other.state, rfl⟩
  · exact ⟨intent, mem_of_getElem? here, state, rfl⟩

theorem storeSound_finish {e : Nat} {u : Unit} (ran : finishIntent e s = .ok (u, s')) :
    StoreSound databaseNow s s' := by
  unfold finishIntent at ran
  cases ran
  rcases settleIntent_cases s.intents e .finished with ⟨intent, here, dispatching, settled⟩ | same
  · rw [settled]
    have active (j : Nat) : ApprovalStore.active
        { s with intents := s.intents.set e { intent with state := .finished } } j = s.active j := by
      have counted := active_settle s.approvals .finished here dispatching j
      rw [if_neg fun absurd => by cases absurd.2] at counted
      exact counted
    intro inv
    refine ⟨⟨fun j row found => ?_, inv.fresh, fun other mem => ?_⟩, fun j row found => ?_,
      fun d other found => intents_settle here dispatching d found⟩
    · rw [active]
      exact inv.rows j row found
    · obtain ⟨old, before, state, rfl⟩ := mem_settle here mem
      obtain ⟨row, found, granted, requester, binding, time, reviewed, session, risk⟩ :=
        inv.intents old before
      exact ⟨row, found, granted, requester, binding, time, reviewed, session, risk⟩
    · exact ⟨row, found, row.later_refl⟩
  · rw [same]
    exact storeSound_refl

theorem ApprovalRow.refund_later (row : ApprovalRow) : row.Later row.refund := by
  refine ⟨rfl, rfl, rfl, rfl, fun rejected => ?_, fun granted => ⟨?_, rfl, rfl, rfl, rfl⟩⟩
  · unfold ApprovalRow.refund
    dsimp only
    rw [if_neg fun consumed => by cases rejected.symm.trans consumed.2]
    exact rejected
  · unfold ApprovalRow.refund ApprovalRow.Granted
    dsimp only
    split
    · exact .inl rfl
    · exact granted

theorem RowOk.refund {uses : Nat} (ok : RowOk databaseNow (uses + 1) row) (granted : row.Granted) :
    RowOk databaseNow uses row.refund := by
  have later := row.refund_later
  obtain ⟨granted', -⟩ := later.granted granted
  refine ⟨fun refused => absurd granted' refused, fun pending => ?_, fun once _ => ?_, fun once => ?_,
    fun reusable => ?_, ok.high, fun _ => ok.reviewed granted⟩
  · exact absurd granted' (row.refund.not_granted_of_pending pending)
  · have most := ok.once once
    omega
  · have most := ok.once once
    omega
  · obtain ⟨counted, most⟩ := ok.counted reusable
    have less : row.refund.usedCount = max row.usedCount 1 - 1 := if_pos reusable
    refine ⟨?_, (Nat.le_succ uses).trans most⟩
    omega

theorem storeSound_release {e : Nat} {released : Bool}
    (receipt : ∃ intent, s.intents[e]? = some intent ∧ intent.approvalId = id)
    (ran : releaseBeforeHandler id e s = .ok (released, s')) : StoreSound databaseNow s s' := by
  unfold releaseBeforeHandler at ran
  dsimp only at ran
  rcases settleIntent_cases s.intents e .released with ⟨intent, here, dispatching, settled⟩ | same
  · rw [settled] at ran
    cases ran
    obtain ⟨intent', here', of_id⟩ := receipt
    cases here'.symm.trans here
    intro inv
    obtain ⟨row, found, granted⟩ := inv.intents intent (mem_of_getElem? here)
    rw [of_id] at found
    rw [Table.updateWhere_of_pass found rfl]
    refine storeSound_of_row found (fun j => Table.get_put) (fun _ => row.refund_later) ?_ ?_
      (fun d other here' => intents_settle here dispatching d here')
      (fun _ other mem => .inl (mem_settle here mem)) inv
    · intro inv
      have counted := active_settle (s.approvals.put id row.refund) .released here dispatching id
      rw [if_pos ⟨of_id, rfl⟩] at counted
      apply RowOk.refund _ granted.granted
      rw [counted]
      exact inv.rows id row found
    · intro j differ
      have counted := active_settle (s.approvals.put id row.refund) .released here dispatching j
      rw [if_neg fun of_j => differ (of_j.1.symm.trans of_id)] at counted
      exact counted
  · rw [same] at ran
    cases ran
    exact storeSound_refl

/-! ## The processes -/

structure ApprovalInv (w : ApprovalWorld) : Prop where
  store : StoreInv w.databaseNow w.store
  receipts : ∀ receipt ∈ w.receipts, ∃ intent,
    w.store.intents[receipt.executionId]? = some intent ∧ intent.approvalId = receipt.approvalId

/-- A world that is in order leads to one that is, and nothing is taken back. -/
def ApprovalSound (w w' : ApprovalWorld) : Prop :=
  ApprovalInv w → ApprovalInv w' ∧ StoreLater w.store w'.store

instance : Std.Refl ApprovalSound := ⟨fun w inv => ⟨inv, .refl w.store⟩⟩

instance : IsTrans ApprovalWorld ApprovalSound := ⟨fun _ _ _ first second inv =>
  have ⟨inv', later⟩ := first inv
  have ⟨inv'', later'⟩ := second inv'
  ⟨inv'', later.trans later'⟩⟩

variable {w : ApprovalWorld} {commit : Commit}

theorem RowOk.mono {databaseNow' : Int} {uses : Nat} (ok : RowOk databaseNow uses row)
    (later : databaseNow ≤ databaseNow') : RowOk databaseNow' uses row := by
  refine { ok with reviewed := fun granted => ?_ }
  obtain ⟨t, reviewed, before⟩ := ok.reviewed granted
  exact ⟨t, reviewed, before.trans later⟩

theorem StoreLater.receipt {receipt : Receipt} (later : StoreLater s s')
    (held : ∃ intent, s.intents[receipt.executionId]? = some intent ∧
      intent.approvalId = receipt.approvalId) :
    ∃ intent, s'.intents[receipt.executionId]? = some intent ∧
      intent.approvalId = receipt.approvalId := by
  obtain ⟨intent, found, same⟩ := held
  obtain ⟨intent', found', after⟩ := later.intents _ intent found
  obtain ⟨state, rfl⟩ := after.same
  exact ⟨_, found', same⟩

theorem sound_of_store {store : ApprovalStore} (sound : StoreSound w.databaseNow w.store store) :
    ApprovalSound w { w with store } := by
  intro inv
  obtain ⟨inv', later⟩ := sound inv.store
  exact ⟨⟨inv', fun receipt held => later.receipt (inv.receipts receipt held)⟩, later⟩

theorem sound_of_perform {α : Type} {body : Body ApprovalStore String α}
    (sound : ∀ a s', body w.store = .ok (a, s') → StoreSound w.databaseNow w.store s') :
    ApprovalSound w { w with store := (perform body commit w.store).2 } := by
  apply sound_of_store
  exact perform_keeps storeSound_refl sound

theorem sound_of_submissions {submissions : List Submission} :
    ApprovalSound w { w with submissions } :=
  fun inv => ⟨⟨inv.store, inv.receipts⟩, .refl w.store⟩

theorem sound_tick (elapsed : Nat) :
    ApprovalSound w { w with databaseNow := w.databaseNow + elapsed } := by
  intro inv
  refine ⟨⟨⟨fun id row found => ?_, inv.store.fresh, inv.store.intents⟩, inv.receipts⟩, .refl w.store⟩
  exact (inv.store.rows id row found).mono (Int.le_add_of_nonneg_right (Int.natCast_nonneg elapsed))

theorem normalizeApprovalScope_high {requested : Option ApprovalScope} {key : Option String} :
    normalizeApprovalScope requested .high key = .once := rfl

theorem rowOk_submitted (request : ApprovalRequest) : RowOk databaseNow 0 (request.row now) := by
  have ungranted : ¬ (request.row now).Granted := ApprovalRow.not_granted_of_pending rfl
  refine ⟨fun _ _ => rfl, fun _ => rfl, fun _ _ => rfl, fun _ => Nat.zero_le 1,
    fun _ => ⟨rfl, Nat.zero_le _⟩, fun high => ?_, fun granted => absurd granted ungranted⟩
  change request.riskLevel = .high at high
  change request.scope = .once
  unfold ApprovalRequest.scope
  rw [high]
  exact normalizeApprovalScope_high

theorem storeSound_insert (request : ApprovalRequest) : StoreSound databaseNow s
    { s with
      approvals := s.approvals.put s.nextId (request.row now)
      nextId := s.nextId + 1 } := by
  intro inv
  have absent : ∀ id row, s.approvals.get id = some row → id ≠ s.nextId := by
    intro id row found
    exact (inv.fresh id row found).ne
  have kept : ∀ id row, s.approvals.get id = some row →
      (s.approvals.put s.nextId (request.row now)).get id = some row := by
    intro id row found
    rw [Table.get_put_ne (absent id row found), found]
  have unused : s.active s.nextId = 0 := by
    apply countP_eq_zero.mpr
    intro intent mem counted
    obtain ⟨row, found, -⟩ := inv.intents intent mem
    exact absent _ row found (of_decide_eq_true counted).1
  refine ⟨⟨fun id row found => ?_, fun id row found => ?_, fun intent mem => ?_⟩,
    fun id row found => ⟨row, kept id row found, row.later_refl⟩,
    fun _ intent found => ⟨intent, found, intent.later_refl⟩⟩
  · dsimp only at found
    rw [Table.get_put] at found
    split at found
    next same =>
      cases found
      subst same
      change RowOk databaseNow (s.active s.nextId) _
      rw [unused]
      exact rowOk_submitted request
    next => exact inv.rows id row found
  · dsimp only at found ⊢
    rw [Table.get_put] at found
    split at found
    next same => omega
    next =>
      have before := inv.fresh id row found
      omega
  · obtain ⟨row, found, granted⟩ := inv.intents intent mem
    exact ⟨row, kept _ row found, granted⟩

theorem sound_authorize {name bindingHash requestId : String} {requesterId : Int}
    {options : Option ApprovalConsumeOptions} {audited aborted : Bool} : ApprovalSound w
      (w.step (.authorize now name bindingHash requesterId requestId options audited aborted
        commit)) := by
  unfold ApprovalWorld.step
  dsimp only
  rcases @perform_cases _ _ _ (authorize w.databaseNow now name bindingHash requesterId requestId
    options audited aborted) commit w.store with same | ⟨answer, s', ran, done | lost⟩
  · rw [same]
    exact sound_of_store storeSound_refl
  · rw [done]
    have stored := sound_of_store (storeSound_authorize ran)
    obtain ⟨place, ⟨refused, rfl⟩ | ⟨id, row, row', of_name, -, -, rfl⟩⟩ := authorize_cases ran
    · obtain ⟨result, executionId⟩ := answer
      cases result with
      | error failure => exact stored
      | ok u => exact absurd rfl refused
    · obtain ⟨result, executionId⟩ := answer
      cases result with
      | error failure => exact stored
      | ok u =>
        rw [of_name]
        intro inv
        obtain ⟨inv', later⟩ := stored inv
        refine ⟨⟨inv'.store, fun receipt held => ?_⟩, later⟩
        rcases mem_append.mp held with old | new
        · exact inv'.receipts receipt old
        · rw [mem_singleton.mp new]
          dsimp only at place ⊢
          rw [place]
          exact ⟨_, getElem?_concat_length, rfl⟩
  · rw [lost]
    exact sound_of_store (storeSound_authorize ran)

theorem sound_step (w : ApprovalWorld) (event : ApprovalEvent) : ApprovalSound w (w.step event) := by
  cases event with
  | tick elapsed => exact sound_tick elapsed
  | submit request now => exact sound_of_submissions
  | lock i =>
    dsimp only [ApprovalWorld.step]
    split
    · split
      · exact sound_of_submissions
      · exact refl_of ApprovalSound w
    · exact refl_of ApprovalSound w
  | look i =>
    dsimp only [ApprovalWorld.step]
    split
    · split
      · split
        · exact sound_of_submissions
        · exact sound_of_submissions
      · exact refl_of ApprovalSound w
    · exact refl_of ApprovalSound w
  | insert i =>
    dsimp only [ApprovalWorld.step]
    split
    next submission _ =>
      split
      · exact trans_of ApprovalSound sound_of_submissions
          (sound_of_store (storeSound_insert submission.request))
      · exact refl_of ApprovalSound w
    next => exact refl_of ApprovalSound w
  | unlock i =>
    dsimp only [ApprovalWorld.step]
    split
    · exact sound_of_submissions
    · exact refl_of ApprovalSound w
  | review name reviewerId action scope => exact sound_of_store storeSound_review
  | reviewPendingByTool toolName reviewerId action scope commit =>
    exact sound_of_perform fun _ _ => storeSound_reviewPendingByTool
  | authorize => exact sound_authorize
  | release i commit =>
    dsimp only [ApprovalWorld.step]
    split
    next receipt held =>
      intro inv
      have owned := inv.receipts receipt (mem_of_getElem? held)
      exact sound_of_perform (fun _ _ => storeSound_release owned) inv
    next => exact refl_of ApprovalSound w
  | finish i commit =>
    dsimp only [ApprovalWorld.step]
    split
    · exact sound_of_perform fun _ _ => storeSound_finish
    · exact refl_of ApprovalSound w

theorem approvalInv_run (databaseNow : Int) (events : List ApprovalEvent) :
    ApprovalInv (runApprovals (.start databaseNow) events) := by
  have start : ApprovalInv (.start databaseNow) := by
    refine ⟨⟨fun id row found => ?_, fun id row found => ?_, nofun⟩, nofun⟩
    · cases (Table.get_empty id).symm.trans found
    · cases (Table.get_empty id).symm.trans found
  exact (related_of_initial sound_step (List.nil_prefix (l := events)) start).1

theorem storeLater_of_initial {earlier events : List ApprovalEvent} (before : earlier <+: events)
    (start : ApprovalInv (runApprovals w earlier)) :
    StoreLater (runApprovals w earlier).store (runApprovals w events).store :=
  (related_of_initial sound_step before start).2

/-! ## What a receipt gives back -/

/-- The callback `releaseBeforeHandler` of the receipt, called now, changes something. -/
def GivesBack (w : ApprovalWorld) (i : Nat) (commit : Commit) (receipt : Receipt) : Prop :=
  w.receipts[i]? = some receipt ∧ (w.step (.release i commit)).store ≠ w.store

theorem GivesBack.cases {i : Nat} {receipt : Receipt} (inv : ApprovalInv w)
    (gives : GivesBack w i commit receipt) : ∃ intent,
      w.store.intents[receipt.executionId]? = some intent ∧ intent.state = .dispatching ∧
      (w.step (.release i commit)).store.intents[receipt.executionId]? =
        some { intent with state := .released } ∧
      ∀ id, (w.step (.release i commit)).store.active id +
        (if id = receipt.approvalId then 1 else 0) = w.store.active id := by
  obtain ⟨held, changed⟩ := gives
  obtain ⟨intent, found, of_id⟩ := inv.receipts receipt (mem_of_getElem? held)
  have stepped : (w.step (.release i commit)).store =
      (perform (releaseBeforeHandler receipt.approvalId receipt.executionId) commit w.store).2 := by
    dsimp only [ApprovalWorld.step]
    rw [held]
  rw [stepped] at changed ⊢
  rcases settleIntent_cases w.store.intents receipt.executionId .released with
    ⟨intent', found', dispatching, settled⟩ | same
  · cases found'.symm.trans found
    have ran : ∃ approvals, releaseBeforeHandler receipt.approvalId receipt.executionId w.store =
        .ok (true, ⟨approvals, w.store.intents.set receipt.executionId
          { intent with state := .released }, w.store.nextId⟩) := by
      unfold releaseBeforeHandler
      dsimp only
      rw [settled]
      exact ⟨_, rfl⟩
    obtain ⟨approvals, ran⟩ := ran
    have after : (perform (releaseBeforeHandler receipt.approvalId receipt.executionId) commit
        w.store).2 = ⟨approvals, w.store.intents.set receipt.executionId
          { intent with state := .released }, w.store.nextId⟩ := by
      rcases @perform_cases _ _ _ (releaseBeforeHandler receipt.approvalId receipt.executionId) commit
        w.store with same | ⟨a, s', ran', done | lost⟩
      · exact absurd (congrArg Prod.snd same) changed
      · cases ran.symm.trans ran'
        rw [done]
      · cases ran.symm.trans ran'
        rw [lost]
    rw [after]
    refine ⟨intent, found, dispatching, List.getElem?_set_self
      (List.getElem?_eq_some_iff.mp found).1, fun id => ?_⟩
    have counted := active_settle approvals .released found dispatching id
    have same : (intent.approvalId = id ∧ IntentState.released = .released) ↔
        id = receipt.approvalId := by
      rw [of_id]
      exact ⟨fun both => both.1.symm, fun same => ⟨same.symm, rfl⟩⟩
    rwa [if_congr same rfl rfl] at counted
  · refine absurd ?_ changed
    have nothing : releaseBeforeHandler receipt.approvalId receipt.executionId w.store =
        .ok (false, w.store) := by
      unfold releaseBeforeHandler
      dsimp only
      rw [same]
      rfl
    unfold perform
    rw [nothing]
    cases commit <;> rfl

theorem not_givesBack_of_settled {earlier events : List ApprovalEvent} {i : Nat} {receipt : Receipt}
    (before : earlier <+: events) (start : ApprovalInv (runApprovals w earlier))
    (found : (runApprovals w earlier).store.intents[receipt.executionId]? = some intent)
    (settled : intent.state ≠ .dispatching) :
    ¬ GivesBack (runApprovals w events) i commit receipt := by
  intro gives
  obtain ⟨inv, later⟩ := related_of_initial sound_step before start
  obtain ⟨intent', found', after⟩ := later.intents _ intent found
  cases after.settled settled
  obtain ⟨intent'', found'', dispatching, -⟩ := gives.cases inv
  cases found'.symm.trans found''
  exact settled dispatching

/-- The approvals are used as they were reviewed. -/
structure AuthorizesReviewed (store : ApprovalStore) : Prop where
  once : ∀ id row, store.approvals.get id = some row → row.scope = .once → store.active id ≤ 1
  high : ∀ id row, store.approvals.get id = some row → row.riskLevel = .high → row.scope = .once
  counted : ∀ id row, store.approvals.get id = some row → row.scope ≠ .once →
    store.active id = row.usedCount ∧ row.usedCount ≤ row.maxUses
  granted : ∀ intent ∈ store.intents, ∃ row, store.approvals.get intent.approvalId = some row ∧
    GrantedFor intent row
  rejected : ∀ id row, store.approvals.get id = some row → row.status = .rejected →
    ∀ intent ∈ store.intents, intent.approvalId ≠ id

theorem StoreInv.authorizesReviewed (inv : StoreInv databaseNow s) : AuthorizesReviewed s := by
  refine ⟨fun id row found => (inv.rows id row found).once, fun id row found =>
    (inv.rows id row found).high, fun id row found reusable => ?_, inv.intents,
    fun id row found rejected intent mem of_id => ?_⟩
  · obtain ⟨counted, most⟩ := (inv.rows id row found).counted reusable
    exact ⟨counted, counted ▸ most⟩
  · obtain ⟨row', found', granted⟩ := inv.intents intent mem
    rw [of_id] at found'
    cases found.symm.trans found'
    rcases granted.granted with approved | consumed
    · cases rejected.symm.trans approved
    · cases rejected.symm.trans consumed

/-- A run in which every approval authorizes no more than was reviewed. -/
structure ReviewedRun (databaseNow : Int) (events : List ApprovalEvent) : Prop where
  authorizes : AuthorizesReviewed (runApprovals (.start databaseNow) events).store
  rejected : ∀ earlier, earlier <+: events → ∀ id row,
    (runApprovals (.start databaseNow) earlier).store.approvals.get id = some row →
    row.status = .rejected →
    ∀ intent ∈ (runApprovals (.start databaseNow) events).store.intents, intent.approvalId ≠ id
  gives : ∀ i commit receipt, GivesBack (runApprovals (.start databaseNow) events) i commit receipt →
    ∀ id, (runApprovals (.start databaseNow) (events ++ [.release i commit])).store.active id +
      (if id = receipt.approvalId then 1 else 0) =
        (runApprovals (.start databaseNow) events).store.active id
  gives_once : ∀ earlier i j commit commit' receipt, earlier ++ [.release i commit] <+: events →
    GivesBack (runApprovals (.start databaseNow) earlier) i commit receipt →
    ¬ GivesBack (runApprovals (.start databaseNow) events) j commit' receipt
  finished : ∀ earlier, earlier <+: events → ∀ receipt intent,
    (runApprovals (.start databaseNow) earlier).store.intents[receipt.executionId]? = some intent →
    intent.state = .finished →
    ∀ i commit, ¬ GivesBack (runApprovals (.start databaseNow) events) i commit receipt

theorem authorizes_reviewed (databaseNow : Int) (events : List ApprovalEvent) :
    ReviewedRun databaseNow events := by
  have inv (es : List ApprovalEvent) := approvalInv_run databaseNow es
  have authorizes := (inv events).store.authorizesReviewed
  refine ⟨authorizes, fun earlier before id row found rejected => ?_, fun i commit receipt gives => ?_,
    fun earlier i j commit commit' receipt before gives => ?_,
    fun earlier before receipt intent found finished i commit => ?_⟩
  · obtain ⟨row', found', later⟩ := (storeLater_of_initial before (inv earlier)).rows id row found
    exact authorizes.rejected id row' found' (later.rejected rejected)
  · obtain ⟨intent, -, -, -, counted⟩ := gives.cases (inv events)
    unfold runApprovals
    rw [foldl_append]
    exact counted
  · obtain ⟨intent, -, -, released, -⟩ := gives.cases (inv earlier)
    have found : (runApprovals (.start databaseNow)
        (earlier ++ [.release i commit])).store.intents[receipt.executionId]? =
          some { intent with state := .released } := by
      unfold runApprovals
      rw [foldl_append]
      exact released
    exact not_givesBack_of_settled before (inv _) found nofun
  · refine not_givesBack_of_settled before (inv earlier) found ?_
    rw [finished]
    nofun

end Slide.Security
