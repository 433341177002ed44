import Slide.Actions.Executions
import Slide.Library.Keyed

/-!
# What the transactions leave of the executions

* `TablesInv`: executions do not share approvals or request keys, and the dispatch locks are those of the
  executions that are not closed.
* `Follows`: what may become of one execution; `Moves`: of all of them in a transaction.
* One lemma for each transaction, that it moves.
-/

namespace Slide.Actions.Dispatch

open Transaction List

/-! ## The invariant -/

/-- What no update of an execution changes. -/
def ExecutionRecord.keys (e : ExecutionRecord) : String × String × Nat × Nat × String × Nat × String :=
  (e.id, e.planId, e.planVersion, e.approvalId, e.operationId, e.actorId, e.requestKey)

/-- The keys of the locks that an execution holds until it is closed. -/
def Tables.lockOf (t : Tables) (e : ExecutionRecord) (key : LockKey) : Prop :=
  key = .global ∨ ∃ plan, t.version? e.planId e.planVersion = some plan ∧ key = .server plan.content.target

/-- Executions have keys of their own, a plan, and an approval that is consumed. -/
structure RowsInv (t : Tables) : Prop where
  ids : (t.executions.map (·.id)).Nodup
  approvals : (t.executions.map (·.approvalId)).Nodup
  requests : (t.executions.map fun e => (e.actorId, e.requestKey)).Nodup
  operation : ∀ e ∈ t.executions, e.operationId = e.id
  planned : ∀ e ∈ t.executions, ∃ plan, t.version? e.planId e.planVersion = some plan
  consumed : ∀ e ∈ t.executions, ∃ a ∈ t.approvals, a.id = e.approvalId ∧ a.status = .consumed

/-- The locks that are taken are those of the executions that are not closed. -/
structure TablesInv (t : Tables) : Prop extends RowsInv t where
  held : ∀ e ∈ t.executions, e.state.closed = false → ∀ key, t.lockOf e key → t.locks key = some e.id
  holder : ∀ key id, t.locks key = some id →
    ∃ e ∈ t.executions, e.id = id ∧ e.state.closed = false ∧ t.lockOf e key

/-- What becomes of one execution: the end of a sent one needs a final effect. -/
structure Follows (final : List String) (e e' : ExecutionRecord) : Prop where
  id : e'.id = e.id
  closed : e.state.closed = true → e' = e
  early : e'.state.early = true → e.state.early = true
  sent : e.state.early = false → e'.sentAt = e.sentAt
  closes : e'.state.closed = true → e.state.closed = true ∨ e.state.early = true ∨ e.id ∈ final

section Moves

variable {final : List String} {e e' e'' : ExecutionRecord} {t t' t'' : Tables} {id : String}

theorem Follows.refl (e : ExecutionRecord) : Follows final e e :=
  ⟨rfl, fun _ => rfl, fun early => early, fun _ => rfl, .inl⟩

theorem Follows.trans (first : Follows final e e') (next : Follows final e' e'') : Follows final e e'' where
  id := next.id.trans first.id
  closed closed := by
    have same := first.closed closed
    subst same
    exact next.closed closed
  early early := first.early (next.early early)
  sent sent := by
    cases early : e'.state.early with
    | true => exact absurd (first.early early) (by rw [sent]; exact Bool.false_ne_true)
    | false => exact (next.sent early).trans (first.sent sent)
  closes closed := by
    rcases next.closes closed with closed | early | final
    · exact first.closes closed
    · exact .inr (.inl (first.early early))
    · exact .inr (.inr (first.id ▸ final))

/-- What a transaction leaves of the executions. -/
structure Moves (final : List String) (t t' : Tables) : Prop where
  inv : TablesInv t'
  rows : ∀ e ∈ t.executions, ∃ e' ∈ t'.executions, Follows final e e'

theorem Moves.refl (inv : TablesInv t) : Moves final t t :=
  ⟨inv, fun e mem => ⟨e, mem, .refl e⟩⟩

theorem Moves.trans (first : Moves final t t') (next : Moves final t' t'') : Moves final t t'' := by
  refine ⟨next.inv, fun e mem => ?_⟩
  obtain ⟨e', mem', follows⟩ := first.rows e mem
  obtain ⟨e'', mem'', follows'⟩ := next.rows e' mem'
  exact ⟨e'', mem'', follows.trans follows'⟩

theorem execution?_eq_some (inv : TablesInv t) : t.execution? id = some e ↔ e ∈ t.executions ∧ e.id = id :=
  Keyed.find?_eq_some_iff inv.ids

section Map

variable {g : ExecutionRecord → ExecutionRecord}

theorem lockOf_of_keys {locks : LockKey → Option String} {rows : List ExecutionRecord} {key : LockKey}
    (keys : e'.keys = e.keys) :
    ({ t with executions := rows, locks := locks } : Tables).lockOf e' key ↔ t.lockOf e key := by
  have plan : e'.planId = e.planId := congrArg (·.2.1) keys
  have version : e'.planVersion = e.planVersion := congrArg (·.2.2.1) keys
  unfold Tables.lockOf
  rw [plan, version]
  rfl

theorem RowsInv.map {locks : LockKey → Option String} (inv : RowsInv t)
    (keys : ∀ e ∈ t.executions, (g e).keys = e.keys) :
    RowsInv { t with executions := t.executions.map g, locks := locks } := by
  have same {α : Type} (f : ExecutionRecord → α) (eq : ∀ e ∈ t.executions, f (g e) = f e) :
      (t.executions.map g).map f = t.executions.map f := by
    rw [map_map]
    exact map_congr_left eq
  refine ⟨?_, ?_, ?_, ?_, ?_, ?_⟩
  · rw [same _ fun e mem => congrArg (·.1) (keys e mem)]
    exact inv.ids
  · rw [same _ fun e mem => congrArg (·.2.2.2.1) (keys e mem)]
    exact inv.approvals
  · rw [same _ fun e mem => congrArg (fun k => (k.2.2.2.2.2.1, k.2.2.2.2.2.2)) (keys e mem)]
    exact inv.requests
  · intro e' mem'
    obtain ⟨e, mem, rfl⟩ := mem_map.mp mem'
    have id_ : (g e).id = e.id := congrArg (·.1) (keys e mem)
    rw [id_, ← inv.operation e mem]
    exact congrArg (·.2.2.2.2.1) (keys e mem)
  · intro e' mem'
    obtain ⟨e, mem, rfl⟩ := mem_map.mp mem'
    have plan : (g e).planId = e.planId := congrArg (·.2.1) (keys e mem)
    have version : (g e).planVersion = e.planVersion := congrArg (·.2.2.1) (keys e mem)
    rw [plan, version]
    exact inv.planned e mem
  · intro e' mem'
    obtain ⟨e, mem, rfl⟩ := mem_map.mp mem'
    have approval : (g e).approvalId = e.approvalId := congrArg (·.2.2.2.1) (keys e mem)
    rw [approval]
    exact inv.consumed e mem

theorem TablesInv.map (inv : TablesInv t) (keys : ∀ e ∈ t.executions, (g e).keys = e.keys)
    (closed : ∀ e ∈ t.executions, (g e).state.closed = e.state.closed) :
    TablesInv { t with executions := t.executions.map g } := by
  refine ⟨inv.toRowsInv.map keys, ?_, ?_⟩
  · intro e' mem' open_ key lock
    obtain ⟨e, mem, rfl⟩ := mem_map.mp mem'
    have id_ : (g e).id = e.id := congrArg (·.1) (keys e mem)
    rw [closed e mem] at open_
    rw [id_]
    exact inv.held e mem open_ key ((lockOf_of_keys (keys e mem)).mp lock)
  · intro key id lock
    obtain ⟨e, mem, rfl, open_, of⟩ := inv.holder key id lock
    exact ⟨g e, mem_map_of_mem mem, congrArg (·.1) (keys e mem), (closed e mem).trans open_,
      (lockOf_of_keys (keys e mem)).mpr of⟩

theorem Moves.map {g : ExecutionRecord → ExecutionRecord} (inv : TablesInv t)
    (keys : ∀ e ∈ t.executions, (g e).keys = e.keys)
    (closed : ∀ e ∈ t.executions, (g e).state.closed = e.state.closed)
    (follows : ∀ e ∈ t.executions, Follows final e (g e)) :
    Moves final t { t with executions := t.executions.map g } :=
  ⟨inv.map keys closed, fun e mem => ⟨g e, mem_map_of_mem mem, follows e mem⟩⟩

end Map

theorem Moves.update {f : ExecutionRecord → ExecutionRecord} (inv : TablesInv t)
    (found : t.execution? id = some e) (keys : (f e).keys = e.keys)
    (closed : (f e).state.closed = e.state.closed) (follows : Follows final e (f e)) :
    Moves final t (t.update id f) := by
  have one (r) (mem : r ∈ t.executions) (of : r.id = id) : r = e := by
    obtain ⟨inside, same⟩ := (execution?_eq_some inv).mp found
    exact inj_on_of_nodup_map inv.ids mem inside (of.trans same.symm)
  refine .map inv (fun r mem => ?_) (fun r mem => ?_) fun r mem => ?_
  · split
    · rw [one r mem ‹_›]
      exact keys
    · rfl
  · split
    · rw [one r mem ‹_›]
      exact closed
    · rfl
  · split
    · rw [one r mem ‹_›]
      exact follows
    · exact .refl r

theorem Moves.close {f : ExecutionRecord → ExecutionRecord} (inv : TablesInv t)
    (found : t.execution? id = some e) (keys : ∀ r, (f r).keys = r.keys) (closed : ∀ r, (f r).state.closed = true)
    (follows : Follows final e (f e)) :
    Moves final t ((t.update id f).unlock id) := by
  obtain ⟨inside, of⟩ := (execution?_eq_some inv).mp found
  have one (r) (mem : r ∈ t.executions) (same : r.id = id) : r = e :=
    inj_on_of_nodup_map inv.ids mem inside (same.trans of.symm)
  have keys' (r : ExecutionRecord) : (if r.id = id then f r else r).keys = r.keys := by
    split
    · exact keys r
    · rfl
  refine ⟨⟨inv.toRowsInv.map fun r _ => keys' r, ?_, ?_⟩, fun r mem => ?_⟩
  · intro r' mem' open' key lock
    obtain ⟨r, mem, rfl⟩ := mem_map.mp mem'
    have lock' : t.lockOf r key := (lockOf_of_keys (keys' r)).mp lock
    by_cases same : r.id = id
    · rw [if_pos same, closed] at open'
      cases open'
    · rw [if_neg same] at open' ⊢
      have held := inv.held r mem open' key lock'
      refine (if_neg fun taken => ?_).trans held
      exact same (some.inj (held.symm.trans taken))
  · intro key id' lock
    have lock : (if t.locks key = some id then none else t.locks key) = some id' := lock
    split at lock
    · cases lock
    · rename_i other
      obtain ⟨r, mem, rfl, open', of'⟩ := inv.holder key id' lock
      have ne : r.id ≠ id := fun same => other (same ▸ lock)
      refine ⟨r, mem_map.mpr ⟨r, mem, if_neg ne⟩, rfl, open', ?_⟩
      exact (lockOf_of_keys rfl).mpr of'
  · by_cases same : r.id = id
    · refine ⟨f r, mem_map.mpr ⟨r, mem, if_pos same⟩, ?_⟩
      rw [one r mem same]
      exact follows
    · exact ⟨r, mem_map.mpr ⟨r, mem, if_neg same⟩, .refl r⟩

theorem Moves.transition {now : Nat} {state : ExecutionState} {error : Option String}
    {receipt : Option ActionReceipt} (inv : TablesInv t) (found : t.execution? id = some e)
    (open_ : e.state.closed = false) (after : state.early = false) (unsent : state ≠ .dispatching)
    (ends : state.closed = true → e.state.early = true ∨ id ∈ final) :
    Moves final t (t.transition now id state error receipt) := by
  have of : e.id = id := ((execution?_eq_some inv).mp found).2
  have follows : Follows final e (e.moved now state error receipt) := by
    refine ⟨rfl, fun closed => ?_, fun early => ?_, fun _ => if_neg unsent, fun closed => ?_⟩
    · rw [open_] at closed
      cases closed
    · exact absurd (after.symm.trans early) Bool.false_ne_true
    · rw [of]
      exact .inr (ends closed)
  unfold Tables.transition
  cases closed : state.closed with
  | true => exact .close inv found (fun _ => rfl) (fun _ => closed) follows
  | false => exact .update inv found rfl (closed.trans open_.symm) follows

end Moves

/-! ## Transactions on plans and approvals -/

/-- The executions and locks stay, as do consumed approvals and the contents of versions. -/
structure Frame (t t' : Tables) : Prop where
  executions : t'.executions = t.executions
  locks : t'.locks = t.locks
  versions : ∀ id version plan, t.version? id version = some plan →
    ∃ plan', t'.version? id version = some plan' ∧ plan'.content = plan.content
  consumed : ∀ a ∈ t.approvals, a.status = .consumed → a ∈ t'.approvals

section Frames

variable {host : Host} {env : Env} {now : Nat} {final : List String} {t t' t'' : Tables}

theorem Frame.refl (t : Tables) : Frame t t :=
  ⟨rfl, rfl, fun _ _ plan found => ⟨plan, found, rfl⟩, fun _ mem _ => mem⟩

theorem Frame.trans (first : Frame t t') (next : Frame t' t'') : Frame t t'' := by
  refine ⟨next.executions.trans first.executions, next.locks.trans first.locks, ?_, ?_⟩
  · intro id version plan found
    obtain ⟨plan', found', same⟩ := first.versions id version plan found
    obtain ⟨plan'', found'', same'⟩ := next.versions id version plan' found'
    exact ⟨plan'', found'', same'.trans same⟩
  · intro a mem consumed
    exact next.consumed a (first.consumed a mem consumed) consumed

instance : Std.Refl Frame := ⟨Frame.refl⟩

instance : IsTrans Tables Frame := ⟨fun _ _ _ => Frame.trans⟩

theorem Frame.lockOf (frame : Frame t t') {e : ExecutionRecord} {key : LockKey}
    (planned : ∃ plan, t.version? e.planId e.planVersion = some plan) :
    t'.lockOf e key ↔ t.lockOf e key := by
  obtain ⟨plan, found⟩ := planned
  obtain ⟨plan', found', same⟩ := frame.versions _ _ plan found
  unfold Tables.lockOf
  rw [found, found']
  simp only [Option.some.injEq, exists_eq_left', same]

theorem Frame.inv (frame : Frame t t') (inv : TablesInv t) : TablesInv t' where
  ids := frame.executions ▸ inv.ids
  approvals := frame.executions ▸ inv.approvals
  requests := frame.executions ▸ inv.requests
  operation := frame.executions ▸ inv.operation
  planned e mem := by
    obtain ⟨plan, found⟩ := inv.planned e (frame.executions ▸ mem)
    exact (frame.versions _ _ plan found).imp fun _ found' => found'.1
  consumed e mem := by
    obtain ⟨a, inside, id, consumed⟩ := inv.consumed e (frame.executions ▸ mem)
    exact ⟨a, frame.consumed a inside consumed, id, consumed⟩
  held e mem open_ key lock := by
    rw [frame.executions] at mem
    rw [frame.locks]
    exact inv.held e mem open_ key ((frame.lockOf (inv.planned e mem)).mp lock)
  holder key id lock := by
    rw [frame.locks] at lock
    obtain ⟨e, mem, of, open_, lock'⟩ := inv.holder key id lock
    exact ⟨e, frame.executions ▸ mem, of, open_, (frame.lockOf (inv.planned e mem)).mpr lock'⟩

theorem Frame.moves (frame : Frame t t') (inv : TablesInv t) : Moves final t t' :=
  ⟨frame.inv inv, fun e mem => ⟨e, frame.executions ▸ mem, .refl e⟩⟩

/-- A transaction that leaves the executions alone. -/
abbrev Framed {α : Type} (body : Tx α) : Prop := Keeps Frame body

theorem silent_load {id : String} : Keeps Eq (load host id) :=
  .bind .reading fun _ => .bind .need fun _ => .bind .reading fun _ => .bind .need fun _ =>
    .bind .ensure fun _ => .bind .ensure fun _ => .pure

theorem silent_check {plan : ActionPlanVersion} : Keeps Eq (check host env now plan) :=
  .bind (.bind .ensure fun _ => .bind .ensure fun _ => .ensure) fun _ => .ensure

theorem silent_fresh {plan : ActionPlanVersion} : Keeps Eq (fresh host env now plan) :=
  .bind (.bind .ensure fun _ => .bind .ensure fun _ => .ensure) fun _ => .ensure

theorem silent_expected {expected actual : Nat} : Keeps Eq (assertExpectedVersion expected actual) :=
  .bind .ensure fun _ => .ensure

theorem silent_approval {plan : ActionPlanVersion} {id : Nat} : Keeps Eq (approval host env now plan id) :=
  .bind .reading fun _ => .bind .ensure fun _ => .bind .need fun _ => .bind .ensure fun _ =>
    .bind .ensure fun _ => .bind .ensure fun _ => .bind .ensure fun _ => .bind .ensure fun _ =>
      .bind silent_check fun _ => .pure

theorem framed_versions {f : ActionPlanVersion → ActionPlanVersion}
    (keeps : ∀ p, (f p).id = p.id ∧ (f p).version = p.version ∧ (f p).content = p.content) :
    Framed (write fun t => { t with versions := t.versions.map f }) := by
  refine .write fun t => ⟨rfl, rfl, fun id version plan found => ?_, fun _ mem _ => mem⟩
  refine ⟨f plan, ?_, (keeps plan).2.2⟩
  rw [Tables.version?, find?_map]
  have same : ((fun p : ActionPlanVersion => decide (p.id = id) && decide (p.version = version)) ∘ f) =
      fun p => decide (p.id = id) && decide (p.version = version) := by
    funext p
    rw [Function.comp_apply, (keeps p).1, (keeps p).2.1]
  rw [same]
  exact congrArg (Option.map f) found

theorem framed_setState {id : String} {version : Nat} {state : PlanState} :
    Framed (setState id version state) := by
  apply framed_versions
  intro p
  split
  · exact ⟨rfl, rfl, rfl⟩
  · exact ⟨rfl, rfl, rfl⟩

theorem framed_insertVersion {plan : ActionPlanVersion} : Framed (insertVersion plan) := by
  refine .bind .reading fun _ => .bind .ensure fun _ => .write fun t => ?_
  refine ⟨rfl, rfl, fun id version plan' found => ⟨plan', ?_, rfl⟩, fun _ mem _ => mem⟩
  rw [Tables.version?, find?_append]
  exact Option.or_eq_some_iff.mpr (.inl found)

theorem framed_approvals {f : Tables → Approval → Approval}
    (keeps : ∀ t a, a.status = .consumed → f t a = a) :
    Framed (write fun t => { t with approvals := t.approvals.map (f t) }) := by
  refine .write fun t => ⟨rfl, rfl, fun _ _ plan found => ⟨plan, found, rfl⟩, fun a mem consumed => ?_⟩
  exact mem_map.mpr ⟨a, mem, keeps t a consumed⟩

theorem framed_write {f : Tables → Tables} (executions : ∀ t, (f t).executions = t.executions)
    (locks : ∀ t, (f t).locks = t.locks) (versions : ∀ t, (f t).versions = t.versions)
    (approvals : ∀ t, (f t).approvals = t.approvals) : Framed (write f) := by
  refine .write fun t => ⟨executions t, locks t, fun id version plan found => ⟨plan, ?_, rfl⟩, fun a mem _ => ?_⟩
  · rw [Tables.version?, versions t]
    exact found
  · rw [approvals t]
    exact mem

theorem framed_insertFirst {plan : ActionPlanVersion} : Framed (insertFirst plan) := by
  refine .bind .reading fun _ => .bind .ensure fun _ => .bind ?_ fun _ => framed_insertVersion
  exact framed_write (fun _ => rfl) (fun _ => rfl) (fun _ => rfl) fun _ => rfl

theorem framed_insertNext {plan previous : ActionPlanVersion} : Framed (insertNext plan previous) := by
  refine .bind framed_setState fun _ => .bind ?_ fun _ => .bind .reading fun _ => .bind ?_ fun _ =>
    .bind .ensure fun _ => framed_insertVersion
  · apply framed_approvals
    intro t a consumed
    have closed : a.isOpen = false := by simp [Approval.isOpen, consumed]
    rw [Approval.expire, closed, Bool.false_and]
    exact if_neg Bool.false_ne_true
  · exact framed_write (fun _ => rfl) (fun _ => rfl) (fun _ => rfl) fun _ => rfl

theorem framed_create {id : String} {content : PlanContent} : Framed (create host env now id content) :=
  .bind .ensure fun _ => .bind .ensure fun _ => .bind (.of_eq silent_check) fun _ =>
    .bind framed_insertFirst fun _ => .bind (.of_eq silent_fresh) fun _ => .pure

variable {planId : String} {expectedVersion : Nat}

theorem framed_revise {content : PlanContent} :
    Framed (revise host env now planId expectedVersion content) :=
  .bind .ensure fun _ => .bind (.of_eq silent_load) fun _ => .bind (.of_eq silent_expected) fun _ => .bind .ensure fun _ =>
    .bind .ensure fun _ => .bind (.of_eq silent_check) fun _ => .bind framed_insertNext fun _ =>
      .bind (.of_eq silent_fresh) fun _ => .pure

variable {approvalId : Nat}

theorem framed_submit {caller : ActorContext} :
    Framed (submit host env now caller planId expectedVersion approvalId) := by
  refine .bind .ensure fun _ => .bind (.of_eq silent_load) fun _ => .bind (.of_eq silent_expected) fun _ =>
    .bind .ensure fun _ => .bind .ensure fun _ => .bind (.of_eq silent_check) fun _ => .bind .need fun _ =>
      .bind .reading fun _ => .bind .ensure fun _ => .bind ?_ fun _ => .bind framed_setState fun _ =>
        .bind (.of_eq silent_fresh) fun _ => .pure
  refine .write fun t => ⟨rfl, rfl, fun _ _ plan found => ⟨plan, found, rfl⟩, fun a mem _ => ?_⟩
  exact mem_append_left _ mem

theorem framed_bindIf {approve : Bool} {plan : ActionPlanVersion} {row : Approval} {reviewerId : Nat} :
    Framed (bindIf approve plan row reviewerId) := by
  unfold bindIf
  split
  · refine .bind .reading fun _ => .bind .ensure fun _ => .bind .ensure fun _ => ?_
    exact framed_write (fun _ => rfl) (fun _ => rfl) (fun _ => rfl) fun _ => rfl
  · exact .pure

theorem framed_review {caller : ActorContext}
    {approve : Bool} : Framed (review host env now caller planId expectedVersion approvalId approve) := by
  refine .bind .ensure fun _ => .bind (.of_eq silent_load) fun _ => .bind (.of_eq silent_expected) fun _ =>
    .bind .ensure fun _ => .bind (.of_eq silent_approval) fun _ => .bind .ensure fun _ =>
      .bind (.of_eq silent_check) fun _ => .bind .need fun _ => .bind ?_ fun _ => .bind framed_bindIf fun _ =>
        .bind framed_setState fun _ => (.of_eq silent_fresh)
  apply framed_approvals
  intro t a consumed
  exact if_neg fun pending => by cases consumed.symm.trans pending.2

theorem framed_consume : Framed (consume host env now planId expectedVersion approvalId) := by
  refine .bind .ensure fun _ => .bind (.of_eq silent_load) fun _ => .bind (.of_eq silent_expected) fun _ =>
    .bind .ensure fun _ => .bind (.of_eq silent_approval) fun _ => .bind .ensure fun _ => .bind .ensure fun _ =>
      .bind (.of_eq silent_check) fun _ => .bind .reading fun _ => .bind .need fun _ => .bind .ensure fun _ =>
        .bind .reading fun _ => .bind ?_ fun _ => .bind .ensure fun _ => .bind ?_ fun _ => .pure
  · apply framed_approvals
    intro t a consumed
    refine if_neg fun usable => ?_
    simp [Approval.usable, consumed] at usable
  · exact framed_write (fun _ => rfl) (fun _ => rfl) (fun _ => rfl) fun _ => rfl

end Frames

/-! ## Transactions on executions -/

section Executions

variable {host : Host} {env : Env} {now : Nat} {final : List String} {t t' : Tables} {id : String}
  {e : ExecutionRecord} {plan : ActionPlanVersion} {lease : ExecutionLease}

theorem version?_eq_some {version : Nat} (found : t.version? id version = some plan) :
    plan.id = id ∧ plan.version = version := by
  have holds := find?_some (p := fun p : ActionPlanVersion => decide (p.id = id) && decide (p.version = version))
    found
  rwa [Bool.and_eq_true, decide_eq_true_eq, decide_eq_true_eq] at holds

theorem load_ok (ran : load host id t = .ok (plan, t')) :
    t' = t ∧ ∃ head, t.head? id = some head ∧ t.version? id head.currentVersion = some plan := by
  have ran := reading_bind_ok.mp ran
  obtain ⟨head, found, ran⟩ := need_bind_ok.mp ran
  have ran := reading_bind_ok.mp ran
  obtain ⟨row, version, ran⟩ := need_bind_ok.mp ran
  obtain ⟨-, ran⟩ := ensure_bind_ok.mp ran
  obtain ⟨-, ran⟩ := ensure_bind_ok.mp ran
  obtain ⟨rfl, rfl⟩ := pure_ok.mp ran
  exact ⟨rfl, head, found, version⟩

theorem loadExecution_bind_ok {α : Type} {f : ExecutionRecord → Tx α} {a : α}
    (ran : (loadExecution id >>= f) t = .ok (a, t')) :
    ∃ e, t.execution? id = some e ∧ f e t = .ok (a, t') := by
  obtain ⟨e, t₁, loaded, ran⟩ := bind_ok.mp ran
  cases found : t.execution? id with
  | none =>
    have failed : loadExecution id t = .error .notFound := by
      show need (t.execution? id) _ t = _
      rw [found]
      rfl
    rw [failed] at loaded
    cases loaded
  | some row =>
    have same : loadExecution id t = .ok (row, t) := by
      show need (t.execution? id) _ t = _
      rw [found]
      rfl
    rw [same] at loaded
    cases loaded
    exact ⟨_, rfl, ran⟩

theorem consume_ok {planId : String} {expectedVersion approvalId : Nat}
    (ran : consume host env now planId expectedVersion approvalId t = .ok (plan, t')) :
    Frame t t' ∧ t'.version? plan.id plan.version = some plan ∧
      ∃ a ∈ t'.approvals, a.id = approvalId ∧ a.status = .consumed := by
  have framed := framed_consume t plan t' ran
  obtain ⟨-, ran⟩ := ensure_bind_ok.mp ran
  obtain ⟨loaded, first, ran⟩ := silent_load.bind_ok ran
  obtain ⟨-, head, -, version⟩ := load_ok first
  obtain ⟨_, -, ran⟩ := silent_expected.bind_ok ran
  obtain ⟨-, ran⟩ := ensure_bind_ok.mp ran
  obtain ⟨row, -, ran⟩ := silent_approval.bind_ok ran
  obtain ⟨-, ran⟩ := ensure_bind_ok.mp ran
  obtain ⟨-, ran⟩ := ensure_bind_ok.mp ran
  obtain ⟨_, -, ran⟩ := silent_check.bind_ok ran
  have ran := reading_bind_ok.mp ran
  obtain ⟨binding, -, ran⟩ := need_bind_ok.mp ran
  obtain ⟨-, ran⟩ := ensure_bind_ok.mp ran
  have ran := reading_bind_ok.mp ran
  have ran := write_bind_ok.mp ran
  obtain ⟨used, ran⟩ := ensure_bind_ok.mp ran
  have ran := write_bind_ok.mp ran
  obtain ⟨rfl, rfl⟩ := pure_ok.mp ran
  obtain ⟨rfl, at_⟩ := version?_eq_some version
  refine ⟨framed, at_ ▸ version, ?_⟩
  obtain ⟨a, mem, usable⟩ := countP_pos_iff.mp (used ▸ Nat.one_pos)
  refine ⟨_, mem_map_of_mem mem, ?_⟩
  rw [if_pos usable]
  refine ⟨?_, rfl⟩
  simp only [Approval.usable, Bool.and_eq_true, decide_eq_true_eq] at usable
  exact usable.1.1.1

theorem TablesInv.closed_of_free (inv : TablesInv t) (free : t.locks .global = none) (mem : e ∈ t.executions) :
    e.state.closed = true := by
  cases closed : e.state.closed with
  | true => rfl
  | false =>
    have held := inv.held e mem closed .global (.inl rfl)
    rw [free] at held
    cases held

theorem Moves.enqueue {row : ExecutionRecord} (inv : TablesInv t) (free : t.locks .global = none)
    (unique : ∀ e ∈ t.executions, e.clashes row = false) (queued : row.state = .queued)
    (operation : row.operationId = row.id) (planned : t.version? row.planId row.planVersion = some plan)
    (consumed : ∃ a ∈ t.approvals, a.id = row.approvalId ∧ a.status = .consumed) :
    Moves final t { t with
      executions := t.executions ++ [row]
      locks := Function.update (Function.update t.locks .global (some row.id))
        (.server plan.content.target) (some row.id) } := by
  have distinct (e) (mem : e ∈ t.executions) : e.id ≠ row.id ∧ e.approvalId ≠ row.approvalId ∧
      ¬ (e.actorId = row.actorId ∧ e.requestKey = row.requestKey) := by
    have no := unique e mem
    simp only [ExecutionRecord.clashes, Bool.or_eq_false_iff, Bool.and_eq_false_imp, decide_eq_false_iff_not,
      decide_eq_true_eq] at no
    exact ⟨no.1.1.1, no.1.1.2, fun same => no.1.2 same.1 same.2⟩
  have nodup {α : Type} (f : ExecutionRecord → α) (before : (t.executions.map f).Nodup)
      (other : ∀ e ∈ t.executions, f e ≠ f row) : ((t.executions ++ [row]).map f).Nodup := by
    rw [map_append, map_singleton, nodup_append]
    refine ⟨before, nodup_singleton _, fun a mem b last => ?_⟩
    obtain ⟨e, inside, rfl⟩ := mem_map.mp mem
    rw [mem_singleton.mp last]
    exact other e inside
  refine ⟨⟨⟨?_, ?_, ?_, ?_, ?_, ?_⟩, ?_, ?_⟩, fun e mem => ⟨e, mem_append_left _ mem, .refl e⟩⟩
  · exact nodup _ inv.ids fun e mem => (distinct e mem).1
  · exact nodup _ inv.approvals fun e mem => (distinct e mem).2.1
  · exact nodup _ inv.requests fun e mem same =>
      (distinct e mem).2.2 ⟨congrArg Prod.fst same, congrArg Prod.snd same⟩
  · intro e mem
    rcases mem_append.mp mem with mem | mem
    · exact inv.operation e mem
    · rw [mem_singleton.mp mem, operation]
  · intro e mem
    rcases mem_append.mp mem with mem | mem
    · exact inv.planned e mem
    · rw [mem_singleton.mp mem]
      exact ⟨plan, planned⟩
  · intro e mem
    rcases mem_append.mp mem with mem | mem
    · exact inv.consumed e mem
    · rw [mem_singleton.mp mem]
      exact consumed
  · intro e mem open_ key lock
    rcases mem_append.mp mem with mem | mem
    · exact absurd (inv.closed_of_free free mem) (by rw [open_]; exact Bool.false_ne_true)
    · rw [mem_singleton.mp mem] at lock ⊢
      dsimp only
      rcases lock with rfl | ⟨plan', found, rfl⟩
      · rw [Function.update_of_ne LockKey.noConfusion, Function.update_self]
      · obtain rfl := some.inj (planned.symm.trans found)
        rw [Function.update_self]
  · intro key id lock
    have mine : row ∈ t.executions ++ [row] := mem_append_right _ (mem_singleton.mpr rfl)
    have open_ : row.state.closed = false := by
      rw [queued]
      rfl
    dsimp only at lock ⊢
    by_cases server : key = .server plan.content.target
    · subst server
      rw [Function.update_self] at lock
      exact ⟨row, mine, some.inj lock, open_, .inr ⟨plan, planned, rfl⟩⟩
    · rw [Function.update_of_ne server] at lock
      by_cases global : key = .global
      · subst global
        rw [Function.update_self] at lock
        exact ⟨row, mine, some.inj lock, open_, .inl rfl⟩
      · rw [Function.update_of_ne global] at lock
        obtain ⟨e, mem, -, open', -⟩ := inv.holder key id lock
        exact absurd (inv.closed_of_free free mem) (by rw [open']; exact Bool.false_ne_true)

variable {u : Unit}

theorem takeLock_ok {key : LockKey} (ran : takeLock id key t = .ok (u, t')) :
    t.locks key = none ∧ t' = { t with locks := Function.update t.locks key (some id) } := by
  have ran := reading_bind_ok.mp ran
  obtain ⟨free, ran⟩ := ensure_bind_ok.mp ran
  exact ⟨free, write_ok.mp ran⟩

theorem enqueue_moves {actor : ActorContext} {command : ExecuteCommand} (inv : TablesInv t)
    (ran : enqueue host env now actor command id t = .ok (e, t')) : Moves final t t' := by
  obtain ⟨plan, t₁, consumed, ran⟩ := bind_ok.mp ran
  obtain ⟨frame, planned, approval⟩ := consume_ok consumed
  have ran := reading_bind_ok.mp ran
  obtain ⟨unique, ran⟩ := ensure_bind_ok.mp ran
  have ran := write_bind_ok.mp ran
  obtain ⟨_, t₂, global, ran⟩ := bind_ok.mp ran
  obtain ⟨free, global⟩ := takeLock_ok global
  obtain ⟨_, t₃, server, ran⟩ := bind_ok.mp ran
  obtain ⟨-, server⟩ := takeLock_ok server
  obtain ⟨_, -, ran⟩ := silent_fresh.bind_ok ran
  obtain ⟨-, rfl⟩ := pure_ok.mp ran
  rw [server, global]
  refine (frame.moves inv).trans (.enqueue (frame.inv inv) free ?_ rfl rfl planned approval)
  intro e mem
  exact Bool.eq_false_iff.mpr (any_eq_false.mp unique e mem)

theorem early_not_closed {s : ExecutionState} (early : s.early = true) : s.closed = false := by
  cases s <;> first | rfl | cases early

theorem claimLapsed_moves {owner : String} {milliseconds : Nat} {result : Option ExecutionLease}
    (inv : TablesInv t) (found : t.execution? e.id = some e)
    (ran : claimLapsed now e owner milliseconds t = .ok (result, t')) :
    Moves final t t' ∧ ∀ lease, result = some lease → lease.execution.operationId = lease.execution.id := by
  unfold claimLapsed at ran
  by_cases dispatching : e.state = .dispatching
  · rw [if_pos dispatching] at ran
    obtain ⟨_, t₂, moved, ran⟩ := bind_ok.mp ran
    obtain ⟨rfl, rfl⟩ := pure_ok.mp ran
    have open_ : e.state.closed = false := by
      rw [dispatching]
      rfl
    rw [write_ok.mp moved]
    exact ⟨.transition inv found open_ rfl (by decide) fun closed => (nomatch closed),
      fun _ same => (nomatch same)⟩
  rw [if_neg dispatching] at ran
  cases early : e.state.early with
  | false =>
    rw [if_pos early] at ran
    obtain ⟨rfl, rfl⟩ := pure_ok.mp ran
    exact ⟨.refl inv, fun _ same => (nomatch same)⟩
  | true =>
    have open_ := early_not_closed early
    rw [early, if_neg (by decide)] at ran
    by_cases requested : e.cancelRequestedAt.isSome = true
    · rw [if_pos requested] at ran
      obtain ⟨_, t₂, moved, ran⟩ := bind_ok.mp ran
      obtain ⟨rfl, rfl⟩ := pure_ok.mp ran
      rw [write_ok.mp moved]
      exact ⟨.transition inv found open_ rfl (by decide) fun _ => .inl early,
        fun _ same => (nomatch same)⟩
    · rw [if_neg requested] at ran
      obtain ⟨_, t₂, moved, ran⟩ := bind_ok.mp ran
      obtain ⟨rfl, rfl⟩ := pure_ok.mp ran
      rw [write_ok.mp moved]
      refine ⟨.update inv found rfl open_.symm ?_, fun lease same => ?_⟩
      · refine ⟨rfl, fun closed => ?_, fun _ => early, fun late => ?_, fun closed => (nomatch closed)⟩
        · rw [open_] at closed
          cases closed
        · rw [early] at late
          cases late
      · cases same
        exact inv.operation e ((execution?_eq_some inv).mp found).1

theorem claim_moves {owner : String} {seconds : Nat} {result : Option ExecutionLease} (inv : TablesInv t)
    (ran : claim now id owner seconds t = .ok (result, t')) :
    Moves final t t' ∧ ∀ lease, result = some lease → lease.execution.operationId = lease.execution.id := by
  obtain ⟨-, ran⟩ := ensure_bind_ok.mp ran
  obtain ⟨e, found, ran⟩ := loadExecution_bind_ok ran
  have found : t.execution? e.id = some e := ((execution?_eq_some inv).mp found).2 ▸ found
  by_cases lapsed : e.lapsed now = true
  · rw [if_pos lapsed] at ran
    exact claimLapsed_moves inv found ran
  · rw [if_neg lapsed] at ran
    obtain ⟨rfl, rfl⟩ := pure_ok.mp ran
    exact ⟨.refl inv, fun _ same => (nomatch same)⟩

theorem leased_bind_ok {α : Type} {f : Option ExecutionRecord → Tx α} {a : α}
    (ran : (leased now lease >>= f) t = .ok (a, t')) :
    ∃ row, f row t = .ok (a, t') ∧ ∀ e, row = some e → t.execution? lease.execution.id = some e ∧
      e.leaseOwner = some lease.owner ∧ e.fence = lease.fence ∧ e.lapsed now = false := by
  obtain ⟨row, t₁, leased, ran⟩ := bind_ok.mp ran
  obtain ⟨e, found, leased⟩ := loadExecution_bind_ok leased
  obtain ⟨answer, same⟩ := pure_ok.mp leased
  rw [same] at ran
  refine ⟨row, ran, fun e' same => ?_⟩
  rw [answer] at same
  split at same
  · cases same
    exact ⟨found, ‹_›⟩
  · cases same

theorem silent_executorCheck : Keeps Eq (executorCheck host env now e plan) :=
  .bind .ensure fun _ => .bind .ensure fun _ => .bind .reading fun _ => .bind .reading fun _ =>
    .bind .need fun _ => .bind .need fun _ => .bind .ensure fun _ => .bind .ensure fun _ =>
      .bind .ensure fun _ => .bind .ensure fun _ =>
        .bind (.bind .ensure fun _ => .bind .ensure fun _ => .ensure) fun _ => .bind .ensure fun _ =>
          .bind (.bind .reading fun _ => .bind .ensure fun _ => .bind .reading fun _ => .ensure) fun _ =>
            .bind .ensure fun _ => .ensure

theorem silent_loadExecution : Keeps Eq (loadExecution id) := .bind .reading fun _ => .need

theorem silent_leased : Keeps Eq (leased now lease) := .bind silent_loadExecution fun _ => .pure

theorem silent_planOf : Keeps Eq (planOf host e) := .bind silent_load fun _ => .bind .ensure fun _ => .pure

theorem silent_precheck : Keeps Eq (precheck host env now lease) :=
  .bind silent_leased fun _ => .bind .need fun _ => .bind .ensure fun _ => .bind silent_planOf fun _ =>
    .bind silent_executorCheck fun _ => .pure

/-- The execution can be sent: its lease is live, it is not cancelled, and its plan is current and approved. -/
structure Admissible (t : Tables) (now : Nat) (e : ExecutionRecord) (plan : ActionPlanVersion) : Prop where
  found : t.execution? e.id = some e
  prechecking : e.state = .prechecking
  uncancelled : e.cancelRequestedAt = none
  live : ∃ expiresAt, e.leaseExpiresAt = some expiresAt ∧ now < expiresAt
  current : ∃ head, t.head? e.planId = some head ∧ head.currentVersion = e.planVersion
  version : t.version? e.planId e.planVersion = some plan
  approved : plan.state = .approved

theorem live_of_lapsed (live : e.lapsed now = false) : ∃ expiresAt, e.leaseExpiresAt = some expiresAt ∧ now < expiresAt := by
  unfold ExecutionRecord.lapsed at live
  cases expires : e.leaseExpiresAt with
  | none =>
    rw [expires] at live
    cases live
  | some expiresAt =>
    rw [expires] at live
    exact ⟨expiresAt, rfl, Nat.lt_of_not_le (of_decide_eq_false live)⟩

theorem planOf_ok (ran : planOf host e t = .ok (plan, t')) :
    (∃ head, t.head? e.planId = some head ∧ head.currentVersion = e.planVersion) ∧
      t.version? e.planId e.planVersion = some plan := by
  obtain ⟨loaded, first, ran⟩ := silent_load.bind_ok ran
  obtain ⟨-, head, heads, version⟩ := load_ok first
  obtain ⟨same, ran⟩ := ensure_bind_ok.mp ran
  obtain ⟨rfl, -⟩ := pure_ok.mp ran
  have current : head.currentVersion = e.planVersion := (version?_eq_some version).2.symm.trans same
  exact ⟨⟨head, heads, current⟩, current ▸ version⟩

theorem approved_of_check (ran : executorCheck host env now e plan t = .ok (u, t')) :
    plan.state = .approved := by
  obtain ⟨-, ran⟩ := ensure_bind_ok.mp ran
  exact (ensure_bind_ok.mp ran).1

theorem admitDispatch_moves {admitted : Bool} (inv : TablesInv t)
    (ran : admitDispatch now e lease t = .ok (admitted, t')) : Moves final t t' := by
  have ran := reading_bind_ok.mp ran
  have ran := write_bind_ok.mp ran
  obtain ⟨-, rfl⟩ := pure_ok.mp ran
  have state (row : ExecutionRecord) (admissible : row.admissible now e lease = true) :
      row.state = .prechecking := by
    simp only [ExecutionRecord.admissible, Bool.and_eq_true, decide_eq_true_eq] at admissible
    exact admissible.1.1.1.1.2
  refine .map inv (fun row _ => ?_) (fun row _ => ?_) fun row _ => ?_
  · split
    · rfl
    · rfl
  · split
    · rw [state row ‹_›]
      rfl
    · rfl
  · split
    · have early := state row ‹_›
      refine ⟨rfl, fun closed => ?_, fun early => (nomatch early), fun late => ?_, fun closed => (nomatch closed)⟩
      · rw [early] at closed
        cases closed
      · rw [early] at late
        cases late
    · exact .refl row

theorem admitDispatch_mem {admitted : Bool} {row : ExecutionRecord}
    (ran : admitDispatch now e lease t = .ok (admitted, t')) (mem : row ∈ t.executions)
    (admissible : row.admissible now e lease = true) : row.dispatched now ∈ t'.executions := by
  have ran := reading_bind_ok.mp ran
  have ran := write_bind_ok.mp ran
  obtain ⟨-, rfl⟩ := pure_ok.mp ran
  exact mem_map.mpr ⟨row, mem, if_pos admissible⟩

theorem sendRun_ok {result : Option ActionInvocation} (inv : TablesInv t)
    (ran : sendRun host env now lease t = .ok (result, t')) :
    Moves final t t' ∧ ∀ invocation, result = some invocation →
      ∃ e plan, invocation.executionId = e.id ∧ Admissible t now e plan ∧ e.dispatched now ∈ t'.executions := by
  obtain ⟨row, ran, facts⟩ := leased_bind_ok ran
  cases sends : row.filter fun e => e.state = .prechecking && e.cancelRequestedAt.isNone with
  | none =>
    rw [sends] at ran
    obtain ⟨rfl, rfl⟩ := pure_ok.mp ran
    exact ⟨.refl inv, fun _ same => (nomatch same)⟩
  | some e =>
    rw [sends] at ran
    obtain ⟨same, holds⟩ := Option.filter_eq_some_iff.mp sends
    obtain ⟨found, owner, fence, live⟩ := facts e same
    rw [Bool.and_eq_true, decide_eq_true_eq, Option.isNone_iff_eq_none] at holds
    obtain ⟨invocation, t₁, sent, ran⟩ := bind_ok.mp ran
    obtain ⟨rfl, rfl⟩ := pure_ok.mp ran
    obtain ⟨plan, first, sent⟩ := silent_planOf.bind_ok sent
    obtain ⟨current, version⟩ := planOf_ok first
    obtain ⟨_, checked, sent⟩ := silent_executorCheck.bind_ok sent
    obtain ⟨admitted, t₂, dispatch, sent⟩ := bind_ok.mp sent
    obtain ⟨affected, sent⟩ := ensure_bind_ok.mp sent
    obtain ⟨config, -, sent⟩ := need_bind_ok.mp sent
    obtain ⟨rfl, rfl⟩ := pure_ok.mp sent
    refine ⟨admitDispatch_moves inv dispatch, fun invocation same => ?_⟩
    cases same
    have inside := (execution?_eq_some inv).mp found
    refine ⟨e, plan, rfl, ⟨inside.2 ▸ found, holds.1, holds.2, live_of_lapsed live, current, version,
      approved_of_check checked⟩, ?_⟩
    exact admitDispatch_mem dispatch inside.1 (by
      simp [ExecutionRecord.admissible, inside.2, holds.1, holds.2, owner, fence, live])

theorem unsettled_not_closed {s : ExecutionState} (unsettled : s.unsettled = true) : s.closed = false := by
  cases s <;> first | rfl | cases unsettled

theorem transition_unknown {error : Option String} {receipt : Option ActionReceipt}
    (inv : TablesInv t) (found : t.execution? e.id = some e) (open_ : e.state.closed = false)
    (ran : transition now e .outcomeUnknown error receipt t = .ok (u, t')) : Moves final t t' := by
  rw [write_ok.mp ran]
  exact .transition inv found open_ rfl (by decide) fun closed => (nomatch closed)

theorem failBeforeSend_moves (inv : TablesInv t)
    (ran : failBeforeSend now lease t = .ok (u, t')) : Moves final t t' := by
  obtain ⟨e, found, ran⟩ := loadExecution_bind_ok ran
  have found : t.execution? e.id = some e := ((execution?_eq_some inv).mp found).2 ▸ found
  split at ran
  · unfold failLeased at ran
    by_cases dispatching : e.state = .dispatching
    · rw [if_pos dispatching] at ran
      exact transition_unknown inv found (by rw [dispatching]; rfl) ran
    rw [if_neg dispatching] at ran
    by_cases prechecking : e.state = .prechecking
    · rw [if_pos prechecking] at ran
      have early : e.state.early = true := by
        rw [prechecking]
        rfl
      rw [write_ok.mp ran]
      exact .transition inv found (early_not_closed early) rfl (by decide) fun _ => .inl early
    · rw [if_neg prechecking] at ran
      obtain ⟨-, rfl⟩ := pure_ok.mp ran
      exact .refl inv
  · obtain ⟨-, rfl⟩ := pure_ok.mp ran
    exact .refl inv

theorem unknown_moves (inv : TablesInv t) (ran : unknown now lease t = .ok (u, t')) :
    Moves final t t' := by
  obtain ⟨e, found, ran⟩ := loadExecution_bind_ok ran
  have found : t.execution? e.id = some e := ((execution?_eq_some inv).mp found).2 ▸ found
  split at ran
  · rename_i dispatching
    exact transition_unknown inv found (by rw [dispatching.2.2]; rfl) ran
  · obtain ⟨-, rfl⟩ := pure_ok.mp ran
    exact .refl inv

theorem finishStale_moves (inv : TablesInv t) (ran : finishStale now lease t = .ok (u, t')) :
    Moves final t t' := by
  obtain ⟨e, found, ran⟩ := loadExecution_bind_ok ran
  have found : t.execution? e.id = some e := ((execution?_eq_some inv).mp found).2 ▸ found
  split at ran
  · rename_i dispatching
    exact transition_unknown inv found (by rw [dispatching.2.2]; rfl) ran
  · obtain ⟨-, rfl⟩ := pure_ok.mp ran
    exact .refl inv

variable {receipt : ActionReceipt}

theorem settle_moves (inv : TablesInv t)
    (found : t.execution? e.id = some e) (unsettled : e.state.unsettled = true)
    (decisive : receipt.outcome.state.closed = true → e.id ∈ final)
    (ran : settle now e receipt t = .ok (u, t')) : Moves final t t' := by
  unfold settle at ran
  rw [write_ok.mp ran]
  refine .transition inv found (unsettled_not_closed unsettled) ?_ ?_ fun closed => .inr (decisive closed)
  · cases receipt.outcome <;> rfl
  · cases receipt.outcome <;> decide

theorem finish_moves (inv : TablesInv t)
    (decisive : receipt.outcome.state.closed = true → lease.execution.id ∈ final)
    (ran : finish now lease receipt t = .ok (u, t')) : Moves final t t' := by
  obtain ⟨row, ran, facts⟩ := leased_bind_ok ran
  cases row with
  | none => exact finishStale_moves inv ran
  | some e =>
    have found := (facts e rfl).1
    have same := ((execution?_eq_some inv).mp found).2
    dsimp only at ran
    by_cases dispatching : e.state = .dispatching
    · rw [if_pos dispatching] at ran
      refine settle_moves inv (same ▸ found) ?_ (same ▸ decisive) ran
      rw [dispatching]
      rfl
    · rw [if_neg dispatching] at ran
      obtain ⟨-, rfl⟩ := pure_ok.mp ran
      exact .refl inv

theorem interrupt_moves {rows : List ExecutionRecord} (inv : TablesInv t)
    (each : ∀ e ∈ rows, ∃ r ∈ t.executions, r.id = e.id ∧ r.state.unsettled = true)
    (ran : interrupt now rows t = .ok (u, t')) : Moves final t t' := by
  induction rows generalizing t with
  | nil =>
    obtain ⟨-, rfl⟩ := pure_ok.mp ran
    exact .refl inv
  | cons e rows ih =>
    obtain ⟨_, t₁, first, ran⟩ := bind_ok.mp ran
    obtain ⟨r, mem, same, unsettled⟩ := each e mem_cons_self
    have found : t.execution? e.id = some r := (execution?_eq_some inv).mpr ⟨mem, same⟩
    have moves : Moves final t t₁ := by
      rw [write_ok.mp first]
      exact .transition inv found (unsettled_not_closed unsettled) rfl (by decide)
        fun closed => (nomatch closed)
    refine moves.trans (ih moves.inv (fun e' mem' => ?_) ran)
    -- a row that is still to be interrupted is unsettled, whether it was this one or not
    obtain ⟨r', inside, same', unsettled'⟩ := each e' (mem_cons_of_mem _ mem')
    rw [write_ok.mp first]
    refine ⟨_, mem_map_of_mem inside, ?_⟩
    split
    · exact ⟨same', rfl⟩
    · exact ⟨same', unsettled'⟩

theorem recover_moves {limit count : Nat} (inv : TablesInv t)
    (ran : recoverExpiredDispatches now limit t = .ok (count, t')) : Moves final t t' := by
  have ran := reading_bind_ok.mp ran
  obtain ⟨_, t₁, first, ran⟩ := bind_ok.mp ran
  obtain ⟨-, rfl⟩ := pure_ok.mp ran
  refine interrupt_moves inv (fun e mem => ?_) first
  have listed := (mem_insertionSort _).mp (mem_of_mem_take mem)
  obtain ⟨inside, holds⟩ := mem_filter.mp listed
  rw [Bool.and_eq_true, decide_eq_true_eq] at holds
  refine ⟨e, inside, rfl, ?_⟩
  rw [holds.1]
  rfl

theorem requestCancel_moves (inv : TablesInv t) (found : t.execution? e.id = some e)
    (open_ : e.state.closed = false) (ran : requestCancel now e t = .ok (u, t')) : Moves final t t' := by
  have ran := write_bind_ok.mp ran
  have requested : Moves final t
      (t.update e.id fun r => { r with cancelRequestedAt := some now, version := r.version + 1 }) := by
    refine .update inv found rfl rfl ⟨rfl, fun closed => ?_, fun early => early, fun _ => rfl, .inl⟩
    rw [open_] at closed
    cases closed
  cases early : e.state.early with
  | false =>
    rw [early, if_neg (by decide)] at ran
    obtain ⟨-, rfl⟩ := pure_ok.mp ran
    exact requested
  | true =>
    rw [early, if_pos rfl] at ran
    rw [write_ok.mp ran]
    obtain ⟨mem, -⟩ := (execution?_eq_some inv).mp found
    have found' := (execution?_eq_some requested.inv).mpr
      ⟨mem_map.mpr ⟨e, mem, if_pos rfl⟩, rfl⟩
    exact requested.trans (.transition requested.inv found' open_ rfl (by decide) fun _ => .inl early)

theorem cancel_moves (inv : TablesInv t) (ran : cancel env now id t = .ok (e, t')) : Moves final t t' := by
  obtain ⟨r, found, ran⟩ := loadExecution_bind_ok ran
  have found : t.execution? r.id = some r := ((execution?_eq_some inv).mp found).2 ▸ found
  obtain ⟨-, ran⟩ := ensure_bind_ok.mp ran
  split at ran
  · obtain ⟨-, rfl⟩ := pure_ok.mp ran
    exact .refl inv
  · rename_i goes
    obtain ⟨_, t₁, requested, ran⟩ := bind_ok.mp ran
    obtain rfl := silent_loadExecution _ _ _ ran
    exact requestCancel_moves inv found (Bool.eq_false_iff.mpr fun closed => goes (.inl closed)) requested

theorem reconcileWrite_moves (inv : TablesInv t)
    (decisive : receipt.outcome.state.closed = true → id ∈ final)
    (ran : reconcileWrite env now id receipt t = .ok (e, t')) : Moves final t t' := by
  obtain ⟨r, found, ran⟩ := loadExecution_bind_ok ran
  have same := ((execution?_eq_some inv).mp found).2
  have found : t.execution? r.id = some r := same ▸ found
  obtain ⟨-, ran⟩ := ensure_bind_ok.mp ran
  split at ran
  · rename_i unsettled
    obtain ⟨_, t₁, settled, ran⟩ := bind_ok.mp ran
    obtain rfl := silent_loadExecution _ _ _ ran
    exact settle_moves inv found unsettled (same ▸ decisive) settled
  · obtain ⟨-, rfl⟩ := pure_ok.mp ran
    exact .refl inv

end Executions

end Slide.Actions.Dispatch
