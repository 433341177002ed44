import Mathlib.Data.List.Induction
import Slide.Actions.Dispatch
import Slide.Actions.DispatchTables

/-!
# At most one dispatch at a time

`Inv` is what every step keeps: an admitted execution has left the states before the send boundary for
good, a task that is about to call the adapter is the only one for its execution, and a decisive receipt
is of a final operation.  `dispatch_exclusive` is what follows for every run.
-/

namespace Slide.Actions.Dispatch

open Transaction List

variable {host : Host}

/-! ## What a task knows -/

namespace Phase

/-- The execution that a task is about. -/
def subject? : Phase → Option ExecutionRecord
  | .claimed lease | .prechecked lease _ | .ready lease _ | .failing lease | .invoking lease _ _
  | .executing lease _ | .finishing lease _ | .uncertain lease => some lease.execution
  | .reconciling e | .inquiring e _ | .reconciled e _ => some e
  | _ => none

/-- A receipt that a task is to record. -/
def receipt? : Phase → Option (ExecutionRecord × ActionReceipt)
  | .finishing lease receipt => some (lease.execution, receipt)
  | .reconciled e receipt => some (e, receipt)
  | _ => none

/-- An invocation that a task is to make. -/
def invocation? : Phase → Option ActionInvocation
  | .invoking _ _ invocation => some invocation
  | _ => none

end Phase

/-- The execution that an entry admits. -/
def Entry.admitted? : Entry → Option String
  | .admitted id _ _ => some id
  | .called _ => none

/-- The execution that an entry calls the adapter for. -/
def Entry.called? : Entry → Option String
  | .admitted _ _ _ => none
  | .called invocation => some invocation.executionId

/-- What an admitted execution has become. -/
structure Sent (final : List String) (rows : List ExecutionRecord) (id : String) (at_ : Nat) : Prop where
  row : ∃ e ∈ rows, e.id = id ∧ e.state.early = false ∧ e.sentAt = some at_ ∧
    (e.state.closed = true → id ∈ final)

/-- A phase whose execution is well formed, whose receipt may be recorded, and which calls nothing. -/
structure Quiet (final : List String) (phase : Phase) : Prop where
  subject : ∀ e, phase.subject? = some e → e.operationId = e.id
  receipt : ∀ e r, phase.receipt? = some (e, r) → r.outcome.decisive = true → e.id ∈ final
  invocation : phase.invocation? = none

structure Inv (w : World) : Prop where
  tables : TablesInv w.tables
  admitted : ∀ id t at_, .admitted id t at_ ∈ w.log →
    (∃ e plan, e.id = id ∧ Admissible t at_ e plan) ∧ Sent w.final w.tables.executions id at_
  ordered : ∀ before invocation rest, w.log = before ++ .called invocation :: rest →
    ∃ t at_, .admitted invocation.executionId t at_ ∈ before
  calls : (w.log.filterMap Entry.called?).Nodup
  subject : ∀ p e, (w.task p).subject? = some e → e.operationId = e.id
  receipt : ∀ p e r, (w.task p).receipt? = some (e, r) → r.outcome.decisive = true → e.id ∈ w.final
  admits : ∀ p i, (w.task p).invocation? = some i → ∃ t at_, .admitted i.executionId t at_ ∈ w.log
  uncalled : ∀ p i, (w.task p).invocation? = some i → i.executionId ∉ w.log.filterMap Entry.called?
  alone : ∀ p q i j, (w.task p).invocation? = some i → (w.task q).invocation? = some j →
    i.executionId = j.executionId → p = q

section Steps

variable {w : World} {p : Nat} {phase : Phase}

variable {final : List String} {t : Tables} {id : String}

theorem Sent.moves {t' : Tables} {at_ : Nat}
    (sent : Sent final t.executions id at_) (moves : Moves final t t') : Sent final t'.executions id at_ := by
  obtain ⟨e, mem, rfl, late, at_, ends⟩ := sent.row
  obtain ⟨e', mem', follows⟩ := moves.rows e mem
  refine ⟨e', mem', follows.id, ?_, (follows.sent late).trans at_, fun closed => ?_⟩
  · cases early : e'.state.early with
    | false => rfl
    | true => exact absurd (late.symm.trans (follows.early early)) Bool.false_ne_true
  · rcases follows.closes closed with closed | early | final
    · exact ends closed
    · exact absurd (late.symm.trans early) Bool.false_ne_true
    · exact final

theorem Inv.moves (inv : Inv w) (moves : Moves w.final w.tables t) : Inv { w with tables := t } :=
  { inv with
    tables := moves.inv
    admitted := fun id t at_ mem => ⟨(inv.admitted id t at_ mem).1, (inv.admitted id t at_ mem).2.moves moves⟩ }

theorem Inv.goto (inv : Inv w) (quiet : Quiet w.final phase) : Inv (w.goto p phase) := by
  have task (q : Nat) : (w.goto p phase).task q = if q = p then phase else w.task q :=
    Function.update_apply w.task p phase q
  have calling (q i) (calls : ((w.goto p phase).task q).invocation? = some i) :
      (w.task q).invocation? = some i := by
    rw [task] at calls
    split at calls
    · rw [quiet.invocation] at calls
      cases calls
    · exact calls
  refine { inv with subject := ?_, receipt := ?_, admits := ?_, uncalled := ?_, alone := ?_ }
  · intro q e of
    rw [task] at of
    split at of
    · exact quiet.subject e of
    · exact inv.subject q e of
  · intro q e r of
    rw [task] at of
    split at of
    · exact quiet.receipt e r of
    · exact inv.receipt q e r of
  · exact fun q i calls => inv.admits q i (calling q i calls)
  · exact fun q i calls => inv.uncalled q i (calling q i calls)
  · exact fun q q' i j calls calls' => inv.alone q q' i j (calling q i calls) (calling q' j calls')

variable {α : Type} {c : Commit}

theorem Inv.commit {body : Tx α} (inv : Inv w)
    (moves : ∀ a t, body w.tables = .ok (a, t) → Moves w.final w.tables t) : Inv (w.commit body c) :=
  inv.moves (perform_keeps (P := Moves w.final w.tables) (.refl inv.tables) moves)

theorem Inv.continue_ {body : Tx α} {next : Option α → Phase} (inv : Inv w)
    (moves : ∀ a t, body w.tables = .ok (a, t) → Moves w.final w.tables t)
    (failed : Quiet w.final (next none))
    (through : ∀ a t, body w.tables = .ok (a, t) → Quiet w.final (next (some a))) :
    Inv (w.continue_ p body c next) := by
  refine (inv.commit moves).goto ?_
  cases got : (perform body c w.tables).1 with
  | none => exact failed
  | some a => exact through a _ (perform_some got)

theorem Quiet.idle : Quiet final .idle where
  subject _ of := nomatch of
  receipt _ _ of := nomatch of
  invocation := rfl

theorem Inv.quiet (inv : Inv w) {other : Phase} (at_ : w.task p = other)
    (subject : phase.subject? = other.subject?) (receipt : phase.receipt? = none)
    (invocation : phase.invocation? = none) : Quiet w.final phase where
  subject e of := inv.subject p e (by rw [at_, ← subject]; exact of)
  receipt e r of := by
    rw [receipt] at of
    cases of
  invocation := invocation

theorem called_mem {log : List Entry} :
    id ∈ log.filterMap Entry.called? ↔ ∃ i, .called i ∈ log ∧ i.executionId = id := by
  rw [mem_filterMap]
  constructor
  · rintro ⟨entry, mem, of⟩
    cases entry with
    | admitted _ _ _ => cases of
    | called i => exact ⟨i, mem, some.inj of⟩
  · rintro ⟨i, mem, rfl⟩
    exact ⟨.called i, mem, rfl⟩

theorem Inv.admitted_of_called (inv : Inv w) (called : id ∈ w.log.filterMap Entry.called?) :
    ∃ t at_, .admitted id t at_ ∈ w.log := by
  obtain ⟨i, mem, rfl⟩ := called_mem.mp called
  obtain ⟨before, rest, split⟩ := append_of_mem mem
  obtain ⟨t, at_, earlier⟩ := inv.ordered before i rest split
  exact ⟨t, at_, split ▸ mem_append_left _ earlier⟩

variable {e : ExecutionRecord} {plan : ActionPlanVersion}

theorem Inv.fresh (inv : Inv w)
    (admissible : Admissible w.tables w.now e plan) (t : Tables) (at_ : Nat) : .admitted e.id t at_ ∉ w.log := by
  intro mem
  obtain ⟨e', inside, same, late, -⟩ := (inv.admitted e.id t at_ mem).2.row
  have found := (execution?_eq_some inv.tables).mp admissible.found
  have equal : e' = e := inj_on_of_nodup_map inv.tables.ids inside found.1 same
  rw [equal, admissible.prechecking] at late
  cases late

theorem split_snoc {log before rest : List Entry} {x y : Entry} (split : log ++ [x] = before ++ y :: rest) :
    before = log ∧ y = x ∨ ∃ rest', log = before ++ y :: rest' := by
  rcases eq_nil_or_concat' rest with rfl | ⟨rest', last, rfl⟩
  · obtain ⟨same, last⟩ := append_inj' split rfl
    exact .inl ⟨same.symm, (singleton_inj.mp last).symm⟩
  · rw [← cons_append, ← append_assoc] at split
    exact .inr ⟨rest', (append_inj' split rfl).1⟩

theorem Inv.snoc_admitted (inv : Inv w)
    (moves : Moves w.final w.tables t) (admissible : Admissible w.tables w.now e plan)
    (dispatched : e.dispatched w.now ∈ t.executions) :
    Inv { w with tables := t, log := w.log ++ [.admitted e.id w.tables w.now] } := by
  have moved := inv.moves moves
  have calls : (w.log ++ [Entry.admitted e.id w.tables w.now]).filterMap Entry.called? =
      w.log.filterMap Entry.called? := by
    rw [filterMap_append]
    exact append_nil _
  refine { moved with admitted := ?_, ordered := ?_, calls := ?_, admits := ?_, uncalled := ?_ }
  · intro id t' at_ mem
    rcases mem_append.mp mem with mem | mem
    · exact moved.admitted id t' at_ mem
    · cases mem_singleton.mp mem
      exact ⟨⟨e, plan, rfl, admissible⟩, ⟨e.dispatched w.now, dispatched, rfl, rfl, rfl,
        fun closed => (nomatch closed)⟩⟩
  · intro before i rest split
    rcases split_snoc split with ⟨-, last⟩ | ⟨rest', inside⟩
    · cases last
    · exact inv.ordered before i rest' inside
  · rw [calls]
    exact inv.calls
  · intro q i calling
    obtain ⟨t', at_, mem⟩ := inv.admits q i calling
    exact ⟨t', at_, mem_append_left _ mem⟩
  · intro q i calling
    rw [calls]
    exact inv.uncalled q i calling

variable {lease : ExecutionLease}

theorem Inv.goto_invoking {i : ActionInvocation} (inv : Inv w)
    (subject : lease.execution.operationId = lease.execution.id)
    (admitted : ∃ t at_, .admitted i.executionId t at_ ∈ w.log)
    (uncalled : i.executionId ∉ w.log.filterMap Entry.called?)
    (alone : ∀ q j, (w.task q).invocation? = some j → j.executionId ≠ i.executionId) :
    Inv (w.goto p (.invoking lease plan i)) := by
  have task (q : Nat) : (w.goto p (.invoking lease plan i)).task q =
      if q = p then .invoking lease plan i else w.task q := Function.update_apply w.task p _ q
  have calling (q j) (calls : ((w.goto p (.invoking lease plan i)).task q).invocation? = some j) :
      q = p ∧ j = i ∨ q ≠ p ∧ (w.task q).invocation? = some j := by
    rw [task] at calls
    split at calls
    · exact .inl ⟨‹q = p›, (some.inj calls).symm⟩
    · exact .inr ⟨‹¬ q = p›, calls⟩
  refine { inv with subject := ?_, receipt := ?_, admits := ?_, uncalled := ?_, alone := ?_ }
  · intro q e of
    rw [task] at of
    split at of
    · cases of
      exact subject
    · exact inv.subject q e of
  · intro q e r of
    rw [task] at of
    split at of
    · cases of
    · exact inv.receipt q e r of
  · intro q j calls
    rcases calling q j calls with ⟨-, rfl⟩ | ⟨-, calls⟩
    · exact admitted
    · exact inv.admits q j calls
  · intro q j calls
    rcases calling q j calls with ⟨-, rfl⟩ | ⟨-, calls⟩
    · exact uncalled
    · exact inv.uncalled q j calls
  · intro q q' j j' calls calls' same
    rcases calling q j calls with ⟨rfl, rfl⟩ | ⟨-, before⟩ <;>
      rcases calling q' j' calls' with ⟨rfl, rfl⟩ | ⟨-, before'⟩
    · rfl
    · exact absurd same.symm (alone q' j' before')
    · exact absurd same (alone q j before)
    · exact inv.alone q q' j j' before before' same

theorem Inv.call {i : ActionInvocation} (inv : Inv w) (at_ : w.task p = .invoking lease plan i) :
    Inv { w.goto p (.executing lease plan) with log := w.log ++ [.called i] } := by
  have mine : (w.task p).invocation? = some i := by rw [at_]; rfl
  have quiet : Quiet w.final (.executing lease plan) := inv.quiet at_ rfl rfl rfl
  have moved : Inv (w.goto p (.executing lease plan)) := inv.goto quiet
  have calls : (w.log ++ [Entry.called i]).filterMap Entry.called? =
      w.log.filterMap Entry.called? ++ [i.executionId] := by
    rw [filterMap_append]
    rfl
  refine { moved with admitted := ?_, ordered := ?_, calls := ?_, admits := ?_, uncalled := ?_ }
  · intro id t at_ mem
    rcases mem_append.mp mem with mem | mem
    · exact inv.admitted id t at_ mem
    · cases mem_singleton.mp mem
  · intro before j rest split
    rcases split_snoc split with ⟨rfl, last⟩ | ⟨rest', inside⟩
    · cases last
      exact inv.admits p i mine
    · exact inv.ordered before j rest' inside
  · rw [calls]
    exact nodup_append.mpr ⟨inv.calls, nodup_singleton _, fun a mem b last =>
      mem_singleton.mp last ▸ fun same => inv.uncalled p i mine (same ▸ mem)⟩
  · intro q j calling
    obtain ⟨t, at_, mem⟩ := moved.admits q j calling
    exact ⟨t, at_, mem_append_left _ mem⟩
  · intro q j calling
    rw [calls, mem_append, mem_singleton, not_or]
    refine ⟨moved.uncalled q j calling, fun same => ?_⟩
    have other : q ≠ p := by
      rintro rfl
      have gone : ((w.goto q (.executing lease plan)).task q).invocation? = none := by
        show (Function.update w.task q _ q).invocation? = none
        rw [Function.update_self]
        rfl
      cases gone.symm.trans calling
    have before : (w.task q).invocation? = some j := by
      have kept : (w.goto p (.executing lease plan)).task q = w.task q := Function.update_of_ne other _ _
      rw [← kept]
      exact calling
    exact other (inv.alone q p j i before mine same)

theorem decisive_of_closed {outcome : ReceiptOutcome} (closed : outcome.state.closed = true) :
    outcome.decisive = true := by
  cases outcome <;> first | rfl | cases closed

theorem final_of_checked {value : Option ActionReceipt}
    {receipt : ActionReceipt} (reported : w.reports value = true)
    (checked : checkedActionReceipt value e plan = some receipt) (operation : e.operationId = e.id)
    (decisive : receipt.outcome.decisive = true) : e.id ∈ w.final := by
  obtain ⟨rfl, holds⟩ := Option.filter_eq_some_iff.mp checked
  simp only [Bool.and_eq_true, decide_eq_true_eq] at holds
  rw [World.reports, Option.all_some, decisive, Bool.not_true, Bool.false_or, decide_eq_true_eq,
    holds.1.1.1.1, operation] at reported
  exact reported

theorem continue_eq {body : Tx α} {next : Option α → Phase} {result : Option α}
    (ran : perform body c w.tables = (result, t)) :
    w.continue_ p body c next = ({ w with tables := t } : World).goto p (next result) := by
  unfold World.continue_ World.commit
  rw [ran]

variable {env : Env}

theorem Inv.sendRun_none
    {result : Option (Option ActionInvocation)} {next : Option (Option ActionInvocation) → Phase}
    (inv : Inv w) (at_ : w.task p = .ready lease plan)
    (nexts : next result = .idle ∨ next result = .failing lease) (moves : Moves w.final w.tables t)
    (ran : perform (sendRun host env w.now lease) c w.tables = (result, t))
    (admits : w.admission host env lease c = []) :
    Inv { w.continue_ p (sendRun host env w.now lease) c next with
      log := w.log ++ w.admission host env lease c } := by
  rw [admits, append_nil, continue_eq ran]
  have moved := inv.moves moves
  rcases nexts with idle | failing
  · rw [idle]
    exact moved.goto .idle
  · rw [failing]
    exact moved.goto (moved.quiet (p := p) at_ rfl rfl rfl)

theorem Inv.sendRun
    {next : Option (Option ActionInvocation) → Phase} (inv : Inv w) (at_ : w.task p = .ready lease plan)
    (sends : ∀ i, next (some (some i)) = .invoking lease plan i) (nothing : next (some none) = .idle)
    (failed : next none = .failing lease) :
    Inv { w.continue_ p (sendRun host env w.now lease) c next with
      log := w.log ++ w.admission host env lease c } := by
  have stays : Moves w.final w.tables w.tables := .refl inv.tables
  cases ran : Dispatch.sendRun host env w.now lease w.tables with
  | error e =>
    exact inv.sendRun_none at_ (.inr failed) stays (by rw [perform, ran]) (by rw [World.admission, ran])
  | ok answer =>
    obtain ⟨result, t⟩ := answer
    obtain ⟨moves, admission⟩ : Moves w.final w.tables t ∧ _ := sendRun_ok inv.tables ran
    cases result with
    | none =>
      cases c with
      | done =>
        exact inv.sendRun_none at_ (.inl nothing) moves (by rw [perform, ran]) (by rw [World.admission, ran])
      | refused =>
        exact inv.sendRun_none at_ (.inr failed) stays (by rw [perform, ran]) (by rw [World.admission, ran])
      | lost =>
        exact inv.sendRun_none at_ (.inr failed) moves (by rw [perform, ran]) (by rw [World.admission, ran])
    | some i =>
      obtain ⟨e, plan', executionId, admissible, dispatched⟩ := admission i rfl
      have sent := inv.snoc_admitted moves admissible dispatched
      have subject : lease.execution.operationId = lease.execution.id :=
        inv.subject p lease.execution (by rw [at_]; rfl)
      cases c with
      | refused =>
        exact inv.sendRun_none at_ (.inr failed) stays (by rw [perform, ran]) (by rw [World.admission, ran]; rfl)
      | lost =>
        have admits : w.admission host env lease .lost = [.admitted e.id w.tables w.now] := by
          rw [World.admission, ran, ← executionId]
          rfl
        have lost : perform (Dispatch.sendRun host env w.now lease) .lost w.tables = (none, t) := by
          rw [perform, ran]
        rw [admits, continue_eq lost, failed]
        exact sent.goto (sent.quiet (p := p) at_ rfl rfl rfl)
      | done =>
        have admits : w.admission host env lease .done = [.admitted e.id w.tables w.now] := by
          rw [World.admission, ran, ← executionId]
          rfl
        have done : perform (Dispatch.sendRun host env w.now lease) .done w.tables = (some (some i), t) := by
          rw [perform, ran]
        rw [admits, continue_eq done, sends]
        have unadmitted := inv.fresh admissible
        refine sent.goto_invoking subject ⟨w.tables, w.now, ?_⟩ ?_ fun q j calling same => ?_
        · rw [executionId]
          exact mem_append_right _ (mem_singleton.mpr rfl)
        · intro called
          rw [executionId, filterMap_append] at called
          rcases mem_append.mp called with called | called
          · obtain ⟨t', at', mem⟩ := inv.admitted_of_called called
            exact unadmitted t' at' mem
          · cases called
        · obtain ⟨t', at', mem⟩ := inv.admits q j calling
          rw [same, executionId] at mem
          exact unadmitted t' at' mem

theorem Inv.finalize (inv : Inv w) : Inv { w with final := id :: w.final } := by
  refine { inv with admitted := fun id' t at_ mem => ⟨(inv.admitted id' t at_ mem).1, ?_⟩, receipt := ?_ }
  · obtain ⟨e, inside, same, late, sent, ends⟩ := (inv.admitted id' t at_ mem).2.row
    exact ⟨e, inside, same, late, sent, fun closed => mem_cons_of_mem _ (ends closed)⟩
  · exact fun q e r of decisive => mem_cons_of_mem _ (inv.receipt q e r of decisive)

theorem silent_existing {actorId : Nat} {requestKey hash : String} :
    Keeps Eq (existing env actorId requestKey hash) :=
  .bind .reading fun _ => .bind .ensure fun _ => .bind .ensure fun _ => .pure

theorem silent_historicalPlan : Keeps Eq (historicalPlan host e) :=
  .bind .reading fun _ => .bind .need fun _ => .bind .ensure fun _ => .bind .ensure fun _ => .pure

theorem silent_reconcileRead : Keeps Eq (reconcileRead env id) :=
  .bind silent_loadExecution fun _ => .bind .ensure fun _ => .pure

theorem Inv.silent {body : Tx α} (inv : Inv w) (silent : Keeps Eq body) (a : α) (t : Tables)
    (ran : body w.tables = .ok (a, t)) : Moves w.final w.tables t := by
  rw [← silent w.tables a t ran]
  exact .refl inv.tables

theorem Inv.framed {body : Tx α} (inv : Inv w) (framed : Framed body) (a : α) (t : Tables)
    (ran : body w.tables = .ok (a, t)) : Moves w.final w.tables t :=
  (framed w.tables a t ran).moves inv.tables

theorem reconcileRead_ok {t' : Tables}
    (ran : reconcileRead env id t = .ok (e, t')) : t.execution? id = some e := by
  obtain ⟨r, found, ran⟩ := loadExecution_bind_ok ran
  obtain ⟨-, ran⟩ := ensure_bind_ok.mp ran
  obtain ⟨rfl, -⟩ := pure_ok.mp ran
  exact found

theorem Quiet.of_record (subject : phase.subject? = some e)
    (operation : e.operationId = e.id) (receipt : phase.receipt? = none) (invocation : phase.invocation? = none) :
    Quiet final phase where
  subject e' of := by
    rw [subject] at of
    exact some.inj of ▸ operation
  receipt e' r of := by
    rw [receipt] at of
    cases of
  invocation := invocation

/-- What a step leaves: the invariant, and every execution moved as it may. -/
structure Next (w w' : World) : Prop where
  inv : Inv w'
  moves : Moves w.final w.tables w'.tables

theorem Inv.still {w' : World} (inv : Inv w) (inv' : Inv w') (same : w'.tables = w.tables) : Next w w' :=
  ⟨inv', same.symm ▸ .refl inv.tables⟩

theorem Inv.next {body : Tx α} {w' : World} (inv : Inv w)
    (moves : ∀ a t, body w.tables = .ok (a, t) → Moves w.final w.tables t) (inv' : Inv w')
    (same : w'.tables = (perform body c w.tables).2) : Next w w' :=
  ⟨inv', same.symm ▸ perform_keeps (P := Moves w.final w.tables) (.refl inv.tables) moves⟩

theorem Inv.nextCommit {body : Tx α} (inv : Inv w)
    (moves : ∀ a t, body w.tables = .ok (a, t) → Moves w.final w.tables t) : Next w (w.commit body c) :=
  inv.next moves (inv.commit moves) rfl

theorem Inv.nextContinue {body : Tx α} {next : Option α → Phase} (inv : Inv w)
    (moves : ∀ a t, body w.tables = .ok (a, t) → Moves w.final w.tables t)
    (failed : Quiet w.final (next none))
    (through : ∀ a t, body w.tables = .ok (a, t) → Quiet w.final (next (some a))) :
    Next w (w.continue_ p body c next) :=
  inv.next moves (inv.continue_ moves failed through) rfl

theorem Inv.nextGoto (inv : Inv w) (quiet : Quiet w.final phase) : Next w (w.goto p phase) :=
  inv.still (inv.goto quiet) rfl

theorem Inv.after {e : Event} {w' : World} (inv : Inv w) (step : Dispatch.after host w e = some w') :
    Next w w' := by
  cases e with
  | tick =>
    cases step
    exact inv.still { inv with } rfl
  | create env id content c =>
    cases step
    exact inv.nextCommit (inv.framed framed_create)
  | revise env planId expectedVersion content c =>
    cases step
    exact inv.nextCommit (inv.framed framed_revise)
  | submit env caller planId expectedVersion approvalId c =>
    cases step
    exact inv.nextCommit (inv.framed framed_submit)
  | review env caller planId expectedVersion approvalId approve c =>
    cases step
    exact inv.nextCommit (inv.framed framed_review)
  | lookup p env actor command c =>
    cases at_ : w.task p <;> simp only [Dispatch.after, at_] at step <;> cases step
    refine inv.nextContinue (inv.silent silent_existing) .idle fun row t ran => ?_
    cases row with
    | none => exact ⟨fun _ of => (nomatch of), fun _ _ of => (nomatch of), rfl⟩
    | some row => exact .idle
  | enqueue p env id c =>
    cases at_ : w.task p <;> simp only [Dispatch.after, at_] at step <;> cases step
    exact inv.nextContinue (fun e t ran => enqueue_moves inv.tables ran)
      ⟨fun _ of => (nomatch of), fun _ _ of => (nomatch of), rfl⟩ fun _ _ _ => .idle
  | relook p env c =>
    cases at_ : w.task p <;> simp only [Dispatch.after, at_] at step <;> cases step
    exact inv.nextContinue (inv.silent silent_existing) .idle fun _ _ _ => .idle
  | claim p id owner seconds c =>
    cases at_ : w.task p <;> simp only [Dispatch.after, at_] at step <;> cases step
    refine inv.nextContinue (fun lease t ran => (claim_moves inv.tables ran).1) .idle fun lease t ran => ?_
    cases lease with
    | none => exact .idle
    | some lease =>
      obtain ⟨-, operation⟩ : Moves w.final w.tables t ∧ _ := claim_moves inv.tables ran
      exact .of_record rfl (operation lease rfl) rfl rfl
  | precheck p env c =>
    cases at_ : w.task p <;> simp only [Dispatch.after, at_] at step <;> cases step
    exact inv.nextContinue (inv.silent silent_precheck) (inv.quiet at_ rfl rfl rfl)
      fun _ _ _ => inv.quiet at_ rfl rfl rfl
  | preflight p passes =>
    cases at_ : w.task p <;> simp only [Dispatch.after, at_] at step <;> cases step
    cases passes with
    | true | false => exact inv.nextGoto (inv.quiet at_ rfl rfl rfl)
  | sendRun p env c =>
    cases at_ : w.task p <;> simp only [Dispatch.after, at_] at step <;> cases step
    exact inv.next (fun _ _ ran => (sendRun_ok inv.tables ran).1) (inv.sendRun at_ (fun _ => rfl) rfl rfl) rfl
  | execute p =>
    cases at_ : w.task p <;> simp only [Dispatch.after, at_] at step <;> cases step
    exact inv.still (inv.call at_) rfl
  | answer p value =>
    cases at_ : w.task p with
    | executing lease plan =>
      simp only [Dispatch.after, at_] at step
      have operation : lease.execution.operationId = lease.execution.id := inv.subject p _ (by rw [at_]; rfl)
      split at step
      · rename_i reported
        split at step
        · rename_i receipt checked
          cases step
          refine inv.nextGoto ⟨fun e of => some.inj of ▸ operation, fun e r of decisive => ?_, rfl⟩
          cases of
          exact final_of_checked reported checked operation decisive
        · cases step
          exact inv.nextGoto (inv.quiet at_ rfl rfl rfl)
      · cases step
    | _ =>
      simp only [Dispatch.after, at_] at step
      cases step
  | finish p c =>
    cases at_ : w.task p with
    | finishing lease receipt =>
      simp only [Dispatch.after, at_] at step
      cases step
      refine inv.nextContinue (fun u t ran => finish_moves inv.tables (fun closed => ?_) ran)
        (inv.quiet at_ rfl rfl rfl) fun _ _ _ => .idle
      exact inv.receipt p _ receipt (by rw [at_]; rfl) (decisive_of_closed closed)
    | _ =>
      simp only [Dispatch.after, at_] at step
      cases step
  | unknown p c =>
    cases at_ : w.task p <;> simp only [Dispatch.after, at_] at step <;> cases step
    exact inv.nextContinue (fun u t ran => unknown_moves inv.tables ran) .idle fun _ _ _ => .idle
  | failBeforeSend p c =>
    cases at_ : w.task p <;> simp only [Dispatch.after, at_] at step <;> cases step
    exact inv.nextContinue (fun u t ran => failBeforeSend_moves inv.tables ran) .idle fun _ _ _ => .idle
  | recover limit c =>
    cases step
    exact inv.nextCommit fun count t ran => recover_moves inv.tables ran
  | cancel env id c =>
    cases step
    exact inv.nextCommit fun e t ran => cancel_moves inv.tables ran
  | reconcile p env id c =>
    cases at_ : w.task p <;> simp only [Dispatch.after, at_] at step <;> cases step
    refine inv.nextContinue (inv.silent silent_reconcileRead) .idle fun e t ran => ?_
    dsimp only
    split
    · have inside := (execution?_eq_some inv.tables).mp (reconcileRead_ok ran)
      exact .of_record rfl (inv.tables.operation e inside.1) rfl rfl
    · exact .idle
  | history p c =>
    cases at_ : w.task p <;> simp only [Dispatch.after, at_] at step <;> cases step
    exact inv.nextContinue (inv.silent silent_historicalPlan) .idle fun _ _ _ => inv.quiet at_ rfl rfl rfl
  | receipt p value =>
    cases at_ : w.task p with
    | inquiring e plan =>
      simp only [Dispatch.after, at_] at step
      have operation : e.operationId = e.id := inv.subject p _ (by rw [at_]; rfl)
      split at step
      · rename_i reported
        split at step
        · rename_i receipt checked
          cases step
          refine inv.nextGoto ⟨fun e' of => some.inj of ▸ operation, fun e' r of decisive => ?_, rfl⟩
          cases of
          exact final_of_checked reported checked operation decisive
        · cases step
          exact inv.nextGoto .idle
      · cases step
    | _ =>
      simp only [Dispatch.after, at_] at step
      cases step
  | settle p env c =>
    cases at_ : w.task p with
    | reconciled e receipt =>
      simp only [Dispatch.after, at_] at step
      cases step
      refine inv.nextContinue (fun r t ran => reconcileWrite_moves inv.tables (fun closed => ?_) ran) .idle
        fun _ _ _ => .idle
      exact inv.receipt p _ receipt (by rw [at_]; rfl) (decisive_of_closed closed)
    | _ =>
      simp only [Dispatch.after, at_] at step
      cases step
  | stop p =>
    cases step
    exact inv.nextGoto .idle
  | finalize id =>
    cases step
    exact inv.still inv.finalize rfl

end Steps

/-! ## Runs -/

/-- The world after any events; one whose task does not stand there is passed over. -/
def World.step (host : Host) (w : World) (e : Event) : World := (Dispatch.after host w e).getD w

def reached (host : Host) (now : Nat) (events : List Event) : World :=
  events.foldl (World.step host) (World.initial now)

theorem Inv.step {w : World} (inv : Inv w) (e : Event) : Next w (w.step host e) := by
  unfold World.step
  cases next : Dispatch.after host w e with
  | none => exact inv.still inv rfl
  | some w' => exact inv.after next

theorem Inv.initial {now : Nat} : Inv (.initial now) where
  tables := ⟨⟨nodup_nil, nodup_nil, nodup_nil, fun _ mem => (nomatch mem),
    fun _ mem => (nomatch mem), fun _ mem => (nomatch mem)⟩, fun _ mem => (nomatch mem),
    fun _ _ lock => (nomatch lock)⟩
  admitted _ _ _ mem := nomatch mem
  ordered before _ _ split := by
    cases before with
    | nil => cases split
    | cons _ _ => cases split
  calls := nodup_nil
  subject _ _ of := nomatch of
  receipt _ _ _ of := nomatch of
  admits _ _ of := nomatch of
  uncalled _ _ of := nomatch of
  alone _ _ _ _ of := nomatch of

theorem reached_inv {now : Nat} {events : List Event} : Inv (reached host now events) := by
  induction events using List.reverseRecOn with
  | nil => exact .initial
  | append_singleton events e ih =>
    rw [reached, foldl_append]
    exact (ih.step e).inv

/-- An approved action is sent at most once, on its approval, and not beside another. -/
theorem dispatch_exclusive (host : Host) (now : Nat) (events : List Event) :
    let w := reached host now events
    (w.tables.executions.map (·.approvalId)).Nodup ∧
    (w.tables.executions.map fun e => (e.actorId, e.requestKey)).Nodup ∧
    (w.log.filterMap Entry.called?).Nodup ∧
    (∀ before i rest, w.log = before ++ .called i :: rest →
      ∃ t at_, .admitted i.executionId t at_ ∈ before ∧
        (∃ e plan, e.id = i.executionId ∧ Admissible t at_ e plan) ∧
        ∃ e ∈ w.tables.executions, e.id = i.executionId ∧ e.sentAt = some at_) ∧
    (∀ e ∈ w.tables.executions, ∀ e' ∈ w.tables.executions,
      e.state.closed = false → e'.state.closed = false → e = e') ∧
    (∀ key id, w.tables.locks key = some id ↔
      ∃ e ∈ w.tables.executions, e.id = id ∧ e.state.closed = false ∧ w.tables.lockOf e key) ∧
    (∀ id ∈ w.log.filterMap Entry.called?, id ∉ w.final →
      ∃ e ∈ w.tables.executions, e.id = id ∧ (e.state = .dispatching ∨ e.state = .outcomeUnknown)) ∧
    ∀ event, ∀ e ∈ w.tables.executions, e.state.closed = true →
      e ∈ (w.step host event).tables.executions := by
  intro w
  have inv : Inv w := reached_inv
  refine ⟨inv.tables.approvals, inv.tables.requests, inv.calls, ?_, ?_, ?_, ?_, ?_⟩
  · intro before i rest split
    obtain ⟨t, at_, earlier⟩ := inv.ordered before i rest split
    obtain ⟨admissible, e, mem, same, -, sent, -⟩ :=
      inv.admitted i.executionId t at_ (split ▸ mem_append_left _ earlier)
    exact ⟨t, at_, earlier, admissible, e, mem, same, sent⟩
  · intro e mem e' mem' open_ open'
    have global := inv.tables.held e mem open_ .global (.inl rfl)
    have global' := inv.tables.held e' mem' open' .global (.inl rfl)
    exact inj_on_of_nodup_map inv.tables.ids mem mem' (some.inj (global.symm.trans global'))
  · intro key id
    refine ⟨inv.tables.holder key id, ?_⟩
    rintro ⟨e, mem, rfl, open_, lock⟩
    exact inv.tables.held e mem open_ key lock
  · intro id called unsettled
    obtain ⟨t, at_, mem⟩ := inv.admitted_of_called called
    obtain ⟨e, inside, same, late, -, ends⟩ := (inv.admitted id t at_ mem).2.row
    refine ⟨e, inside, same, ?_⟩
    cases state : e.state with
    | dispatching => exact .inl rfl
    | outcomeUnknown => exact .inr rfl
    | queued | prechecking =>
      rw [state] at late
      cases late
    | succeeded | failed | cancelled =>
      rw [state] at ends
      exact absurd (ends rfl) unsettled
  · intro event e mem closed
    have next : Next w (w.step host event) := inv.step event
    obtain ⟨e', mem', follows⟩ := next.moves.rows e mem
    rw [← follows.closed closed]
    exact mem'

end Slide.Actions.Dispatch
