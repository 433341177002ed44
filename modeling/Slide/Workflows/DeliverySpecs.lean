import Slide.Workflows.DeliveryStore

/-!
# What a delivery transaction can do

Each transaction, once it is through, seen through the delivery states and the log alone: `Rows` for those that
grant, finish and decide nothing, and one inversion for each of the others.
-/

namespace Slide.Deliveries

open Transaction
open Slide.Workflows (DeliveryState)

/-- The states and the log, without the audit and the queue. -/
structure Core where
  now : Nat
  states : Table String Row
  nextAttempt : Nat
  log : List Entry

def Db.core (db : Db) : Core := ⟨db.now, db.states, db.nextAttempt, db.log⟩

/-! ## Rows -/

/-- A state in which a delivery stays until an operator decides, or for good. -/
def settled (state : DeliveryState) : Bool := state = .unknown || final state

/-- What no transaction changes of a row, and what it does to its state unless it grants or ends an attempt. -/
structure RowStep (row row' : Row) : Prop where
  request : ∀ r, row.request = some r → row'.request = some r
  until_ : ∀ u, row.idempotentUntil = some u → row'.idempotentUntil = some u
  final : final row.state = true → row'.state = row.state
  state : row'.state = row.state ∧ row'.attemptId = row.attemptId ∨ settled row'.state = true

structure Rows (c c' : Core) : Prop where
  now : c'.now = c.now
  nextAttempt : c'.nextAttempt = c.nextAttempt
  log : c'.log = c.log
  kept : ∀ key row, c.states.get key = some row → ∃ row', c'.states.get key = some row' ∧ RowStep row row'
  new : ∀ key row', c'.states.get key = some row' → c.states.get key = none → row'.state ≠ .sending

theorem RowStep.refl (row : Row) : RowStep row row where
  request _ same := same
  until_ _ same := same
  final _ := rfl
  state := .inl ⟨rfl, rfl⟩

theorem RowStep.trans {row row' row'' : Row} (first : RowStep row row') (second : RowStep row' row'') :
    RowStep row row'' where
  request r same := second.request r (first.request r same)
  until_ u same := second.until_ u (first.until_ u same)
  final ends := by
    have same := first.final ends
    rw [← same] at ends
    exact (second.final ends).trans same
  state := by
    rcases second.state with ⟨state, attempt⟩ | done
    · rw [state, attempt]
      exact first.state
    · exact .inr done

instance : Std.Refl Rows where
  refl _ := ⟨rfl, rfl, rfl, fun _ row found => ⟨row, found, .refl row⟩, fun _ _ found absent => by
    rw [absent] at found
    cases found⟩

instance : IsTrans Core Rows where
  trans c c' c'' first second := by
    refine ⟨second.now.trans first.now, second.nextAttempt.trans first.nextAttempt, second.log.trans first.log, ?_, ?_⟩
    · intro key row found
      obtain ⟨row', found', step⟩ := first.kept key row found
      obtain ⟨row'', found'', step'⟩ := second.kept key row' found'
      exact ⟨row'', found'', step.trans step'⟩
    · intro key row'' found absent
      cases middle : c'.states.get key with
      | none => exact second.new key row'' found middle
      | some row' =>
        obtain ⟨row, found', step⟩ := second.kept key row' middle
        rw [found, Option.some.injEq] at found'
        subst found'
        rcases step.state with ⟨state, -⟩ | done
        · rw [state]
          exact first.new key row' middle absent
        · intro sending
          rw [sending] at done
          cases done

section Statements

variable {db : Db} {key j : String} {row : Row} {f : Row → Row}

@[simp] theorem Db.get_set : (db.set key f).states.get j =
    if j = key then (db.states.get key).map f else db.states.get j := by
  simp [Db.set, Table.get_updateWhere]

theorem rows_set (step : ∀ row, db.states.get key = some row → RowStep row (f row)) :
    Rows db.core (db.set key f).core := by
  refine ⟨rfl, rfl, rfl, fun j row found => ?_, fun j row found absent => ?_⟩
  · by_cases same : j = key
    · subst same
      exact ⟨f row, by simp [Db.core, show db.states.get j = some row from found], step row found⟩
    · exact ⟨row, by simpa [Db.core, same] using found, .refl row⟩
  · have none_there : db.states.get j = none := absent
    have now_there : (db.set key f).states.get j = some row := found
    rw [Db.get_set] at now_there
    split_ifs at now_there with same
    · rw [← same, none_there] at now_there
      cases now_there
    · rw [none_there] at now_there
      cases now_there

theorem rows_put (absent : db.states.get key = none) (open_ : row.state ≠ .sending) :
    Rows db.core ({ db with states := db.states.put key row } : Db).core := by
  refine ⟨rfl, rfl, rfl, fun j old found => ⟨old, ?_, .refl old⟩, fun j new found none_there => ?_⟩
  · have there : db.states.get j = some old := found
    refine (Table.get_put_ne ?_).trans there
    rintro rfl
    rw [absent] at there
    cases there
  · have now_there : (db.states.put key row).get j = some new := found
    rw [Table.get_put] at now_there
    split_ifs at now_there
    · cases now_there
      exact open_
    · have missing : db.states.get j = none := none_there
      rw [missing] at now_there
      cases now_there

variable {job : ClaimedJob} {request : Option DeliveryRequest}

theorem rows_freeze : Rows db.core (db.freeze job request).core := by
  unfold Db.freeze
  split
  · rename_i absent
    exact rows_put absent (by simp)
  · refine rows_set fun row _ => ⟨fun r same => ?_, fun _ same => same, fun _ => rfl, .inl ⟨rfl, rfl⟩⟩
    simp [same]

theorem rows_legacy {identity : DeliveryIdentity} : Rows db.core (db.legacy identity).core := by
  unfold Db.legacy
  split
  · rename_i row state found legacy
    split_ifs with open_
    · refine rows_set fun row' found' => ⟨fun _ same => same, fun _ same => same, fun ends => ?_, .inr ?_⟩
      · rw [found, Option.some.injEq] at found'
        subst found'
        rcases open_.2.1 with ready | retryable
        · rw [ready] at ends
          cases ends
        · rw [retryable] at ends
          cases ends
      · unfold Db.legacyState at legacy
        simp only at legacy
        split_ifs at legacy
        · cases legacy
          rfl
        · obtain ⟨a, -, same⟩ := Option.map_eq_some_iff.mp legacy
          split_ifs at same <;> subst same <;> rfl
    · exact refl_of Rows db.core
  · exact refl_of Rows db.core

theorem rows_interrupt (found : db.states.get key = some row) (sending : row.state = .sending) :
    Rows db.core (db.interrupt key row).core := by
  have moved := @rows_set (db.attemptResult row .unknown (some "DELIVERY_INTERRUPTED")) key
    (fun row => { row with state := .unknown, version := row.version + 1, errorCode := some "DELIVERY_INTERRUPTED" })
    fun row' found' => ?_
  · exact moved
  · have same : db.states.get key = some row' := found'
    rw [found, Option.some.injEq] at same
    subst same
    refine ⟨fun _ same => same, fun _ same => same, fun ends => ?_, .inr rfl⟩
    rw [sending] at ends
    cases ends

theorem rows_skip (found : db.states.get key = some row) (open_ : final row.state = false) :
    Rows db.core (db.skip key).core := by
  refine rows_set fun row' found' => ⟨fun _ same => same, fun _ same => same, fun ends => ?_, .inr rfl⟩
  rw [found, Option.some.injEq] at found'
  subst found'
  rw [open_] at ends
  cases ends

end Statements

/-! ## Transactions -/

section Transactions

variable {db db' : Db} {job : ClaimedJob} {request : Option DeliveryRequest} {started : Int} {row : Row} {key : String}
  {r : Acquired}

theorem owned_silent : Keeps Eq (owned job) := fun s _ s' ran => by
  unfold owned at ran
  rw [reading_bind_ok] at ran
  exact (ensure_ok.mp ran).2.symm

theorem locked_silent {e : String} : Keeps Eq (locked key e) := fun s row s' ran => by
  unfold locked at ran
  rw [reading_bind_ok] at ran
  exact Keeps.need s row s' ran

theorem locked_found {e : String} {s : Db} (ran : locked key e s = .ok (row, db')) : s.states.get key = some row := by
  unfold locked at ran
  rw [reading_bind_ok] at ran
  cases there : s.states.get key with
  | none =>
    rw [there] at ran
    cases ran
  | some row' =>
    rw [there] at ran
    cases ran
    rfl

theorem insertAttempt_ok {attempt : Attempt} {s : Db} (ran : insertAttempt attempt s = .ok ((), db')) :
    db'.core = s.core := by
  unfold insertAttempt at ran
  rw [reading_bind_ok, ensure_bind_ok, write_ok] at ran
  rw [ran.2]
  rfl

theorem preflightFailed_ok (ran : preflightFailed job db = .ok ((), db')) : Rows db.core db'.core := by
  unfold preflightFailed at ran
  obtain ⟨-, -, ran⟩ := owned_silent.bind_ok ran
  rw [write_bind_ok] at ran
  rw [insertAttempt_ok ran]
  unfold Table.insertNew
  split_ifs with there
  · exact refl_of Rows db.core
  · exact rows_put (Option.not_isSome_iff_eq_none.mp there) (by simp)

/-- The deadline of a repeated attempt comes from the instant its row has, which is not over. -/
def Deadline (now : Nat) (started : Int) (row : Row) : Option Int → Prop
  | none => row.state = .ready ∨ row.state = .retryable
  | some d => row.state = .unknown ∧ ∃ u, row.idempotentUntil = some u ∧ now < u ∧ d = started + ((u : Int) - (now : Int))

/-- `grant` has claimed an attempt for the frozen request, or only changed its row. -/
inductive Granted (job : ClaimedJob) (started : Int) (db : Db) (row : Row) (db' : Db) : Acquired → Prop
  | claim {frozen : DeliveryRequest} {deadline : Option Int} :
    row.request = some frozen → Deadline db.now started row deadline →
      db'.core = (db.send job frozen deadline.isNone).core →
      Granted job started db row db' (.claim ⟨job.identity.key, db.nextAttempt, frozen, deadline⟩)
  | nothing : Rows db.core db'.core → Granted job started db row db' .nothing
  | uncertain : Rows db.core db'.core → Granted job started db row db' .uncertain

theorem grant_ok (found : db.states.get job.identity.key = some row) (open_ : final row.state = false)
    (still : row.state ≠ .sending) (ran : grant job started row db = .ok (r, db')) :
    Granted job started db row db' r := by
  unfold grant at ran
  rw [reading_bind_ok] at ran
  simp only [id] at ran
  by_cases lost : row.state = .unknown ∧ (row.idempotentUntil.any fun until_ => db.now < until_) = false
  · rw [if_pos lost] at ran
    obtain ⟨rfl, rfl⟩ := pure_ok.mp ran
    exact .uncertain (refl_of Rows db'.core)
  · rw [if_neg lost] at ran
    cases frozen : row.request with
    | none =>
      rw [frozen] at ran
      simp only at ran
      rw [write_bind_ok] at ran
      obtain ⟨rfl, rfl⟩ := pure_ok.mp ran
      exact .nothing (rows_skip found open_)
    | some request =>
      rw [frozen] at ran
      simp only at ran
      rw [write_bind_ok, bind_ok] at ran
      obtain ⟨⟨⟩, s, inserted, ran⟩ := ran
      obtain ⟨rfl, rfl⟩ := pure_ok.mp ran
      refine .claim frozen ?_ (insertAttempt_ok inserted)
      split_ifs with uncertain
      · refine ⟨uncertain, ?_⟩
        have within : (row.idempotentUntil.any fun until_ => db.now < until_) = true := by
          simpa [uncertain] using lost
        cases until_ : row.idempotentUntil with
        | none =>
          rw [until_] at within
          cases within
        | some u =>
          rw [until_] at within
          exact ⟨u, rfl, by simpa using within, rfl⟩
      · unfold final at open_
        cases state : row.state <;> simp_all [Deadline]

theorem acquire_ok (ran : acquire job request started db = .ok (r, db')) :
    (r = .nothing ∧ Rows db.core db'.core) ∨
      ∃ s row, Rows db.core s.core ∧ s.states.get job.identity.key = some row ∧ Granted job started s row db' r := by
  unfold acquire at ran
  obtain ⟨-, -, ran⟩ := owned_silent.bind_ok ran
  rw [write_bind_ok, write_bind_ok] at ran
  obtain ⟨row, read, ran⟩ := locked_silent.bind_ok ran
  have found := locked_found read
  have moved : Rows db.core ((db.freeze job request).legacy job.identity).core := trans_of Rows rows_freeze rows_legacy
  by_cases ends : final row.state = true
  · rw [if_pos ends] at ran
    obtain ⟨rfl, rfl⟩ := pure_ok.mp ran
    exact .inl ⟨rfl, moved⟩
  · rw [if_neg ends] at ran
    by_cases sending : row.state = .sending
    · rw [if_pos sending, reading_bind_ok, ensure_bind_ok, write_bind_ok] at ran
      obtain ⟨row', read, ran⟩ := locked_silent.bind_ok ran.2
      have found' := locked_found read
      have state : row'.state = .unknown := by
        rw [Db.interrupt, Db.get_set, if_pos rfl] at found'
        obtain ⟨old, -, rfl⟩ := Option.map_eq_some_iff.mp found'
        rfl
      refine .inr ⟨_, row', trans_of Rows moved (rows_interrupt found sending), found', grant_ok found' ?_ ?_ ran⟩
      · rw [state]
        rfl
      · rw [state]
        exact fun same => nomatch same
    · rw [if_neg sending] at ran
      exact .inr ⟨_, row, moved, found, grant_ok found (Bool.eq_false_iff.mpr ends) sending ran⟩

theorem finish_ok {claim : DeliveryClaim} {state : DeliveryState} {error : Option String}
    (ran : finish job claim state error db = .ok ((), db')) :
    ∃ row, db.states.get claim.key = some row ∧ row.state = .sending ∧ row.attemptId = some claim.attemptId ∧
      db'.core = ((db.set claim.key fun row => { row with state, errorCode := error, version := row.version + 1 }).note
        (.finished claim.key claim.attemptId state)).core := by
  unfold finish at ran
  obtain ⟨-, -, ran⟩ := owned_silent.bind_ok ran
  obtain ⟨row, read, ran⟩ := locked_silent.bind_ok ran
  have found := locked_found read
  rw [ensure_bind_ok] at ran
  obtain ⟨⟨sending, attempt, -, -⟩, ran⟩ := ran
  refine ⟨row, found, sending, attempt, ?_⟩
  by_cases recorded : state = .sent ∧ row.kind = .notification
  · rw [if_pos recorded] at ran
    rw [write_bind_ok, write_bind_ok, write_bind_ok, write_ok] at ran
    rw [ran]
    rfl
  · rw [if_neg recorded] at ran
    simp only at ran
    rw [write_bind_ok, write_bind_ok, write_ok] at ran
    rw [ran]
    rfl

theorem replay_ok {jobId reason : String} {actorId : Nat} {authority : Authority}
    (ran : replay jobId actorId reason authority db = .ok ((), db')) : db'.core = db.core := by
  unfold replay at ran
  rw [ensure_bind_ok, reading_bind_ok, need_bind_ok] at ran
  obtain ⟨-, job, -, ran⟩ := ran
  rw [ensure_bind_ok, ensure_bind_ok, need_bind_ok] at ran
  obtain ⟨-, -, identity, -, ran⟩ := ran
  rw [ensure_bind_ok, write_bind_ok, write_bind_ok, ensure_ok] at ran
  rw [ran.2.2]
  rfl

theorem recover_ok {jobId : String} {actorId : Nat} {input : RecoverInput} {authority : Authority}
    (ran : recover jobId actorId input authority db = .ok ((), db')) :
    ∃ key row, db.states.get key = some row ∧ (row.state = .unknown ∨ row.state = .sending) ∧
      db'.core = ((db.set key fun row =>
        { row with state := input.decision.state, version := row.version + 1, errorCode := some input.decision.code }).note
          (.decided key input.decision)).core := by
  unfold recover at ran
  rw [ensure_bind_ok, reading_bind_ok, need_bind_ok] at ran
  obtain ⟨-, job, -, ran⟩ := ran
  rw [ensure_bind_ok, need_bind_ok] at ran
  obtain ⟨-, identity, -, ran⟩ := ran
  obtain ⟨row, read, ran⟩ := locked_silent.bind_ok ran
  have found := locked_found read
  rw [ensure_bind_ok, write_bind_ok, ensure_bind_ok, write_bind_ok, write_bind_ok, write_bind_ok, write_bind_ok,
    ensure_ok] at ran
  obtain ⟨⟨-, state, -⟩, -, -, same⟩ := ran
  refine ⟨identity.key, row, found, state, ?_⟩
  rw [same]
  rfl

end Transactions

end Slide.Deliveries
