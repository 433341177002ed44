import Mathlib.Data.List.Induction
import Slide.Workflows.DeliveryHandlers
import Slide.Workflows.DeliverySpecs

/-!
# How often a delivery is sent

An attempt is fresh, or it repeats an uncertain one before the instant that the first attempt has fixed.  `Inv`
says that a key has at most one fresh attempt that has invoked the transport or may still do so, as long as
no operator has decided to retry and no repetition that gave up has been recorded as retryable.
-/

namespace Slide.Deliveries

open Transaction List
open Slide.Workflows (DeliveryState)

/-! ## What a handler may still do -/

namespace Phase

def claim? : Phase → Option DeliveryClaim
  | .gating claim | .transporting claim | .awaiting claim | .finishing claim _ _ _ _ => some claim
  | _ => none

/-- The transport may still be invoked. -/
def live : Phase → Bool
  | .gating _ | .transporting _ => true
  | _ => false

/-- The transport has not been invoked. -/
def unstarted : Phase → Bool
  | .gating _ | .transporting _ => true
  | .finishing _ started _ _ _ => !started
  | _ => false

/-- Only an attempt that has not reached the transport ends as retryable. -/
def proper : Phase → Prop
  | .finishing _ started state _ _ => settled state = true ∨ started = false ∧ state = .retryable
  | _ => True

end Phase

/-- The attempt that an entry invokes the transport for. -/
def Entry.invoked? : Entry → Option Nat
  | .invoked _ attempt _ _ => some attempt
  | _ => none

/-- An operator has decided to retry, or a repetition has ended as retryable. -/
def Excused (log : List Entry) (key : String) : Prop :=
  .decided key .retry ∈ log ∨ ∃ a, .acquired key a false ∈ log ∧ .finished key a .retryable ∈ log

/-- An attempt that has invoked the transport or may still do so. -/
def Active (log : List Entry) (task : Nat → Option Task) (key : String) (a : Nat) : Prop :=
  (∃ r at_, .invoked key a r at_ ∈ log) ∨
    ∃ p t claim, task p = some t ∧ t.phase.claim? = some claim ∧ t.phase.live = true ∧ claim.key = key ∧
      claim.attemptId = a

/-- At most one fresh attempt of a key is active. -/
def OneFresh (log : List Entry) (task : Nat → Option Task) (key : String) : Prop :=
  ∀ a b, .acquired key a true ∈ log → .acquired key b true ∈ log → Active log task key a → Active log task key b → a = b

/-- What the state of a key says of its active attempts. -/
def Control (log : List Entry) (task : Nat → Option Task) (key : String) (row : Row) : Prop :=
  match row.state with
  | .ready | .retryable => ∀ a, ¬ Active log task key a
  | .sending =>
    (∀ a, row.attemptId = some a → .acquired key a true ∈ log → ∀ b, Active log task key b → b = a) ∧
      OneFresh log task key
  | _ => OneFresh log task key

/-- What a claim has in common with the row of its key. -/
structure ClaimOk (c : Core) (skew : Int) (claim : DeliveryClaim) : Prop where
  acquired : .acquired claim.key claim.attemptId claim.fresh ∈ c.log
  row : ∃ row, c.states.get claim.key = some row ∧ row.request = some claim.request ∧
    ∀ d, claim.retryDeadline = some d → ∃ u, row.idempotentUntil = some u ∧ d ≤ u + skew

/-- What an invocation has in common with the row of its key. -/
structure InvokedOk (c : Core) (key : String) (a : Nat) (request : DeliveryRequest) (at_ : Nat) : Prop where
  acquired : ∃ fresh, .acquired key a fresh ∈ c.log
  row : ∃ row, c.states.get key = some row ∧ row.request = some request ∧
    (.acquired key a false ∈ c.log → ∃ u, row.idempotentUntil = some u ∧ at_ < u)

structure Inv (c : Core) (task : Nat → Option Task) : Prop where
  ids : ∀ key a fresh, .acquired key a fresh ∈ c.log → a < c.nextAttempt
  same : ∀ key key' a fresh fresh', .acquired key a fresh ∈ c.log → .acquired key' a fresh' ∈ c.log →
    key = key' ∧ fresh = fresh'
  rowed : ∀ key a fresh, .acquired key a fresh ∈ c.log → ∃ row, c.states.get key = some row
  invoked : ∀ key a request at_, .invoked key a request at_ ∈ c.log → InvokedOk c key a request at_
  once : (c.log.filterMap Entry.invoked?).Nodup
  held : ∀ p t claim, task p = some t → t.phase.claim? = some claim → ClaimOk c t.skew claim
  apart : ∀ p q t t' claim claim', task p = some t → task q = some t' → t.phase.claim? = some claim →
    t'.phase.claim? = some claim' → claim.attemptId = claim'.attemptId → p = q
  unstarted : ∀ p t claim, task p = some t → t.phase.claim? = some claim → t.phase.unstarted = true →
    ∀ key request at_, .invoked key claim.attemptId request at_ ∉ c.log
  clock : ∀ p t request started, task p = some t → t.phase = .acquiring request started → started ≤ c.now + t.skew
  proper : ∀ p t, task p = some t → t.phase.proper
  sending : ∀ key row, c.states.get key = some row → row.state = .sending →
    ∃ a fresh, row.attemptId = some a ∧ .acquired key a fresh ∈ c.log
  control : ∀ key row, c.states.get key = some row → ¬ Excused c.log key → Control c.log task key row

section Steps

variable {c c' : Core} {task : Nat → Option Task} {key : String} {row : Row} {log log' : List Entry} {p : Nat} {t : Task}

theorem Excused.mono (excused : Excused log key) (grows : log ⊆ log') : Excused log' key := by
  rcases excused with decided | ⟨a, acquired, finished⟩
  · exact .inl (grows decided)
  · exact .inr ⟨a, grows acquired, grows finished⟩

theorem Control.one (control : Control log task key row) : OneFresh log task key := by
  unfold Control at control
  cases state : row.state with
  | ready | retryable =>
    rw [state] at control
    exact fun a _ _ _ active => absurd active (control a)
  | sending =>
    rw [state] at control
    exact control.2
  | sent | failed | unknown | skipped =>
    rw [state] at control
    exact control

theorem control_of_settled (ends : settled row.state = true) :
    Control log task key row ↔ OneFresh log task key := by
  unfold Control
  cases state : row.state <;> rw [state] at ends <;> first | rfl | cases ends

theorem control_congr {row' : Row} (state : row'.state = row.state) (attempt : row'.attemptId = row.attemptId) :
    Control log task key row' ↔ Control log task key row := by
  unfold Control
  rw [state, attempt]

theorem Control.mono {task' : Nat → Option Task} (control : Control log task key row)
    (active : ∀ a, Active log' task' key a → Active log task key a)
    (acquired : ∀ a, .acquired key a true ∈ log' → .acquired key a true ∈ log) : Control log' task' key row := by
  have one : OneFresh log' task' key := fun a b of_a of_b active_a active_b =>
    control.one a b (acquired a of_a) (acquired b of_b) (active a active_a) (active b active_b)
  unfold Control at control ⊢
  cases state : row.state with
  | ready | retryable =>
    rw [state] at control
    exact fun a active_a => control a (active a active_a)
  | sending =>
    rw [state] at control
    exact ⟨fun a attempt fresh b active_b => control.1 a attempt (acquired a fresh) b (active b active_b), one⟩
  | _ => exact one

theorem of_update {next : Option Task} {q : Nat} {t' : Task} (here : Function.update task p next q = some t') :
    q = p ∧ next = some t' ∨ q ≠ p ∧ task q = some t' := by
  rw [Function.update_apply] at here
  split_ifs at here with same
  · exact .inl ⟨same, here⟩
  · exact .inr ⟨same, here⟩

/-- The rows stay, with what the first attempt of their key has fixed. -/
def Keeps (c c' : Core) : Prop :=
  ∀ key row, c.states.get key = some row → ∃ row', c'.states.get key = some row' ∧
    (∀ r, row.request = some r → row'.request = some r) ∧
    ∀ u, row.idempotentUntil = some u → row'.idempotentUntil = some u

theorem Keeps.of_states (states : c'.states = c.states) : Keeps c c' :=
  fun _ row found => ⟨row, states ▸ found, fun _ same => same, fun _ same => same⟩

theorem InvokedOk.mono {a at_ : Nat} {request : DeliveryRequest} (ok : InvokedOk c key a request at_)
    (kept : Keeps c c') (grows : c.log ⊆ c'.log)
    (old : .acquired key a false ∈ c'.log → .acquired key a false ∈ c.log) : InvokedOk c' key a request at_ := by
  obtain ⟨⟨fresh, acquired⟩, row, found, frozen, bounded⟩ := ok
  obtain ⟨row', found', request, until_⟩ := kept key row found
  refine ⟨⟨fresh, grows acquired⟩, row', found', request _ frozen, fun repeated => ?_⟩
  obtain ⟨u, same, less⟩ := bounded (old repeated)
  exact ⟨u, until_ u same, less⟩

variable {claim : DeliveryClaim}

theorem ClaimOk.mono {skew : Int} (ok : ClaimOk c skew claim) (kept : Keeps c c')
    (grows : c.log ⊆ c'.log) : ClaimOk c' skew claim := by
  obtain ⟨acquired, row, found, frozen, deadline⟩ := ok
  obtain ⟨row', found', request, until_⟩ := kept _ row found
  refine ⟨grows acquired, row', found', request _ frozen, fun d same => ?_⟩
  obtain ⟨u, same, less⟩ := deadline d same
  exact ⟨u, until_ u same, less⟩

theorem Inv.rowed_mono (inv : Inv c task) (kept : Keeps c c') {a : Nat} {fresh : Bool}
    (acquired : .acquired key a fresh ∈ c.log) : ∃ row, c'.states.get key = some row := by
  obtain ⟨row, found⟩ := inv.rowed key a fresh acquired
  exact (kept key row found).imp fun _ => And.left

theorem Inv.rows (inv : Inv c task) (rows : Rows c c') : Inv c' task := by
  have kept : ∀ key row, c.states.get key = some row → ∃ row', c'.states.get key = some row' ∧ RowStep row row' :=
    rows.kept
  obtain ⟨now, states, nextAttempt, log⟩ := c
  obtain ⟨now', states', nextAttempt', log'⟩ := c'
  obtain rfl : now' = now := rows.now
  obtain rfl : nextAttempt' = nextAttempt := rows.nextAttempt
  obtain rfl : log' = log := rows.log
  have keeps : Keeps ⟨now', states, nextAttempt', log'⟩ ⟨now', states', nextAttempt', log'⟩ := by
    intro key row found
    obtain ⟨row', found', step⟩ := kept key row found
    exact ⟨row', found', step.request, step.until_⟩
  refine { inv with
    rowed := fun key a fresh acquired => inv.rowed_mono keeps acquired
    invoked := fun key a request at_ mem => (inv.invoked key a request at_ mem).mono keeps (Subset.refl _) id
    held := fun p t claim here of_phase => (inv.held p t claim here of_phase).mono keeps (Subset.refl _)
    sending := ?_, control := ?_ }
  · intro key row' found' sending
    cases found : states.get key with
    | none => exact absurd sending (rows.new key row' found' found)
    | some row =>
      obtain ⟨row'', found'', step⟩ := kept key row found
      obtain rfl := some.inj (found'.symm.trans found'')
      rcases step.state with ⟨state, attempt⟩ | done
      · rw [attempt]
        exact inv.sending key row found (state.symm.trans sending)
      · rw [sending] at done
        cases done
  · intro key row' found' calm
    cases found : states.get key with
    | none =>
      -- a key without a row has no attempt
      have none_acquired : ∀ a, ¬ Active log' task key a := by
        rintro a (⟨r, at_, invoked⟩ | ⟨p, t, claim, here, of_phase, -, rfl, -⟩)
        · obtain ⟨row, found', -⟩ := (inv.invoked key a r at_ invoked).row
          rw [found] at found'
          cases found'
        · obtain ⟨row, found', -⟩ := (inv.held p t claim here of_phase).row
          rw [found] at found'
          cases found'
      have one : OneFresh log' task key := fun a _ _ _ active => absurd active (none_acquired a)
      unfold Control
      cases state : row'.state with
      | ready | retryable => exact none_acquired
      | sending => exact absurd state (rows.new key row' found' found)
      | _ => exact one
    | some row =>
      obtain ⟨row'', found'', step⟩ := kept key row found
      obtain rfl := some.inj (found'.symm.trans found'')
      have control := inv.control key row found calm
      rcases step.state with ⟨state, attempt⟩ | done
      · exact (control_congr state attempt).mpr control
      · exact (control_of_settled done).mpr control.one

theorem Inv.tick (inv : Inv c task) {now : Nat} (later : c.now ≤ now) : Inv { c with now } task := by
  refine { inv with clock := fun p t request started here of_phase => ?_, invoked := ?_, held := ?_ }
  · exact fun key a request at_ mem => ⟨(inv.invoked key a request at_ mem).acquired, (inv.invoked key a request at_ mem).row⟩
  · exact fun p t claim here of_phase => ⟨(inv.held p t claim here of_phase).acquired, (inv.held p t claim here of_phase).row⟩
  · have before := inv.clock p t request started here of_phase
    have later' : (c.now : Int) ≤ (now : Int) := by exact_mod_cast later
    show started ≤ (now : Int) + t.skew
    omega

/-- A handler that goes on, with the claim that it has had, if any. -/
structure Inherits (task : Nat → Option Task) (p now : Nat) (t' : Task) : Prop where
  claim : ∀ claim, t'.phase.claim? = some claim → ∃ t, task p = some t ∧ t.skew = t'.skew ∧
    t.phase.claim? = some claim ∧ (t'.phase.live = true → t.phase.live = true) ∧
    (t'.phase.unstarted = true → t.phase.unstarted = true)
  clock : ∀ request started, t'.phase = .acquiring request started → started ≤ now + t'.skew
  proper : t'.phase.proper

theorem Inv.replace (inv : Inv c task) {next : Option Task}
    (inherits : ∀ t', next = some t' → Inherits task p c.now t') : Inv c (Function.update task p next) := by
  -- a claim of the new tasks is one of the old ones, at the same place
  have back : ∀ q t' claim, Function.update task p next q = some t' → t'.phase.claim? = some claim →
      ∃ t, task q = some t ∧ t.skew = t'.skew ∧ t.phase.claim? = some claim ∧
        (t'.phase.live = true → t.phase.live = true) ∧ (t'.phase.unstarted = true → t.phase.unstarted = true) := by
    intro q t' claim here of_phase
    rcases of_update here with ⟨rfl, same⟩ | ⟨-, there⟩
    · exact (inherits t' same).claim claim of_phase
    · exact ⟨t', there, rfl, of_phase, id, id⟩
  have less_active : ∀ key a, Active c.log (Function.update task p next) key a → Active c.log task key a := by
    rintro key a (invoked | ⟨q, t', claim, here, of_phase, may, same_key, same_attempt⟩)
    · exact .inl invoked
    · obtain ⟨t, there, -, of_phase', may', -⟩ := back q t' claim here of_phase
      exact .inr ⟨q, t, claim, there, of_phase', may' may, same_key, same_attempt⟩
  refine { inv with
    held := ?_, apart := ?_, unstarted := ?_, clock := ?_, proper := ?_, control := ?_ }
  · intro q t' claim here of_phase
    obtain ⟨t, there, skew, of_phase', -⟩ := back q t' claim here of_phase
    rw [← skew]
    exact inv.held q t claim there of_phase'
  · intro q q' t t' claim claim' here here' of_phase of_phase' same
    obtain ⟨s, there, -, of_s, -⟩ := back q t claim here of_phase
    obtain ⟨s', there', -, of_s', -⟩ := back q' t' claim' here' of_phase'
    exact inv.apart q q' s s' claim claim' there there' of_s of_s' same
  · intro q t' claim here of_phase unstarted
    obtain ⟨t, there, -, of_phase', -, unstarted'⟩ := back q t' claim here of_phase
    exact inv.unstarted q t claim there of_phase' (unstarted' unstarted)
  · intro q t' request started here of_phase
    rcases of_update here with ⟨rfl, same⟩ | ⟨-, there⟩
    · exact (inherits t' same).clock request started of_phase
    · exact inv.clock q t' request started there of_phase
  · intro q t' here
    rcases of_update here with ⟨rfl, same⟩ | ⟨-, there⟩
    · exact (inherits t' same).proper
    · exact inv.proper q t' there
  · intro key row found calm
    exact (inv.control key row found calm).mono (less_active key) fun _ acquired => acquired

theorem Inv.stop (inv : Inv c task) : Inv c (Function.update task p none) := inv.replace fun _ none => nomatch none

theorem Inherits.of_none {t' : Task} {now : Nat} (nothing : t'.phase.claim? = none)
    (clock : ∀ request started, t'.phase = .acquiring request started → started ≤ now + t'.skew)
    (proper : t'.phase.proper) : Inherits task p now t' where
  claim claim holds := by
    rw [nothing] at holds
    cases holds
  clock := clock
  proper := proper

/-- The row of a granted attempt. -/
def Row.sent (row : Row) (db : Db) (job : ClaimedJob) (frozen : DeliveryRequest) : Row :=
  { row with
    state := .sending
    version := row.version + 1
    workflowJobId := job.id
    fencingToken := job.fencingToken
    attemptId := some db.nextAttempt
    errorCode := none
    idempotentUntil := row.idempotentUntil <|>
      if 0 < frozen.retention then some (db.now + frozen.retention) else none }

variable {db : Db} {job : ClaimedJob} {frozen : DeliveryRequest}

theorem Row.sent_until {u : Nat}
    (same : row.idempotentUntil = some u) : (row.sent db job frozen).idempotentUntil = some u := by
  simp [Row.sent, same]

theorem get_send (found : db.states.get job.identity.key = some row) (fresh : Bool) (j : String) :
    (db.send job frozen fresh).states.get j =
      if j = job.identity.key then some (row.sent db job frozen) else db.states.get j := by
  show (db.set job.identity.key _).states.get j = _
  rw [Db.get_set, found]
  rfl

theorem send_keeps
    (found : db.states.get job.identity.key = some row) (fresh : Bool) {j : String} {old : Row}
    (there : db.states.get j = some old) :
    ∃ new, (db.send job frozen fresh).states.get j = some new ∧ (∀ r, old.request = some r → new.request = some r) ∧
      ∀ u, old.idempotentUntil = some u → new.idempotentUntil = some u := by
  by_cases same : j = job.identity.key
  · rw [same, found, Option.some.injEq] at there
    subst there
    exact ⟨row.sent db job frozen, by rw [get_send found, if_pos same], fun _ same => same, fun _ => Row.sent_until⟩
  · exact ⟨old, by rw [get_send found, if_neg same, there], fun _ same => same, fun _ same => same⟩

theorem Inv.send {started : Int} {deadline : Option Int}
    (inv : Inv db.core task) (found : db.states.get job.identity.key = some row)
    (granted : Deadline db.now started row deadline) : Inv (db.send job frozen deadline.isNone).core task := by
  have log : (db.send job frozen deadline.isNone).core.log =
      db.core.log ++ [.acquired job.identity.key db.nextAttempt deadline.isNone] := rfl
  have states : ∀ j, (db.send job frozen deadline.isNone).core.states.get j =
      if j = job.identity.key then some (row.sent db job frozen) else db.states.get j := get_send found deadline.isNone
  have kept : Keeps db.core (db.send job frozen deadline.isNone).core :=
    fun j old there => send_keeps found deadline.isNone there
  have grows : db.core.log ⊆ (db.send job frozen deadline.isNone).core.log := log ▸ subset_append_left _ _
  have acquired_iff : ∀ key a fresh, .acquired key a fresh ∈ (db.send job frozen deadline.isNone).core.log ↔
      .acquired key a fresh ∈ db.core.log ∨
        key = job.identity.key ∧ a = db.nextAttempt ∧ fresh = deadline.isNone := by
    intro key a fresh
    rw [log, mem_append, mem_singleton, Entry.acquired.injEq]
  have invoked_iff : ∀ key a request at_, .invoked key a request at_ ∈ (db.send job frozen deadline.isNone).core.log ↔
      .invoked key a request at_ ∈ db.core.log := by
    intro key a request at_
    rw [log, mem_append, mem_singleton]
    simp
  have older : ∀ key a fresh, .acquired key a fresh ∈ db.core.log → a < db.nextAttempt := inv.ids
  have active_iff : ∀ key a, Active (db.send job frozen deadline.isNone).core.log task key a ↔
      Active db.core.log task key a := by
    intro key a
    unfold Active
    simp only [invoked_iff]
  have active_old : ∀ key a, Active db.core.log task key a → a < db.nextAttempt := by
    rintro key a (⟨r, at_, invoked⟩ | ⟨p, t, claim, here, of_phase, -, -, rfl⟩)
    · obtain ⟨fresh, acquired⟩ := (inv.invoked key a r at_ invoked).acquired
      exact older key a fresh acquired
    · exact older _ _ _ (inv.held p t claim here of_phase).acquired
  refine ⟨?_, ?_, ?_, ?_, ?_, ?_, inv.apart, ?_, inv.clock, inv.proper, ?_, ?_⟩
  · intro key a fresh acquired
    show a < db.nextAttempt + 1
    rcases (acquired_iff key a fresh).mp acquired with old | ⟨-, rfl, -⟩
    · exact Nat.lt_succ_of_lt (older key a fresh old)
    · exact Nat.lt_succ_self _
  · intro key key' a fresh fresh' acquired acquired'
    rcases (acquired_iff key a fresh).mp acquired with old | ⟨rfl, rfl, rfl⟩
    · rcases (acquired_iff key' a fresh').mp acquired' with old' | ⟨rfl, rfl, rfl⟩
      · exact inv.same key key' a fresh fresh' old old'
      · exact absurd (older key _ fresh old) (Nat.lt_irrefl _)
    · rcases (acquired_iff key' _ fresh').mp acquired' with old' | ⟨rfl, -, rfl⟩
      · exact absurd (older key' _ fresh' old') (Nat.lt_irrefl _)
      · exact ⟨rfl, rfl⟩
  · intro key a fresh acquired
    rcases (acquired_iff key a fresh).mp acquired with old | ⟨rfl, rfl, rfl⟩
    · exact inv.rowed_mono kept old
    · exact ⟨_, by rw [states, if_pos rfl]⟩
  · intro key a request at_ invoked
    have ok := inv.invoked key a request at_ ((invoked_iff _ _ _ _).mp invoked)
    refine ok.mono kept grows fun repeated => ?_
    rcases (acquired_iff key a false).mp repeated with old | ⟨-, rfl, -⟩
    · exact old
    · obtain ⟨fresh, acquired⟩ := ok.acquired
      exact absurd (older key _ fresh acquired) (Nat.lt_irrefl _)
  · rw [log, filterMap_append]
    exact (append_nil _).symm ▸ inv.once
  · exact fun p t claim here of_phase => (inv.held p t claim here of_phase).mono kept grows
  · intro p t claim here of_phase unstarted key request at_ invoked
    exact inv.unstarted p t claim here of_phase unstarted key request at_ ((invoked_iff _ _ _ _).mp invoked)
  · intro key row' found' sending
    rw [states] at found'
    split_ifs at found' with same
    · cases found'
      exact ⟨db.nextAttempt, deadline.isNone, rfl, (acquired_iff _ _ _).mpr (.inr ⟨same, rfl, rfl⟩)⟩
    · obtain ⟨a, fresh, attempt, acquired⟩ := inv.sending key row' found' sending
      exact ⟨a, fresh, attempt, grows acquired⟩
  · intro key row' found' calm
    have calm' : ¬ Excused db.core.log key := fun excused => calm (excused.mono grows)
    have one : ∀ old, Control db.core.log task key old → OneFresh (db.send job frozen deadline.isNone).core.log task key := by
      intro old control a b of_a of_b active active'
      rw [active_iff] at active active'
      rcases (acquired_iff key a true).mp of_a with of_a | ⟨-, rfl, -⟩
      · rcases (acquired_iff key b true).mp of_b with of_b | ⟨-, rfl, -⟩
        · exact control.one a b of_a of_b active active'
        · exact absurd (active_old key _ active') (Nat.lt_irrefl _)
      · exact absurd (active_old key _ active) (Nat.lt_irrefl _)
    rw [states] at found'
    split_ifs at found' with same
    · subst same
      cases found'
      have control := inv.control _ row found calm'
      refine ⟨?_, one row control⟩
      rintro a attempt fresh b active
      cases attempt
      rw [active_iff] at active
      rcases (acquired_iff _ _ _).mp fresh with old | ⟨-, -, first⟩
      · exact absurd (older _ _ _ old) (Nat.lt_irrefl _)
      · -- a fresh attempt is granted where nothing is active
        cases deadline with
        | some d => cases first
        | none =>
          unfold Control at control
          rcases granted with ready | retryable
          · rw [ready] at control
            exact absurd active (control b)
          · rw [retryable] at control
            exact absurd active (control b)
    · refine (inv.control key row' found' calm').mono (fun a => (active_iff key a).mp) fun a acquired => ?_
      rcases (acquired_iff key a true).mp acquired with old | ⟨other, -⟩
      · exact old
      · exact absurd other same

theorem Inv.take (inv : Inv c task) (acquired : .acquired claim.key claim.attemptId claim.fresh ∈ c.log)
    (found : c.states.get claim.key = some row) (sending : row.state = .sending)
    (attempt : row.attemptId = some claim.attemptId) (frozen : row.request = some claim.request)
    (deadline : ∀ d, claim.retryDeadline = some d → ∃ u, row.idempotentUntil = some u ∧ d ≤ u + t.skew)
    (uninvoked : ∀ key request at_, .invoked key claim.attemptId request at_ ∉ c.log)
    (free : ∀ q t claim', task q = some t → t.phase.claim? = some claim' → claim'.attemptId ≠ claim.attemptId) :
    Inv c (Function.update task p (some { t with phase := .gating claim })) := by
  have held_iff : ∀ q t' claim', Function.update task p (some { t with phase := .gating claim }) q = some t' →
      t'.phase.claim? = some claim' → q = p ∧ claim' = claim ∧ t'.skew = t.skew ∨ q ≠ p ∧ task q = some t' := by
    intro q t' claim' here of_phase
    rcases of_update here with ⟨rfl, same⟩ | other
    · cases same
      cases of_phase
      exact .inl ⟨rfl, rfl, rfl⟩
    · exact .inr other
  have active : ∀ key a, Active c.log (Function.update task p (some { t with phase := .gating claim })) key a →
      Active c.log task key a ∨ key = claim.key ∧ a = claim.attemptId := by
    rintro key a (invoked | ⟨q, t', claim', here, of_phase, may, rfl, rfl⟩)
    · exact .inl (.inl invoked)
    · rcases held_iff q t' claim' here of_phase with ⟨-, rfl, -⟩ | ⟨-, there⟩
      · exact .inr ⟨rfl, rfl⟩
      · exact .inl (.inr ⟨q, t', claim', there, of_phase, may, rfl, rfl⟩)
  refine { inv with held := ?_, apart := ?_, unstarted := ?_, clock := ?_, proper := ?_, control := ?_ }
  · intro q t' claim' here of_phase
    rcases held_iff q t' claim' here of_phase with ⟨-, rfl, skew⟩ | ⟨-, there⟩
    · exact ⟨acquired, row, found, frozen, skew ▸ deadline⟩
    · exact inv.held q t' claim' there of_phase
  · intro q q' s s' claim₁ claim₂ here here' of_phase of_phase' same
    rcases held_iff q s claim₁ here of_phase with ⟨rfl, rfl, -⟩ | ⟨-, there⟩
    · rcases held_iff q' s' claim₂ here' of_phase' with ⟨rfl, -, -⟩ | ⟨-, there'⟩
      · rfl
      · exact absurd same.symm (free q' s' claim₂ there' of_phase')
    · rcases held_iff q' s' claim₂ here' of_phase' with ⟨rfl, rfl, -⟩ | ⟨-, there'⟩
      · exact absurd same (free q s claim₁ there of_phase)
      · exact inv.apart q q' s s' claim₁ claim₂ there there' of_phase of_phase' same
  · intro q t' claim' here of_phase unstarted
    rcases held_iff q t' claim' here of_phase with ⟨-, rfl, -⟩ | ⟨-, there⟩
    · exact uninvoked
    · exact inv.unstarted q t' claim' there of_phase unstarted
  · intro q t' request started here of_phase
    rcases of_update here with ⟨-, same⟩ | ⟨-, there⟩
    · cases same
      cases of_phase
    · exact inv.clock q t' request started there of_phase
  · intro q t' here
    rcases of_update here with ⟨-, same⟩ | ⟨-, there⟩
    · cases same
      trivial
    · exact inv.proper q t' there
  · intro key row' found' calm
    have control := inv.control key row' found' calm
    by_cases same : key = claim.key
    · subst same
      obtain rfl := some.inj (found.symm.trans found')
      unfold Control at control ⊢
      rw [sending] at control ⊢
      refine ⟨fun a of_row fresh b active_b => ?_, fun a b of_a of_b active_a active_b => ?_⟩
      · rcases active _ b active_b with old | ⟨-, rfl⟩
        · exact control.1 a of_row fresh b old
        · exact some.inj (attempt.symm.trans of_row)
      · rcases active _ a active_a with old_a | ⟨-, rfl⟩
        · rcases active _ b active_b with old_b | ⟨-, rfl⟩
          · exact control.2 a b of_a of_b old_a old_b
          · exact control.1 _ attempt of_b a old_a
        · rcases active _ b active_b with old_b | ⟨-, rfl⟩
          · exact (control.1 _ attempt of_a b old_b).symm
          · rfl
    · refine control.mono (fun a active_a => ?_) fun _ acquired => acquired
      rcases active _ a active_a with old | ⟨other, -⟩
      · exact old
      · exact absurd other same

/-- An entry that neither grants nor invokes. -/
def Entry.quiet : Entry → Bool
  | .finished _ _ _ | .decided _ _ => true
  | _ => false

theorem Inv.note (inv : Inv c task) {e : Entry} (quiet : e.quiet = true) :
    Inv { c with log := c.log ++ [e] } task := by
  have grows : c.log ⊆ c.log ++ [e] := subset_append_left _ _
  have acquired_old : ∀ key a fresh, .acquired key a fresh ∈ c.log ++ [e] → .acquired key a fresh ∈ c.log := by
    intro key a fresh mem
    rcases mem_append.mp mem with old | new
    · exact old
    · rw [← mem_singleton.mp new] at quiet
      cases quiet
  have invoked_old : ∀ key a r at_, .invoked key a r at_ ∈ c.log ++ [e] → .invoked key a r at_ ∈ c.log := by
    intro key a r at_ mem
    rcases mem_append.mp mem with old | new
    · exact old
    · rw [← mem_singleton.mp new] at quiet
      cases quiet
  have silent : [e].filterMap Entry.invoked? = [] := by
    cases e <;> first | rfl | cases quiet
  refine ⟨fun key a fresh mem => inv.ids key a fresh (acquired_old key a fresh mem), ?_, ?_, ?_, ?_, ?_, inv.apart, ?_,
    inv.clock, inv.proper, ?_, ?_⟩
  · exact fun key key' a fresh fresh' mem mem' =>
      inv.same key key' a fresh fresh' (acquired_old _ _ _ mem) (acquired_old _ _ _ mem')
  · exact fun key a fresh mem => inv.rowed key a fresh (acquired_old _ _ _ mem)
  · exact fun key a r at_ mem =>
      (inv.invoked key a r at_ (invoked_old _ _ _ _ mem)).mono (.of_states rfl) grows (acquired_old _ _ _)
  · rw [filterMap_append, silent, append_nil]
    exact inv.once
  · exact fun q t claim here of_phase => (inv.held q t claim here of_phase).mono (.of_states rfl) grows
  · intro q t claim here of_phase unstarted key r at_ mem
    exact inv.unstarted q t claim here of_phase unstarted key r at_ (invoked_old _ _ _ _ mem)
  · intro key row found sending
    obtain ⟨a, fresh, attempt, acquired⟩ := inv.sending key row found sending
    exact ⟨a, fresh, attempt, grows acquired⟩
  · intro key row found calm
    refine (inv.control key row found fun excused => calm (excused.mono grows)).mono (fun a => ?_)
      fun a => acquired_old key a true
    rintro (⟨r, at_, invoked⟩ | may)
    · exact .inl ⟨r, at_, invoked_old _ _ _ _ invoked⟩
    · exact .inr may

theorem Inv.reopen {f : Row → Row} (inv : Inv db.core task) (found : db.states.get key = some row)
    (request : (f row).request = row.request) (until_ : (f row).idempotentUntil = row.idempotentUntil)
    (state : (f row).state = .retryable)
    (calm : ¬ Excused db.log key → ∀ a, ¬ Active db.log task key a) : Inv (db.set key f).core task := by
  have states : ∀ j, (db.set key f).states.get j = if j = key then some (f row) else db.states.get j := by
    intro j
    rw [Db.get_set, found]
    rfl
  have keeps : Keeps db.core (db.set key f).core := by
    intro j old there
    have there : db.states.get j = some old := there
    by_cases same : j = key
    · rw [same, found, Option.some.injEq] at there
      subst there
      exact ⟨f row, (states j).trans (if_pos same), fun _ => request.trans, fun _ => until_.trans⟩
    · exact ⟨old, (states j).trans ((if_neg same).trans there), fun _ same => same, fun _ same => same⟩
  refine { inv with
    rowed := fun j a fresh acquired => inv.rowed_mono keeps acquired
    invoked := fun j a r at_ mem => (inv.invoked j a r at_ mem).mono keeps (Subset.refl _) id
    held := fun q t claim here of_phase => (inv.held q t claim here of_phase).mono keeps (Subset.refl _)
    sending := ?_, control := ?_ }
  · intro j row' found' sending
    have there : (db.set key f).states.get j = some row' := found'
    rw [states] at there
    split_ifs at there
    · cases there
      rw [state] at sending
      cases sending
    · exact inv.sending j row' there sending
  · intro j row' found' still
    have there : (db.set key f).states.get j = some row' := found'
    rw [states] at there
    split_ifs at there with same
    · cases there
      subst same
      unfold Control
      rw [state]
      exact calm still
    · exact inv.control j row' there still

theorem rows_settle {f : Row → Row} (found : db.states.get key = some row) (open_ : final row.state = false)
    (request : ∀ row : Row, (f row).request = row.request) (until_ : ∀ row : Row, (f row).idempotentUntil = row.idempotentUntil)
    (ends : settled (f row).state = true) : Rows db.core (db.set key f).core := by
  refine rows_set fun row' found' => ?_
  rw [found, Option.some.injEq] at found'
  subst found'
  refine ⟨fun _ same => (request row).trans same, fun _ same => (until_ row).trans same, fun closed => ?_, .inr ends⟩
  rw [open_] at closed
  cases closed

theorem Inv.finish {started caught : Bool} {state : DeliveryState} {error : Option String}
    (inv : Inv db.core task) (here : task p = some t) (of_phase : t.phase = .finishing claim started state error caught)
    (found : db.states.get claim.key = some row) (sending : row.state = .sending)
    (attempt : row.attemptId = some claim.attemptId) :
    Inv ((db.set claim.key fun row => { row with state, errorCode := error, version := row.version + 1 }).note
      (.finished claim.key claim.attemptId state)).core task := by
  have noted : Inv (db.note (.finished claim.key claim.attemptId state)).core task := inv.note rfl
  have proper := inv.proper p t here
  rw [of_phase] at proper
  have holds : t.phase.claim? = some claim := by
    rw [of_phase]
    rfl
  rcases proper with ends | ⟨rfl, rfl⟩
  · exact noted.rows (rows_settle found (by rw [sending]; rfl) (fun _ => rfl) (fun _ => rfl) ends)
  · refine noted.reopen found rfl rfl rfl fun calm b active => ?_
    -- the attempt was fresh, so that it was the only active one, and it has not begun
    have control := inv.control claim.key row found fun excused => calm (excused.mono (subset_append_left _ _))
    unfold Control at control
    rw [sending] at control
    have acquired := (inv.held p t claim here holds).acquired
    have fresh : claim.fresh = true := by
      cases first : claim.fresh with
      | true => rfl
      | false =>
        rw [first] at acquired
        exact absurd (.inr ⟨_, mem_append_left _ acquired, mem_concat_self⟩) calm
    rw [fresh] at acquired
    have unstarted : t.phase.unstarted = true := by
      rw [of_phase]
      rfl
    have before : Active db.core.log task claim.key b := by
      rcases active with ⟨r, at_, invoked⟩ | may
      · rcases mem_append.mp invoked with old | new
        · exact .inl ⟨r, at_, old⟩
        · cases mem_singleton.mp new
      · exact .inr may
    obtain rfl := control.1 _ attempt acquired b before
    rcases before with ⟨r, at_, invoked⟩ | ⟨q, t', claim', there, of_phase', may, -, same⟩
    · exact inv.unstarted p t claim here holds unstarted claim.key r at_ invoked
    · obtain rfl := inv.apart q p t' t claim' claim there here of_phase' holds same
      obtain rfl := some.inj (here.symm.trans there)
      rw [of_phase] at may
      cases may

theorem Inv.decide {input : RecoverInput} (inv : Inv db.core task) (found : db.states.get key = some row)
    (state : row.state = .unknown ∨ row.state = .sending) :
    Inv ((db.set key fun row =>
        { row with state := input.decision.state, version := row.version + 1, errorCode := some input.decision.code }).note
          (.decided key input.decision)).core task := by
  have noted : Inv (db.note (.decided key input.decision)).core task := inv.note rfl
  have open_ : final row.state = false := by
    rcases state with unknown | sending
    · rw [unknown]
      rfl
    · rw [sending]
      rfl
  cases decided : input.decision with
  | sent | abandon =>
    rw [decided] at noted
    exact noted.rows (rows_settle found open_ (fun _ => rfl) (fun _ => rfl) rfl)
  | retry =>
    rw [decided] at noted
    exact noted.reopen found rfl rfl rfl fun calm => absurd (.inl mem_concat_self) calm

theorem Inv.invoke (inv : Inv c task) (here : task p = some t)
    (of_phase : t.phase = .transporting claim)
    (within : ∀ d, claim.retryDeadline = some d → (c.now : Int) + t.skew < d) :
    Inv { c with log := c.log ++ [.invoked claim.key claim.attemptId claim.request c.now] }
      (Function.update task p (some { t with phase := .awaiting claim })) := by
  have holds : t.phase.claim? = some claim := by
    rw [of_phase]
    rfl
  obtain ⟨acquired, row, found, frozen, deadline⟩ := inv.held p t claim here holds
  have grows : c.log ⊆ c.log ++ [.invoked claim.key claim.attemptId claim.request c.now] := subset_append_left _ _
  have acquired_old : ∀ key a fresh,
      .acquired key a fresh ∈ c.log ++ [.invoked claim.key claim.attemptId claim.request c.now] →
        .acquired key a fresh ∈ c.log := by
    intro key a fresh mem
    rcases mem_append.mp mem with old | new
    · exact old
    · cases mem_singleton.mp new
  have uninvoked : ∀ key r at_, .invoked key claim.attemptId r at_ ∉ c.log :=
    inv.unstarted p t claim here holds (by rw [of_phase]; rfl)
  have back : ∀ q t' claim', Function.update task p (some { t with phase := .awaiting claim }) q = some t' →
      t'.phase.claim? = some claim' → q = p ∧ claim' = claim ∧ t'.skew = t.skew ∧ t'.phase = .awaiting claim ∨
        q ≠ p ∧ task q = some t' := by
    intro q t' claim' here' of_phase'
    rcases of_update here' with ⟨rfl, same⟩ | other
    · cases same
      cases of_phase'
      exact .inl ⟨rfl, rfl, rfl, rfl⟩
    · exact .inr other
  refine ⟨fun key a fresh mem => inv.ids key a fresh (acquired_old key a fresh mem), ?_, ?_, ?_, ?_, ?_, ?_, ?_, ?_, ?_, ?_, ?_⟩
  · exact fun key key' a fresh fresh' mem mem' =>
      inv.same key key' a fresh fresh' (acquired_old _ _ _ mem) (acquired_old _ _ _ mem')
  · exact fun key a fresh mem => inv.rowed key a fresh (acquired_old _ _ _ mem)
  · intro key a r at_ mem
    rcases mem_append.mp mem with old | new
    · exact (inv.invoked key a r at_ old).mono (.of_states rfl) grows (acquired_old _ _ _)
    · cases mem_singleton.mp new
      refine ⟨⟨_, grows acquired⟩, row, found, frozen, fun repeated => ?_⟩
      obtain ⟨-, fresh⟩ := inv.same _ _ _ _ _ (acquired_old _ _ _ repeated) acquired
      cases d : claim.retryDeadline with
      | none =>
        rw [DeliveryClaim.fresh, d] at fresh
        cases fresh
      | some d' =>
        obtain ⟨u, until_, less⟩ := deadline d' d
        have early := within d' d
        exact ⟨u, until_, by omega⟩
  · rw [filterMap_append]
    refine nodup_append.mpr ⟨inv.once, by simp [Entry.invoked?], ?_⟩
    intro a mem b new same
    obtain ⟨e, inside, of_e⟩ := mem_filterMap.mp mem
    simp only [Entry.invoked?, filterMap_cons, filterMap_nil, mem_singleton] at new
    subst new
    subst same
    cases e with
    | invoked key a r at_ =>
      cases of_e
      exact uninvoked key r at_ inside
    | _ => cases of_e
  · intro q t' claim' here' of_phase'
    rcases back q t' claim' here' of_phase' with ⟨-, rfl, skew, -⟩ | ⟨-, there⟩
    · exact ⟨grows acquired, row, found, frozen, skew ▸ deadline⟩
    · exact (inv.held q t' claim' there of_phase').mono (.of_states rfl) grows
  · intro q q' s s' claim₁ claim₂ here₁ here₂ of₁ of₂ same
    rcases back q s claim₁ here₁ of₁ with ⟨rfl, rfl, -⟩ | ⟨-, there₁⟩
    · rcases back q' s' claim₂ here₂ of₂ with ⟨rfl, -⟩ | ⟨-, there₂⟩
      · rfl
      · exact inv.apart _ q' t s' _ claim₂ here there₂ holds of₂ same
    · rcases back q' s' claim₂ here₂ of₂ with ⟨rfl, rfl, -⟩ | ⟨-, there₂⟩
      · exact inv.apart q _ s t claim₁ _ there₁ here of₁ holds same
      · exact inv.apart q q' s s' claim₁ claim₂ there₁ there₂ of₁ of₂ same
  · intro q t' claim' here' of_phase' unstarted key r at_ mem
    rcases back q t' claim' here' of_phase' with ⟨-, -, -, awaiting⟩ | ⟨differs, there⟩
    · rw [awaiting] at unstarted
      cases unstarted
    · rcases mem_append.mp mem with old | new
      · exact inv.unstarted q t' claim' there of_phase' unstarted key r at_ old
      · obtain ⟨-, same, -⟩ := Entry.invoked.inj (mem_singleton.mp new)
        exact differs (inv.apart q p t' t claim' claim there here of_phase' holds same)
  · intro q t' r started here' of_phase'
    rcases of_update here' with ⟨-, same⟩ | ⟨-, there⟩
    · cases same
      cases of_phase'
    · exact inv.clock q t' r started there of_phase'
  · intro q t' here'
    rcases of_update here' with ⟨-, same⟩ | ⟨-, there⟩
    · cases same
      trivial
    · exact inv.proper q t' there
  · intro key row found sending
    obtain ⟨a, fresh, attempt, acquired⟩ := inv.sending key row found sending
    exact ⟨a, fresh, attempt, grows acquired⟩
  · intro key row found calm
    refine (inv.control key row found fun excused => calm (excused.mono grows)).mono (fun a => ?_)
      fun a => acquired_old key a true
    rintro (⟨r, at_, invoked⟩ | ⟨q, t', claim', here', of_phase', may, same_key, same_attempt⟩)
    · rcases mem_append.mp invoked with old | new
      · exact .inl ⟨r, at_, old⟩
      · obtain ⟨rfl, rfl, -⟩ := Entry.invoked.inj (mem_singleton.mp new)
        exact .inr ⟨p, t, claim, here, holds, by rw [of_phase]; rfl, rfl, rfl⟩
    · rcases back q t' claim' here' of_phase' with ⟨-, -, -, awaiting⟩ | ⟨-, there⟩
      · rw [awaiting] at may
        cases may
      · exact .inr ⟨q, t', claim', there, of_phase', may, same_key, same_attempt⟩

/-! ## One step -/

theorem Inv.acquire {db' : Db} {request : Option DeliveryRequest} {started : Int} {r : Acquired}
    (inv : Inv db.core task) (early : started ≤ db.now + t.skew)
    (ran : Deliveries.acquire t.job request started db = .ok (r, db')) :
    Inv db'.core task ∧ ∀ claim, r = .claim claim →
      Inv db'.core (Function.update task p (some { t with phase := .gating claim })) := by
  rcases acquire_ok ran with ⟨rfl, rows⟩ | ⟨s, row, rows, found, granted⟩
  · exact ⟨inv.rows rows, fun _ same => nomatch same⟩
  · have before := inv.rows rows
    cases granted with
    | nothing rows => exact ⟨before.rows rows, fun _ same => nomatch same⟩
    | uncertain rows => exact ⟨before.rows rows, fun _ same => nomatch same⟩
    | @claim request deadline frozen granted same =>
      have sent : Inv (s.send t.job request deadline.isNone).core task := before.send found granted
      rw [same]
      refine ⟨sent, ?_⟩
      rintro claim ⟨⟩
      have older : ∀ key a fresh, .acquired key a fresh ∈ s.log → a < s.nextAttempt := before.ids
      have there : (s.send t.job request deadline.isNone).states.get t.job.identity.key =
          some (row.sent s t.job request) := (get_send found _ _).trans (if_pos rfl)
      refine sent.take mem_concat_self there rfl rfl frozen
        (fun d same => ?_) (fun key r at_ mem => ?_) fun q t' claim' there of_phase same => ?_
      · cases same
        obtain ⟨-, u, until_, -, rfl⟩ := granted
        refine ⟨u, Row.sent_until until_, ?_⟩
        have now : s.now = db.now := rows.now
        rw [now]
        omega
      · rcases mem_append.mp mem with old | new
        · obtain ⟨fresh, acquired⟩ := (before.invoked key _ r at_ old).acquired
          exact absurd (older key _ fresh acquired) (Nat.lt_irrefl _)
        · cases mem_singleton.mp new
      · have acquired := (before.held q t' claim' there of_phase).acquired
        rw [same] at acquired
        exact absurd (older _ _ _ acquired) (Nat.lt_irrefl _)

theorem Phase.proper_caught (claim : DeliveryClaim) (started : Bool) : (World.caughtPhase claim started).proper := by
  cases started
  · exact .inr ⟨rfl, rfl⟩
  · exact .inl rfl

theorem Inherits.of_claim {t' : Task} {now : Nat} (here : task p = some t) (skew : t.skew = t'.skew)
    (holds : t.phase.claim? = some claim) (holds' : t'.phase.claim? = some claim)
    (live : t'.phase.live = true → t.phase.live = true) (unstarted : t'.phase.unstarted = true → t.phase.unstarted = true)
    (proper : t'.phase.proper) : Inherits task p now t' where
  claim claim' same := ⟨t, here, skew, holds.trans (holds'.symm.trans same), live, unstarted⟩
  clock request started same := by
    rw [same] at holds'
    cases holds'
  proper := proper

variable {w : World}

theorem Inv.advance (inv : Inv w.db.core w.task) (here : w.task p = some t) (move : Move) :
    Inv (w.advance p t move).db.core (w.advance p t move).task := by
  have goes : ∀ phase, Inherits w.task p w.db.now { t with phase } →
      Inv (w.goto p t (some phase)).db.core (w.goto p t (some phase)).task := by
    intro phase inherits
    exact inv.replace fun t' same => some.inj same ▸ inherits
  have quiet : ∀ phase : Phase, phase.claim? = none → (∀ request started, phase = .acquiring request started →
      started ≤ w.db.now + t.skew) → phase.proper → Inherits w.task p w.db.now { t with phase } :=
    fun phase nothing clock proper => @Inherits.of_none w.task p { t with phase } w.db.now nothing clock proper
  cases move with
  | look =>
    simp only [World.advance]
    split
    · split
      · exact goes _ (quiet _ rfl (fun _ _ same => nomatch same) trivial)
      · exact goes _ (quiet _ rfl (fun _ _ same => nomatch same) trivial)
    · exact inv
  | enabled yes =>
    simp only [World.advance]
    split
    · cases yes with
      | true =>
        refine goes _ (quiet _ rfl (fun request started same => ?_) trivial)
        cases same
        exact le_refl (w.clock t)
      | false => exact inv.stop
    · exact inv
  | prepared result =>
    simp only [World.advance]
    split
    · split
      · refine goes _ (quiet _ rfl (fun request started same => ?_) trivial)
        cases same
        exact le_refl (w.clock t)
      · exact goes _ (quiet _ rfl (fun _ _ same => nomatch same) trivial)
    · exact inv
  | transact commit =>
    simp only [World.advance]
    split
    · have kept : Inv (perform (preflightFailed t.job) commit w.db).2.core w.task :=
        @perform_keeps Db String Unit (preflightFailed t.job) commit w.db (fun db => Inv db.core w.task) inv
          fun _ _ ran => inv.rows (preflightFailed_ok ran)
      exact kept.stop
    · rename_i request started of_phase
      have early := inv.clock p t request started here of_phase
      unfold World.transact
      rcases @perform_cases _ _ _ (Deliveries.acquire t.job request started) commit w.db with same | ⟨r, db', ran, same | same⟩
      · rw [same]
        exact inv.stop
      · rw [same]
        obtain ⟨kept, taken⟩ := inv.acquire early ran
        cases r with
        | claim claim => exact taken claim rfl
        | nothing | uncertain => exact kept.stop
      · rw [same]
        exact (inv.acquire (p := p) early ran).1.stop
    · rename_i claim started state error caught of_phase
      have holds : t.phase.claim? = some claim := by
        rw [of_phase]
        rfl
      have inherits : ∀ now, Inherits w.task p now { t with phase := World.caughtPhase claim started } := by
        intro now
        refine .of_claim here rfl holds ?_ ?_ ?_ (Phase.proper_caught claim started)
        · cases started <;> rfl
        · cases started <;> exact fun impossible => nomatch impossible
        · intro unstarted
          rw [of_phase]
          cases started
          · rfl
          · cases unstarted
      unfold World.transact
      have through : ∀ db', Deliveries.finish t.job claim state error w.db = .ok ((), db') → Inv db'.core w.task := by
        intro db' ran
        obtain ⟨row, found, sending, attempt, same⟩ := finish_ok ran
        rw [same]
        exact inv.finish here of_phase found sending attempt
      have caught_ : ∀ db', Inv db'.core w.task → Inv ({ w with db := db' }.goto p t
          (if caught then some (World.caughtPhase claim started) else none)).db.core
          ({ w with db := db' }.goto p t (if caught then some (World.caughtPhase claim started) else none)).task := by
        intro db' kept
        cases caught with
        | true => exact kept.replace fun t' same => some.inj same ▸ inherits _
        | false => exact kept.stop
      rcases @perform_cases _ _ _ (Deliveries.finish t.job claim state error) commit w.db with same | ⟨⟨⟩, db', ran, same | same⟩
      · rw [same]
        exact caught_ w.db inv
      · rw [same]
        exact (through db' ran).stop
      · rw [same]
        exact caught_ db' (through db' ran)
    · exact inv
  | gate gate =>
    simp only [World.advance]
    split
    · rename_i claim of_phase
      have holds : t.phase.claim? = some claim := by
        rw [of_phase]
        rfl
      refine goes _ (.of_claim here rfl holds ?_ ?_ ?_ ?_)
      · cases gate <;> rfl
      · exact fun _ => by rw [of_phase]; rfl
      · exact fun _ => by rw [of_phase]; rfl
      · cases gate
        · trivial
        · exact .inl rfl
        · exact .inl rfl
        · exact .inr ⟨rfl, rfl⟩
    · exact inv
  | send invokes =>
    simp only [World.advance]
    split
    · rename_i claim of_phase
      have holds : t.phase.claim? = some claim := by
        rw [of_phase]
        rfl
      split_ifs with invoking
      · refine inv.invoke here of_phase fun d same => ?_
        rw [Bool.and_eq_true, same] at invoking
        exact of_decide_eq_true invoking.2
      · exact goes _ (.of_claim here rfl holds rfl (fun impossible => nomatch impossible)
          (fun impossible => nomatch impossible) (.inl rfl))
    · exact inv
  | answer success =>
    simp only [World.advance]
    split
    · rename_i claim of_phase
      have holds : t.phase.claim? = some claim := by
        rw [of_phase]
        rfl
      refine goes _ (.of_claim here rfl holds ?_ ?_ ?_ ?_)
      · cases success <;> rfl
      · cases success <;> exact fun impossible => nomatch impossible
      · cases success <;> exact fun impossible => nomatch impossible
      · cases success <;> exact .inl rfl
    · exact inv

theorem Inv.step (inv : Inv w.db.core w.task) (event : Event) : Inv (w.step event).db.core (w.step event).task := by
  cases event with
  | tick milliseconds => exact inv.tick (Nat.le_add_right _ _)
  | queue id row => exact inv
  | start p id workerId skew =>
    simp only [World.step]
    split
    · split
      · split_ifs
        · exact inv.replace fun t' same => some.inj same ▸
            .of_none rfl (fun _ _ same => nomatch same) trivial
        · exact inv
      · exact inv
    · exact inv
  | move p move =>
    simp only [World.step]
    split
    · exact inv.advance ‹_› move
    · exact inv
  | stop p => exact inv.stop
  | replay jobId actorId reason authority commit =>
    exact @perform_keeps Db String Unit (replay jobId actorId reason authority) commit w.db
      (fun db => Inv db.core w.task) inv fun _ db' ran => by
        rw [replay_ok ran]
        exact inv
  | recover jobId actorId input authority commit =>
    refine @perform_keeps Db String Unit (recover jobId actorId input authority) commit w.db
      (fun db => Inv db.core w.task) inv fun _ db' ran => ?_
    obtain ⟨key, row, found, state, same⟩ := recover_ok ran
    rw [same]
    exact inv.decide found state

end Steps

/-! ## What stays -/

/-- The request and the instant of a key stay, and so does a final state, for which nothing more is granted. -/
structure Stays (c c' : Core) (key : String) (row row' : Row) : Prop where
  request : ∀ r, row.request = some r → row'.request = some r
  until_ : ∀ u, row.idempotentUntil = some u → row'.idempotentUntil = some u
  final : final row.state = true → row'.state = row.state ∧
    ∀ a fresh, .acquired key a fresh ∈ c'.log → .acquired key a fresh ∈ c.log

def Persists (c c' : Core) : Prop :=
  ∀ key row, c.states.get key = some row → ∃ row', c'.states.get key = some row' ∧ Stays c c' key row row'

section Persistence

variable {c c' c'' : Core} {w : World} {p : Nat} {t : Task}

theorem Persists.refl (c : Core) : Persists c c :=
  fun _ row found => ⟨row, found, fun _ same => same, fun _ same => same, fun _ => ⟨rfl, fun _ _ mem => mem⟩⟩

theorem Persists.trans (first : Persists c c') (second : Persists c' c'') : Persists c c'' := by
  intro key row found
  obtain ⟨row', found', stays⟩ := first key row found
  obtain ⟨row'', found'', stays'⟩ := second key row' found'
  refine ⟨row'', found'', fun r same => stays'.request r (stays.request r same),
    fun u same => stays'.until_ u (stays.until_ u same), fun ends => ?_⟩
  obtain ⟨state, old⟩ := stays.final ends
  obtain ⟨state', old'⟩ := stays'.final (state ▸ ends)
  exact ⟨state'.trans state, fun a fresh mem => old a fresh (old' a fresh mem)⟩

theorem Rows.persists (rows : Rows c c') : Persists c c' := by
  intro key row found
  obtain ⟨row', found', step⟩ := rows.kept key row found
  refine ⟨row', found', step.request, step.until_, fun ends => ⟨step.final ends, fun a fresh mem => ?_⟩⟩
  rwa [rows.log] at mem

theorem persists_note {e : Entry} (silent : ∀ key a fresh, e ≠ .acquired key a fresh) :
    Persists c { c with log := c.log ++ [e] } := by
  refine fun key row found => ⟨row, found, fun _ same => same, fun _ same => same, fun _ => ⟨rfl, fun a fresh mem => ?_⟩⟩
  rcases mem_append.mp mem with old | new
  · exact old
  · exact absurd (mem_singleton.mp new).symm (silent key a fresh)

theorem persists_set {db : Db} {key : String} {row : Row} {f : Row → Row} (found : db.states.get key = some row)
    (open_ : final row.state = false) (request : (f row).request = row.request)
    (until_ : (f row).idempotentUntil = row.idempotentUntil) : Persists db.core (db.set key f).core := by
  intro j old there
  have there : db.states.get j = some old := there
  by_cases same : j = key
  · subst same
    obtain rfl := some.inj (found.symm.trans there)
    refine ⟨f row, show (db.set j f).states.get j = _ by rw [Db.get_set, if_pos rfl, found]; rfl,
      fun _ same => request.trans same, fun _ same => until_.trans same, fun ends => ?_⟩
    rw [open_] at ends
    cases ends
  · exact ⟨old, show (db.set key f).states.get j = _ by rw [Db.get_set, if_neg same, there],
      fun _ same => same, fun _ same => same, fun _ => ⟨rfl, fun _ _ mem => mem⟩⟩

theorem persists_send {db : Db} {job : ClaimedJob} {frozen : DeliveryRequest} {fresh : Bool} {row : Row}
    (found : db.states.get job.identity.key = some row) (open_ : final row.state = false) :
    Persists db.core (db.send job frozen fresh).core := by
  intro j old there
  obtain ⟨new, there', request, until_⟩ := send_keeps found fresh there
  refine ⟨new, there', request, until_, fun ends => ?_⟩
  have other : j ≠ job.identity.key := by
    rintro rfl
    obtain rfl := some.inj (found.symm.trans there)
    rw [open_] at ends
    cases ends
  have same : new = old := by
    have there : db.states.get j = some old := there
    have there' : (db.send job frozen fresh).states.get j = some new := there'
    rw [get_send found, if_neg other, there, Option.some.injEq] at there'
    exact there'.symm
  subst same
  refine ⟨rfl, fun a fresh' mem => ?_⟩
  rcases mem_append.mp mem with old | new
  · exact old
  · obtain ⟨same, -⟩ := Entry.acquired.inj (mem_singleton.mp new)
    exact absurd same other

theorem persists_acquire {db db' : Db} {job : ClaimedJob} {request : Option DeliveryRequest} {started : Int}
    {r : Acquired} (ran : acquire job request started db = .ok (r, db')) : Persists db.core db'.core := by
  rcases acquire_ok ran with ⟨-, rows⟩ | ⟨s, row, rows, found, granted⟩
  · exact rows.persists
  · refine rows.persists.trans ?_
    cases granted with
    | nothing rows => exact rows.persists
    | uncertain rows => exact rows.persists
    | @claim request deadline frozen granted same =>
      rw [same]
      refine persists_send found ?_
      cases deadline with
      | none =>
        rcases granted with ready | retryable
        · rw [ready]
          rfl
        · rw [retryable]
          rfl
      | some d =>
        rw [granted.1]
        rfl

theorem persists_finish {db db' : Db} {job : ClaimedJob} {claim : DeliveryClaim} {state : DeliveryState}
    {error : Option String} (ran : finish job claim state error db = .ok ((), db')) : Persists db.core db'.core := by
  obtain ⟨row, found, sending, -, same⟩ := finish_ok ran
  rw [same]
  have set := @persists_set db claim.key row (fun row => { row with state, errorCode := error, version := row.version + 1 })
    found (by rw [sending]; rfl) rfl rfl
  exact set.trans (persists_note fun _ _ _ same => nomatch same)

theorem persists_advance (w : World) (p : Nat) (t : Task) (move : Move) :
    Persists w.db.core (w.advance p t move).db.core := by
  have performs : ∀ {α : Type} (body : Tx α) (commit : Commit) (next : Option α → Option Phase),
      (∀ a db', body w.db = .ok (a, db') → Persists w.db.core db'.core) →
        Persists w.db.core (w.transact p t body commit next).db.core := by
    intro α body commit next through
    exact @perform_keeps Db String α body commit w.db (fun db => Persists w.db.core db.core) (.refl _) through
  cases move with
  | look =>
    simp only [World.advance]
    split
    · split <;> exact .refl _
    · exact .refl _
  | enabled yes =>
    simp only [World.advance]
    split <;> exact .refl _
  | prepared result =>
    simp only [World.advance]
    split
    · split <;> exact .refl _
    · exact .refl _
  | transact commit =>
    simp only [World.advance]
    split
    · exact performs _ commit _ fun _ _ ran => (preflightFailed_ok ran).persists
    · exact performs _ commit _ fun _ _ ran => persists_acquire ran
    · exact performs _ commit _ fun _ _ ran => persists_finish ran
    · exact .refl _
  | gate gate =>
    simp only [World.advance]
    split <;> exact .refl _
  | send invokes =>
    simp only [World.advance]
    split
    · split_ifs
      · exact persists_note fun _ _ _ same => nomatch same
      · exact .refl _
    · exact .refl _
  | answer success =>
    simp only [World.advance]
    split <;> exact .refl _

theorem persists_step (w : World) (event : Event) : Persists w.db.core (w.step event).db.core := by
  cases event with
  | tick milliseconds =>
    exact fun _ row found => ⟨row, found, fun _ same => same, fun _ same => same, fun _ => ⟨rfl, fun _ _ mem => mem⟩⟩
  | queue id row => exact .refl _
  | start p id workerId skew =>
    simp only [World.step]
    split
    · split
      · split_ifs <;> exact .refl _
      · exact .refl _
    · exact .refl _
  | move p move =>
    simp only [World.step]
    split
    · exact persists_advance w p _ move
    · exact .refl _
  | stop p => exact .refl _
  | replay jobId actorId reason authority commit =>
    exact @perform_keeps Db String Unit (replay jobId actorId reason authority) commit w.db
      (fun db => Persists w.db.core db.core) (.refl _) fun _ db' ran => by
        rw [replay_ok ran]
        exact .refl _
  | recover jobId actorId input authority commit =>
    refine @perform_keeps Db String Unit (recover jobId actorId input authority) commit w.db
      (fun db => Persists w.db.core db.core) (.refl _) fun _ db' ran => ?_
    obtain ⟨key, row, found, state, same⟩ := recover_ok ran
    have open_ : final row.state = false := by
      rcases state with unknown | sending
      · rw [unknown]
        rfl
      · rw [sending]
        rfl
    rw [same]
    have set := @persists_set w.db key row (fun row =>
      { row with state := input.decision.state, version := row.version + 1, errorCode := some input.decision.code })
      found open_ rfl rfl
    exact set.trans (persists_note fun _ _ _ same => nomatch same)

end Persistence

/-! ## Any run -/

theorem inv_reached (history : History) (events : List Event) :
    Inv (reached history events).db.core (reached history events).task := by
  unfold reached
  induction events using List.reverseRecOn with
  | nil =>
    refine ⟨?_, ?_, ?_, ?_, nodup_nil, ?_, ?_, ?_, ?_, ?_, ?_, ?_⟩
    · exact fun _ _ _ none => nomatch none
    · exact fun _ _ _ _ _ none => nomatch none
    · exact fun _ _ _ none => nomatch none
    · exact fun _ _ _ _ none => nomatch none
    · exact fun _ _ _ none => nomatch none
    · exact fun _ _ _ _ _ _ none => nomatch none
    · exact fun _ _ _ none => nomatch none
    · exact fun _ _ _ _ none => nomatch none
    · exact fun _ _ none => nomatch none
    · exact fun _ _ none => nomatch none
    · exact fun _ _ none => nomatch none
  | append_singleton events event ih =>
    rw [foldl_append]
    exact ih.step event

theorem persists_reached (history : History) (events later : List Event) :
    Persists (reached history events).db.core (reached history (events ++ later)).db.core := by
  induction later using List.reverseRecOn with
  | nil =>
    rw [append_nil]
    exact .refl _
  | append_singleton later event ih =>
    unfold reached at ih ⊢
    rw [← append_assoc, foldl_append]
    exact ih.trans (persists_step _ event)

/-- In every run: an attempt invokes the transport at most once, with the frozen request of its key; unless an
operator has decided to retry, or a repeated attempt has ended as retryable, all invocations for a key but one
start before the instant that its first attempt has fixed, and none has been made for a retryable key; a final
state stays, and nothing more is granted for it. -/
theorem deliveries_at_most_once (history : History) (events : List Event) :
    ((reached history events).db.log.filterMap Entry.invoked?).Nodup ∧
    (∀ key a request at_, .invoked key a request at_ ∈ (reached history events).db.log →
      (∃ fresh, .acquired key a fresh ∈ (reached history events).db.log) ∧
        ∃ row, (reached history events).db.states.get key = some row ∧ row.request = some request) ∧
    (∀ key, ¬ Excused (reached history events).db.log key →
      (∀ a b request request' at_ at', .invoked key a request at_ ∈ (reached history events).db.log →
        .invoked key b request' at' ∈ (reached history events).db.log → a ≠ b →
          ∃ row u, (reached history events).db.states.get key = some row ∧ row.idempotentUntil = some u ∧
            (at_ < u ∨ at' < u)) ∧
      ∀ row, (reached history events).db.states.get key = some row → row.state = .retryable →
        ∀ a request at_, .invoked key a request at_ ∉ (reached history events).db.log) ∧
    ∀ later, Persists (reached history events).db.core (reached history (events ++ later)).db.core := by
  have inv := inv_reached history events
  refine ⟨inv.once, fun key a request at_ invoked => ?_, fun key calm => ⟨?_, ?_⟩, persists_reached history events⟩
  · obtain ⟨acquired, row, found, frozen, -⟩ := inv.invoked key a request at_ invoked
    exact ⟨acquired, row, found, frozen⟩
  · intro a b request request' at_ at' invoked invoked' differ
    obtain ⟨⟨fresh, acquired⟩, row, found, -, bounded⟩ := inv.invoked key a request at_ invoked
    obtain ⟨⟨fresh', acquired'⟩, row', found', -, bounded'⟩ := inv.invoked key b request' at' invoked'
    obtain rfl := some.inj (found.symm.trans found')
    cases fresh with
    | false =>
      obtain ⟨u, until_, less⟩ := bounded acquired
      exact ⟨row, u, found, until_, .inl less⟩
    | true =>
      cases fresh' with
      | false =>
        obtain ⟨u, until_, less⟩ := bounded' acquired'
        exact ⟨row, u, found, until_, .inr less⟩
      | true =>
        -- two fresh attempts would both be active
        exact absurd ((inv.control key row found calm).one a b acquired acquired' (.inl ⟨request, at_, invoked⟩)
          (.inl ⟨request', at', invoked'⟩)) differ
  · intro row found state a request at_ invoked
    have control := inv.control key row found calm
    unfold Control at control
    rw [state] at control
    exact control a (.inl ⟨request, at_, invoked⟩)

/-! ## A stalled worker -/

private def anyRequest : DeliveryRequest := ⟨⟨2, "email", none, 0⟩, "disk full", none⟩

/-- A worker is granted an attempt and stalls; its lease ends, and an operator decides that it was sent. -/
private def stalledRun : List Event :=
  [.queue "job" ⟨"notification.deliver", ⟨some 1, none, some 2, none⟩, .running, 1, 0, some "a", some 30000, 1, none, none⟩,
    .start 0 "job" "a" 0, .move 0 .look, .move 0 (.prepared (some (some anyRequest))), .move 0 (.transact .done),
    .move 0 (.gate .publish), .tick 40000,
    .recover "job" 7 ⟨2, .sent, "seen at the receiver", "mailbox checked", false⟩ ⟨true, true⟩ .done]

/-- The worker then starts its transport, for a key in a final state. -/
theorem final_state_still_invokes :
    ¬ ∀ (history : History) (events : List Event) (event : Event) (key : String) (row : Row),
      (reached history events).db.states.get key = some row → final row.state = true →
        ∀ a request at_, .invoked key a request at_ ∈ (reached history (events ++ [event])).db.log →
          .invoked key a request at_ ∈ (reached history events).db.log := by
  intro claim
  have again := claim ⟨[], []⟩ stalledRun (.move 0 (.send true)) "notification:1:2"
    ⟨.notification, 1, 2, .sent, 3, "job", 1, some 0, some anyRequest, none, some "RECOVERY_SENT"⟩
    (by rfl) (by rfl) 0 anyRequest 40000 (by decide)
  exact absurd again (by decide)

end Slide.Deliveries
