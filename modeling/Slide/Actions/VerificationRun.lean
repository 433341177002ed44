import Mathlib.Data.List.Chain
import Slide.Actions.Verification
import Slide.Library.Run

/-!
# Reports of an execution are measurements

* `VerificationReport.Continues`: what a version keeps of the one before it.
* `Measured`, `Passed`: what the slots of a report say about the execution, and what `passed` says.
* `verification_reports_sound`: both, after any steps of any workers, with a bound on each call.
-/

namespace Slide.Actions

open Transition Versioned List

variable {v : Verification} {db db' : Db} {reports : List VerificationReport}
  {r old new : VerificationReport} {e : Execution} {sent start now : Int} {receipt : ActionReceipt}
  {slot : SampleSlot} {slots : List SampleSlot} {wait : Wait} {kind : SlotKind}

/-! ## Reports -/

/-- What a version keeps of the one before it: all its slots, to which it adds one unless it is final. -/
structure VerificationReport.Continues (old new : VerificationReport) : Prop where
  version : new.version = old.version + 1
  identity : new.identity = old.identity
  before : new.before = old.before
  unfinished : old.state.final = false
  slots : (∃ kind slot, new.state = .observing ∧ new.slots kind = old.slots kind ++ [slot] ∧
      ∀ other, other ≠ kind → new.slots other = old.slots other) ∨
    new.state.final = true ∧ ∀ kind, new.slots kind = old.slots kind

/-! ## Slots -/

/-- Slot `k`, from one on, is `k` intervals after the start. -/
def Dated (start : Int) (slots : List SampleSlot) : Prop :=
  slots.map (·.at_) = (range slots.length).map fun k : Nat => start + ((k : Int) + 1) * 10000

theorem Dated.snoc (dated : Dated start slots) (next : slot.at_ = start + ((slots.length : Int) + 1) * 10000) :
    Dated start (slots ++ [slot]) := by
  unfold Dated at *
  rw [map_append, dated, length_append, length_singleton, range_succ,
    map_append, map_singleton, map_singleton, next]

theorem Dated.le (dated : Dated start slots) (inside : slot ∈ slots) :
    slot.at_ ≤ start + (slots.length : Int) * 10000 := by
  have listed := mem_map_of_mem (f := (·.at_)) inside
  rw [dated] at listed
  obtain ⟨k, below, at_⟩ := mem_map.mp listed
  rw [mem_range] at below
  omega

/-- The execution succeeded, with a receipt that passes its checks. -/
structure Confirmed (v : Verification) (e : Execution) (sent : Int) (receipt : ActionReceipt) : Prop where
  state : e.state = .succeeded
  sentAt : e.sentAt = some sent
  checked : checkedActionReceipt e.receipt e.operationId v.plan = .ok receipt

theorem Confirmed.unique {sent' : Int} {receipt' : ActionReceipt} (one : Confirmed v e sent receipt)
    (other : Confirmed v e sent' receipt') : sent' = sent ∧ receipt' = receipt :=
  ⟨some.inj (other.sentAt.symm.trans one.sentAt),
    Except.ok.inj (other.checked.symm.trans one.checked)⟩

/-- The slots of a report: the readiness slots follow the sending, the observation the first of them
that shows the new invocation healthy. -/
structure Measured (r : VerificationReport) (sent : Int) (receipt : ActionReceipt) : Prop where
  readiness : Dated sent r.readiness
  readinessBound : r.readiness.length ≤ 6
  observationBound : r.observation.length ≤ 30
  observation : r.observation = [] ∨
    ∃ ready, r.ready receipt = some ready ∧ Dated ready.at_ r.observation

/-- What `passed` says. -/
structure Passed (e : Execution) (r : VerificationReport) (sent : Int) (receipt : ActionReceipt) :
    Prop where
  uncancelled : e.cancelRequestedAt = none
  registered : r.identity.registeredAt ≤ sent
  adjacent : ∃ baseline, r.before.getLast? = some baseline ∧ baseline.at_ ≤ sent ∧
    sent - baseline.at_ ≤ 10000
  effective : Effective r.before r.readiness r.observation receipt
  window : ∃ ready, r.ready receipt = some ready ∧ r.observedFrom = some ready.at_ ∧
    r.observedUntil = r.observation.getLast?.map (·.at_)
  sentAt : r.executionSentAt = some sent

/-- What a report says about the execution it is of. -/
def VerificationReport.Sound (v : Verification) (e : Execution) (r : VerificationReport) : Prop :=
  r.readiness = [] ∧ r.observation = [] ∧ r.state ≠ .passed ∨
  ∃ sent receipt, Confirmed v e sent receipt ∧ Measured r sent receipt ∧
    (r.state = .passed → Passed e r sent receipt)

/-- The reports of an execution. -/
structure Db.Sound (v : Verification) (db : Db) : Prop where
  numbered : Numbered (·.version) db.reports
  chain : db.reports.IsChain VerificationReport.Continues
  fresh : ∀ first ∈ db.reports.head?, first.readiness = [] ∧ first.observation = []
  baseline : ∀ r ∈ db.reports, r.before.length = 13
  counted : ∀ r ∈ db.reports,
    r.version = 1 + r.readiness.length + r.observation.length + if r.state.final then 1 else 0
  sound : ∀ r ∈ db.reports, r.Sound v db.execution

/-! ## Transactions -/

theorem Verification.append_ok {value : VerificationReport} (ok : v.append db value = .ok db') :
    db' = { db with reports := db.reports ++ [value] } ∧
      follows (latest db.reports) value = true ∧ value.before.length = 13 ∧
      value.readiness.length ≤ 6 ∧ value.observation.length ≤ 30 := by
  unfold Verification.append at ok
  dsimp only at ok
  split at ok
  next => cases ok
  next next_ =>
    split at ok
    next => cases ok
    next =>
      split at ok
      next => cases ok
      next fits =>
        rw [not_or, not_or, not_or, not_not] at fits
        exact ⟨(Except.ok.inj ok).symm, by simpa using next_, fits.1, not_lt.mp fits.2.1,
          not_lt.mp fits.2.2.1⟩

/-- The last version of a report: the slots are those of the one before it. -/
structure VerificationReport.Ends (v : Verification) (e : Execution) (old new : VerificationReport) :
    Prop where
  identity : new.identity = old.identity
  before : new.before = old.before
  readiness : new.readiness = old.readiness
  observation : new.observation = old.observation
  final : new.state.final = true
  passed : new.state = .passed → ∃ sent receipt, Confirmed v e sent receipt ∧ Passed e new sent receipt

/-- What a worker waits for follows from the report it read. -/
structure Wait.Due (v : Verification) (e : Execution) (wait : Wait) : Prop where
  unfinished : wait.report.state.final = false
  slot : ∃ sent receipt, Confirmed v e sent receipt ∧
    (wait.kind = .readiness ∧ wait.report.ready receipt = none ∧ wait.report.readiness.length < 6 ∧
        wait.nextAt = sent + ((wait.report.readiness.length : Int) + 1) * 10000 ∨
      ∃ ready, wait.kind = .observation ∧ wait.report.ready receipt = some ready ∧
        wait.report.observation.length ≠ 30 ∧
        wait.nextAt = ready.at_ + ((wait.report.observation.length : Int) + 1) * 10000)

/-- What the first transaction of a round does with a report that is not final: it appends the last
version, or finds the slot to wait for. -/
def Proceeds (v : Verification) (db : Db) (report : VerificationReport) (result : Db × Option Wait) :
    Prop :=
  (∃ value, result = ({ db with reports := db.reports ++ [value] }, none) ∧
      follows (latest db.reports) value = true ∧ value.before.length = 13 ∧
      report.Ends v db.execution value) ∨
    ∃ wait, result = (db, some wait) ∧ wait.report = report ∧ wait.Due v db.execution

variable {report : VerificationReport} {result : Db × Option Wait}

theorem Verification.save_ok {value : VerificationReport} (ok : v.save db now value = .ok result)
    (ends : report.Ends v db.execution { value with version := value.version + 1, createdAt := now }) :
    Proceeds v db report result := by
  obtain ⟨db', appended, rfl⟩ := Except.map_eq_ok.mp ok
  obtain ⟨rfl, next, baseline, -⟩ := append_ok appended
  exact .inl ⟨_, rfl, next, baseline, ends⟩

theorem VerificationReport.inconclusive_ends (r : VerificationReport) (reason : String) :
    r.Ends v e { r.inconclusive reason with
      version := (r.inconclusive reason).version + 1, createdAt := now } :=
  ⟨rfl, rfl, rfl, rfl, rfl, nofun⟩

theorem VerificationReport.timeout_ends (r : VerificationReport) :
    r.Ends v e { r.timeout with version := r.timeout.version + 1, createdAt := now } := by
  have state : r.timeout.state = .inconclusive ∨ r.timeout.state = .failed := by
    unfold VerificationReport.timeout
    dsimp only
    split
    · exact .inl rfl
    · exact .inr rfl
  refine ⟨rfl, rfl, rfl, rfl, ?_, fun passed => ?_⟩
  · rcases state with state | state <;> rw [state] <;> rfl
  · rcases state with state | state <;> exact absurd (state.symm.trans passed) nofun

theorem evaluateActionEffect_final {before readiness observation : List SampleSlot} :
    (evaluateActionEffect before readiness observation receipt).state.final = true := by
  unfold evaluateActionEffect
  dsimp only
  split
  · rfl
  · split
    · rfl
    · split
      · rfl
      · split
        · rfl
        · split <;> rfl

theorem VerificationReport.conclude_ends {ready baseline : SampleSlot}
    (confirmed : Confirmed v e sent receipt) (uncancelled : e.cancelRequestedAt = none)
    (last : r.before.getLast? = some baseline)
    (adjacent : r.identity.registeredAt ≤ sent ∧ baseline.at_ ≤ sent ∧ sent - baseline.at_ ≤ 10000)
    (found : r.ready receipt = some ready) :
    r.Ends v e { r.conclude receipt ready e.sentAt with
      version := (r.conclude receipt ready e.sentAt).version + 1, createdAt := now } :=
  ⟨rfl, rfl, rfl, rfl, evaluateActionEffect_final, fun passed => ⟨sent, receipt, confirmed,
    ⟨uncancelled, adjacent.1, ⟨baseline, last, adjacent.2⟩, evaluateActionEffect_passed passed,
      ⟨ready, found, rfl, rfl⟩, confirmed.sentAt⟩⟩⟩

theorem Verification.measure_ok
    (succeeded : db.execution.state = .succeeded) (sentAt : db.execution.sentAt = some sent)
    (uncancelled : db.execution.cancelRequestedAt = none) (unfinished : report.state.final = false)
    (ok : v.measure db report sent now = .ok result) : Proceeds v db report result := by
  unfold Verification.measure at ok
  obtain ⟨receipt, checked, ok⟩ := bind_eq_ok.mp ok
  have confirmed : Confirmed v db.execution sent receipt := ⟨succeeded, sentAt, checked⟩
  split at ok
  next => cases ok
  next baseline last =>
    split at ok
    next => exact save_ok ok (VerificationReport.inconclusive_ends _ _)
    next adjacent =>
      rw [not_or, not_or, not_lt, not_lt, not_lt] at adjacent
      split at ok
      next unready =>
        split at ok
        next => exact save_ok ok (VerificationReport.timeout_ends _)
        next short =>
          obtain rfl := Except.ok.inj ok
          exact .inr ⟨_, rfl, rfl, unfinished, sent, receipt, confirmed,
            .inl ⟨rfl, unready, not_le.mp short, rfl⟩⟩
      next ready found =>
        split at ok
        next => exact save_ok ok (VerificationReport.conclude_ends confirmed uncancelled last adjacent found)
        next short =>
          obtain rfl := Except.ok.inj ok
          exact .inr ⟨_, rfl, rfl, unfinished, sent, receipt, confirmed,
            .inr ⟨ready, rfl, found, short, rfl⟩⟩

theorem Verification.proceed_ok
    (unfinished : report.state.final = false) (ok : v.proceed db report now = .ok result) :
    Proceeds v db report result := by
  unfold Verification.proceed at ok
  dsimp only at ok
  split at ok
  next => cases ok
  next =>
    split at ok
    next => exact save_ok ok (VerificationReport.inconclusive_ends _ _)
    next sent sentAt =>
      split at ok
      next => exact save_ok ok (VerificationReport.inconclusive_ends _ _)
      next confirmed =>
        rw [not_or, not_not, not_not] at confirmed
        exact measure_ok confirmed.1 sentAt confirmed.2 unfinished ok

theorem Verification.runRead_ok (ok : v.runRead db now = .ok result) :
    ∃ report, latest db.reports = some report ∧
      (result = (db, none) ∨ report.state.final = false ∧ Proceeds v db report result) := by
  unfold Verification.runRead at ok
  obtain ⟨-, -, ok⟩ := bind_eq_ok.mp ok
  cases found : latest db.reports with
  | none =>
    rw [found] at ok
    cases ok
  | some report =>
    rw [found] at ok
    obtain ⟨-, -, ok⟩ := bind_eq_ok.mp ok
    obtain ⟨-, -, ok⟩ := bind_eq_ok.mp ok
    refine ⟨report, rfl, ?_⟩
    split at ok
    next => exact .inl (Except.ok.inj ok).symm
    next unfinished =>
      rw [Bool.not_eq_true] at unfinished
      exact .inr ⟨unfinished, proceed_ok unfinished ok⟩

variable {history : List HealthSample} {registeredAt : Int}

theorem Verification.prepareWrite_ok (ok : v.prepareWrite db registeredAt history now = .ok db') :
    db' = db ∨ latest db.reports = none ∧ ∃ validUntil,
      db' = { db with reports := db.reports ++ [v.register db registeredAt validUntil now
        (v.definition.before history registeredAt)] } := by
  unfold Verification.prepareWrite at ok
  obtain ⟨-, -, ok⟩ := bind_eq_ok.mp ok
  obtain ⟨-, -, ok⟩ := bind_eq_ok.mp ok
  split at ok
  next => exact .inl (Except.ok.inj ok).symm
  next none_ =>
    split at ok
    next => cases ok
    next =>
      split at ok
      next => cases ok
      next validUntil _ =>
        refine .inr ⟨Option.not_isSome_iff_eq_none.mp none_, validUntil, ?_⟩
        exact (append_ok ok).1

/-- The version that a slot makes. -/
def VerificationReport.measured (r : VerificationReport) (kind : SlotKind) (slot : SampleSlot)
    (sentAt : Option Int) (now : Int) : VerificationReport :=
  { r.push kind slot with
    state := .observing
    version := r.version + 1
    missingSamples := r.missingSamples + if slot.sample = none then 1 else 0
    executionSentAt := sentAt
    createdAt := now }

theorem Verification.runWrite_ok (ok : v.runWrite db wait slot now = .ok db') :
    (latest db.reports = none ∧ db' = db) ∨
      ∃ report, latest db.reports = some report ∧
        (report.version ≠ wait.report.version ∧ db' = db ∨ report.version = wait.report.version ∧
          report.state.final = false ∧
          db' = { db with reports := db.reports ++
            [report.measured wait.kind slot db.execution.sentAt now] }) := by
  unfold Verification.runWrite at ok
  obtain ⟨-, -, ok⟩ := bind_eq_ok.mp ok
  cases found : latest db.reports with
  | none =>
    rw [found] at ok
    exact .inl ⟨rfl, (Except.ok.inj ok).symm⟩
  | some report =>
    rw [found] at ok
    refine .inr ⟨report, rfl, ?_⟩
    dsimp only at ok
    split at ok
    next other => exact .inl ⟨other, (Except.ok.inj ok).symm⟩
    next same =>
      obtain ⟨-, -, ok⟩ := bind_eq_ok.mp ok
      obtain ⟨rfl, next, -⟩ := append_ok ok
      rw [found] at next
      have unfinished := (Bool.and_eq_true_iff.mp next).2
      exact .inr ⟨not_not.mp same, by simpa using unfinished, rfl⟩

/-! ## Growth of the reports -/

theorem Db.Sound.extend (sound : db.Sound v) (found : latest db.reports = some old)
    (continues : old.Continues new) (stated : new.Sound v db.execution) :
    ({ db with reports := db.reports ++ [new] } : Db).Sound v := by
  obtain ⟨before, split, count⟩ := sound.numbered.latest found
  have inside : old ∈ db.reports := split ▸ mem_append_right _ (mem_singleton.mpr rfl)
  have each {P : VerificationReport → Prop} (all : ∀ r ∈ db.reports, P r) (last : P new) :
      ∀ r ∈ db.reports ++ [new], P r :=
    fun r mem => (mem_append.mp mem).elim (all r) fun one => mem_singleton.mp one ▸ last
  refine ⟨sound.numbered.snoc (by rw [continues.version, count]), ?_, ?_, each sound.baseline ?_,
    each sound.counted ?_, each sound.sound stated⟩
  · refine isChain_append.mpr ⟨sound.chain, isChain_singleton _, fun a last b first => ?_⟩
    rw [split, getLast?_concat] at last
    obtain rfl := some.inj last
    obtain rfl := some.inj first
    exact continues
  · intro first head
    have same : (db.reports ++ [new]).head? = db.reports.head? := by
      rw [split, append_assoc, head?_append, head?_append]
      cases before <;> rfl
    exact sound.fresh first (same ▸ head)
  · rw [continues.before]
    exact sound.baseline old inside
  · have counted := sound.counted old inside
    rw [continues.unfinished] at counted
    rcases continues.slots with ⟨kind, slot, state, added, kept⟩ | ⟨final, kept⟩
    · have one := congrArg length added
      rw [length_append, length_singleton] at one
      rw [continues.version, counted, state]
      cases kind with
      | readiness =>
        have other : new.observation = old.observation := kept .observation nofun
        rw [other]
        change new.readiness.length = _ at one
        rw [one]
        simp [ReportState.final, VerificationReport.slots]
        omega
      | observation =>
        have other : new.readiness = old.readiness := kept .readiness nofun
        rw [other]
        change new.observation.length = _ at one
        rw [one]
        simp [ReportState.final, VerificationReport.slots]
        omega
    · have readiness : new.readiness = old.readiness := kept .readiness
      have observation : new.observation = old.observation := kept .observation
      rw [continues.version, counted, final, readiness, observation]
      rfl

theorem Db.Sound.registered (none_ : latest db.reports = none) {validUntil : Int} :
    ({ db with reports := db.reports ++ [v.register db registeredAt validUntil now
      (v.definition.before history registeredAt)] } : Db).Sound v := by
  have slots : (v.definition.before history registeredAt).length = 13 := by
    rw [VerificationDefinition.before, length_map, length_range]
  rw [latest_eq_none.mp none_, nil_append]
  refine ⟨rfl, isChain_singleton _, ?_, ?_, ?_, ?_⟩
  · intro first head
    obtain rfl := some.inj head
    exact ⟨rfl, rfl⟩
  all_goals
    intro r mem
    rw [mem_singleton.mp mem]
  · exact slots
  · rfl
  · exact .inl ⟨rfl, rfl, nofun⟩

theorem Db.Sound.empty {investigation : Investigation} :
    (⟨e, investigation, []⟩ : Db).Sound v where
  numbered := rfl
  chain := .nil
  fresh first head := by cases head
  baseline r mem := by cases mem
  counted r mem := by cases mem
  sound r mem := by cases mem

theorem VerificationReport.Sound.measurement (sound : r.Sound v e) (confirmed : Confirmed v e sent receipt) :
    Measured r sent receipt := by
  rcases sound with ⟨readiness, observation, -⟩ | ⟨sent', receipt', other, measured, -⟩
  · refine ⟨?_, ?_, ?_, .inl observation⟩
    · rw [readiness]
      rfl
    · rw [readiness]
      exact Nat.zero_le _
    · rw [observation]
      exact Nat.zero_le _
  · obtain ⟨rfl, rfl⟩ := confirmed.unique other
    exact measured

theorem VerificationReport.Ends.continues (ends : old.Ends v e new) (unfinished : old.state.final = false)
    (version : new.version = old.version + 1) : old.Continues new where
  version := version
  identity := ends.identity
  before := ends.before
  unfinished := unfinished
  slots := .inr ⟨ends.final, fun kind => by
    cases kind with
    | readiness => exact ends.readiness
    | observation => exact ends.observation⟩

theorem Measured.ends (measured : Measured old sent receipt) (ends : old.Ends v e new) :
    Measured new sent receipt := by
  obtain ⟨dated, readinessBound, observationBound, observed⟩ := measured
  refine ⟨?_, ?_, ?_, ?_⟩
  · rwa [ends.readiness]
  · rwa [ends.readiness]
  · rwa [ends.observation]
  · rw [VerificationReport.ready, ends.readiness, ends.observation]
    exact observed

theorem VerificationReport.Ends.sound (ends : old.Ends v e new) (sound : old.Sound v e) : new.Sound v e := by
  by_cases passed : new.state = .passed
  · obtain ⟨sent, receipt, confirmed, stated⟩ := ends.passed passed
    exact .inr ⟨sent, receipt, confirmed, (sound.measurement confirmed).ends ends, fun _ => stated⟩
  · rcases sound with ⟨readiness, observation, -⟩ | ⟨sent, receipt, confirmed, measured, -⟩
    · exact .inl ⟨ends.readiness.trans readiness, ends.observation.trans observation, passed⟩
    · exact .inr ⟨sent, receipt, confirmed, measured.ends ends, fun absurd => (passed absurd).elim⟩

theorem Wait.Due.measured (due : wait.Due v e) (sound : wait.report.Sound v e)
    (at_ : slot.at_ = wait.nextAt) {sentAt : Option Int} :
    wait.report.Continues (wait.report.measured wait.kind slot sentAt now) ∧
      (wait.report.measured wait.kind slot sentAt now).Sound v e := by
  obtain ⟨report, kind, nextAt⟩ := wait
  obtain ⟨unfinished, sent, receipt, confirmed, next⟩ := due
  obtain ⟨dated, readinessBound, observationBound, observed⟩ := sound.measurement confirmed
  dsimp only at next unfinished observed readinessBound observationBound dated at_ ⊢
  rcases next with ⟨rfl, unready, short, rfl⟩ | ⟨ready, rfl, found, short, rfl⟩
  · refine ⟨⟨rfl, rfl, rfl, unfinished, .inl ⟨.readiness, slot, rfl, rfl, fun other differs => ?_⟩⟩,
      .inr ⟨sent, receipt, confirmed, ⟨dated.snoc at_, ?_, observationBound, .inl ?_⟩, nofun⟩⟩
    · cases other with
      | readiness => exact (differs rfl).elim
      | observation => rfl
    · change (report.readiness ++ [slot]).length ≤ 6
      rw [length_append, length_singleton]
      omega
    · rcases observed with empty | ⟨ready, found, -⟩
      · exact empty
      · rw [unready] at found
        cases found
  · refine ⟨⟨rfl, rfl, rfl, unfinished, .inl ⟨.observation, slot, rfl, rfl, fun other differs => ?_⟩⟩,
      .inr ⟨sent, receipt, confirmed, ⟨dated, readinessBound, ?_, .inr ⟨ready, found, ?_⟩⟩, nofun⟩⟩
    · cases other with
      | readiness => rfl
      | observation => exact (differs rfl).elim
    · change (report.observation ++ [slot]).length ≤ 30
      rw [length_append, length_singleton]
      omega
    · refine Dated.snoc ?_ at_
      rcases observed with empty | ⟨ready', found', dated⟩
      · rw [empty]
        rfl
      · rw [found] at found'
        obtain rfl := some.inj found'
        exact dated

theorem Wait.Due.soon (due : wait.Due v e) (sound : wait.report.Sound v e) :
    ∃ sent, e.sentAt = some sent ∧ wait.nextAt ≤ sent + 360000 := by
  obtain ⟨-, sent, receipt, confirmed, next⟩ := due
  obtain ⟨dated, readinessBound, observationBound, -⟩ := sound.measurement confirmed
  refine ⟨sent, confirmed.sentAt, ?_⟩
  rcases next with ⟨-, -, short, at_⟩ | ⟨ready, -, found, short, at_⟩
  · omega
  · have soon := dated.le (mem_of_find?_eq_some found)
    omega

/-! ## Runs -/

/-- What a worker knows of the reports; each round it ends, a version is appended. -/
def Phase.Sound (v : Verification) (db : Db) : Phase → Prop
  | .idle | .prepared _ => True
  | .running rounds => rounds = 0 ∨ rounds < db.reports.length
  | .waiting rounds wait | .sampling rounds wait =>
    rounds < wait.report.version ∧ wait.report ∈ db.reports ∧ wait.Due v db.execution

structure State.Sound (v : Verification) (s : State) : Prop where
  db : s.db.Sound v
  worker : ∀ w, (s.worker w).Sound v s.db

/-- The reports are only appended to, and an execution that has succeeded stays as it is. -/
structure Db.Grows (db db' : Db) : Prop where
  reports : db.reports <+: db'.reports
  execution : db.execution.state = .succeeded → db'.execution = db.execution

theorem Db.Grows.refl (db : Db) : db.Grows db := ⟨prefix_refl _, fun _ => rfl⟩

theorem Db.Grows.append (r : VerificationReport) : db.Grows { db with reports := db.reports ++ [r] } :=
  ⟨prefix_append _ _, fun _ => rfl⟩

theorem Wait.Due.grows (due : wait.Due v db.execution) (grows : db.Grows db') :
    wait.Due v db'.execution := by
  obtain ⟨unfinished, sent, receipt, confirmed, next⟩ := due
  rw [grows.execution confirmed.state]
  exact ⟨unfinished, sent, receipt, confirmed, next⟩

theorem Phase.Sound.grows {phase : Phase} (sound : phase.Sound v db) (grows : db.Grows db') :
    phase.Sound v db' := by
  have longer := grows.reports.length_le
  cases phase with
  | idle | prepared => exact sound
  | running rounds => exact sound.imp_right fun below => below.trans_le longer
  | waiting rounds wait =>
    obtain ⟨below, inside, due⟩ := sound
    exact ⟨below, grows.reports.subset inside, due.grows grows⟩
  | sampling rounds wait =>
    obtain ⟨below, inside, due⟩ := sound
    exact ⟨below, grows.reports.subset inside, due.grows grows⟩

variable {s : State} {w : WorkerId}

theorem State.Sound.goto (sound : s.Sound v) (phase : Phase)
    (grows : s.db.Grows db') (after : db'.Sound v) (phase_ : phase.Sound v db') :
    State.Sound v { s.goto w phase with db := db' } := by
  refine ⟨after, fun other => ?_⟩
  by_cases same : other = w
  · subst same
    simpa only [State.goto, Function.update_self] using phase_
  · simpa only [State.goto, Function.update_of_ne same] using (sound.worker other).grows grows

theorem State.Sound.idle (sound : s.Sound v) : (s.goto w .idle).Sound v :=
  sound.goto .idle (.refl _) sound.db trivial

theorem Db.Sound.mem_latest (found : latest db.reports = some r) : r ∈ db.reports :=
  argmax_mem found

theorem State.Sound.prepareWrite (sound : s.Sound v)
    (ok : v.prepareWrite s.db registeredAt history now = .ok db') :
    State.Sound v { s.goto w .idle with db := db' } := by
  rcases Verification.prepareWrite_ok ok with rfl | ⟨none_, validUntil, rfl⟩
  · exact sound.idle
  · exact sound.goto .idle (.append _) (.registered none_) trivial

theorem State.Sound.runRead {rounds : Nat} (sound : s.Sound v) (here : s.worker w = .running rounds)
    (ok : v.runRead s.db now = .ok result) :
    State.Sound v { s.goto w (result.2.elim .idle (.waiting rounds)) with db := result.1 } := by
  obtain ⟨report, found, rfl | ⟨unfinished, ⟨value, rfl, next, -, ends⟩ | ⟨wait, rfl, rfl, due⟩⟩⟩ :=
    Verification.runRead_ok ok
  · exact sound.idle
  · have stated := sound.db.sound report (Db.Sound.mem_latest found)
    rw [found] at next
    have version : report.version + 1 = value.version :=
      of_decide_eq_true (Bool.and_eq_true_iff.mp next).1
    exact sound.goto .idle (.append _)
      (sound.db.extend found (ends.continues unfinished version.symm) (ends.sound stated)) trivial
  · have inside := Db.Sound.mem_latest found
    obtain ⟨-, -, version⟩ := sound.db.numbered.latest found
    have positive := (sound.db.numbered.mem inside).1
    have known := sound.worker w
    rw [here] at known
    refine sound.goto (.waiting rounds wait) (.refl _) sound.db ⟨?_, inside, due⟩
    rcases known with rfl | below
    · omega
    · omega

theorem State.Sound.runWrite {rounds : Nat}
    (sound : s.Sound v) (here : s.worker w = .sampling rounds wait) (at_ : slot.at_ = wait.nextAt)
    (ok : v.runWrite s.db wait slot now = .ok db') :
    State.Sound v { s.goto w (.running (rounds + 1)) with db := db' } := by
  have known := sound.worker w
  rw [here] at known
  obtain ⟨below, inside, due⟩ := known
  have bound := (sound.db.numbered.mem inside).2
  rcases Verification.runWrite_ok ok with ⟨none_, rfl⟩ | ⟨report, found, ⟨other, rfl⟩ | ⟨same, -, rfl⟩⟩
  · rw [latest_eq_none.mp none_] at inside
    cases inside
  · obtain ⟨-, -, version⟩ := sound.db.numbered.latest found
    refine sound.goto (.running (rounds + 1)) (.refl _) sound.db (.inr ?_)
    omega
  · obtain rfl : report = wait.report := sound.db.numbered.inj
      (Db.Sound.mem_latest found) inside same
    obtain ⟨continues, measured⟩ := due.measured (sound.db.sound _ inside) at_
    refine sound.goto (.running (rounds + 1)) (.append _)
      (sound.db.extend found continues measured) (.inr ?_)
    change rounds + 1 < (s.db.reports ++ [_]).length
    rw [length_append, length_singleton]
    omega

theorem State.Sound.execute (sound : s.Sound v) (open_ : s.db.execution.state ≠ .succeeded)
    (execution : Execution) : State.Sound v { s with db := { s.db with execution } } := by
  have grows : s.db.Grows { s.db with execution } :=
    ⟨prefix_refl _, fun succeeded => (open_ succeeded).elim⟩
  obtain ⟨numbered, chain, fresh, baseline, counted, measured⟩ := sound.db
  refine ⟨⟨numbered, chain, fresh, baseline, counted, fun r inside => ?_⟩,
    fun w => (sound.worker w).grows grows⟩
  rcases measured r inside with empty | ⟨sent, receipt, confirmed, -⟩
  · exact .inl empty
  · exact (open_ confirmed.state).elim

/-- How far a call has come. -/
def Phase.progress : Phase → Nat
  | .idle => 0
  | .prepared _ => 1
  | .running rounds => 3 * rounds + 1
  | .waiting rounds _ => 3 * rounds + 2
  | .sampling rounds _ => 3 * rounds + 3

/-- What a step does to the rest: the reports grow, and each worker stays, stops or goes on. -/
structure Steps (s t : State) : Prop where
  grows : s.db.Grows t.db
  worker : ∀ w, t.worker w = s.worker w ∨ t.worker w = .idle ∨
    (s.worker w).progress < (t.worker w).progress

theorem Steps.goto (phase : Phase) (grows : s.db.Grows db')
    (next : phase = .idle ∨ (s.worker w).progress < phase.progress) :
    Steps s { s.goto w phase with db := db' } := by
  refine ⟨grows, fun other => ?_⟩
  by_cases same : other = w
  · subst same
    exact .inr (by simpa only [State.goto, Function.update_self] using next)
  · exact .inl (by simp only [State.goto, Function.update_of_ne same])

theorem Verification.prepareWrite_grows
    (ok : v.prepareWrite db registeredAt history now = .ok db') : db.Grows db' := by
  rcases prepareWrite_ok ok with rfl | ⟨-, validUntil, rfl⟩
  · exact .refl _
  · exact .append _

theorem Verification.runRead_grows (ok : v.runRead db now = .ok result) : db.Grows result.1 := by
  obtain ⟨report, -, rfl | ⟨-, ⟨value, rfl, -⟩ | ⟨wait, rfl, -⟩⟩⟩ := runRead_ok ok
  · exact .refl _
  · exact .append _
  · exact .refl _

theorem Verification.runWrite_grows (ok : v.runWrite db wait slot now = .ok db') : db.Grows db' := by
  rcases runWrite_ok ok with ⟨-, rfl⟩ | ⟨report, -, ⟨-, rfl⟩ | ⟨-, -, rfl⟩⟩
  · exact .refl _
  · exact .refl _
  · exact .append _

theorem Verification.slotOf_at (wait : Wait) (clock : Int) (reading : Reading) :
    (v.slotOf wait clock reading).at_ = wait.nextAt := by
  unfold Verification.slotOf
  split
  · rfl
  · cases reading with
    | failed | slow => rfl
    | value parsed => cases parsed <;> rfl

theorem State.Sound.commit {α : Type} {tx : Except String α}
    {next : α → Db × Phase} (sound : s.Sound v)
    (ok : ∀ a, tx = .ok a → State.Sound v { s.goto w (next a).2 with db := (next a).1 } ∧
      Steps s { s.goto w (next a).2 with db := (next a).1 }) :
    (s.commit w tx next).Sound v ∧ Steps s (s.commit w tx next) := by
  cases tx with
  | error e => exact ⟨sound.idle, .goto .idle (.refl _) (.inl rfl)⟩
  | ok a => exact ok a rfl

theorem State.Sound.after {t : State} {event : Event} (sound : s.Sound v)
    (step : v.after s event = some t) : t.Sound v ∧ Steps s t := by
  cases event with
  | prepareRead w now =>
    simp only [Verification.after, Option.ite_none_right_eq_some, Option.some.injEq] at step
    obtain ⟨here, rfl⟩ := step
    refine sound.commit fun registeredAt _ => ?_
    cases registeredAt with
    | none => exact ⟨sound.idle, .goto .idle (.refl _) (.inl rfl)⟩
    | some registeredAt =>
      refine ⟨sound.goto (.prepared registeredAt) (.refl _) sound.db trivial,
        .goto (.prepared registeredAt) (.refl _) (.inr ?_)⟩
      rw [here]
      exact Nat.zero_lt_one
  | prepareWrite w history now =>
    cases here : s.worker w with
    | prepared registeredAt =>
      simp only [Verification.after, here, Option.some.injEq] at step
      subst step
      exact sound.commit fun db' ok => ⟨sound.prepareWrite ok,
        .goto .idle (Verification.prepareWrite_grows ok) (.inl rfl)⟩
    | _ => simp [Verification.after, here] at step
  | call w =>
    simp only [Verification.after, Option.ite_none_right_eq_some, Option.some.injEq] at step
    obtain ⟨here, rfl⟩ := step
    refine ⟨sound.goto (.running 0) (.refl _) sound.db (.inl rfl),
      .goto (.running 0) (.refl _) (.inr ?_)⟩
    rw [here]
    exact Nat.zero_lt_one
  | runRead w now =>
    cases here : s.worker w with
    | running rounds =>
      simp only [Verification.after, here, Option.some.injEq] at step
      subst step
      refine sound.commit fun result ok => ⟨sound.runRead here ok,
        .goto _ (Verification.runRead_grows ok) ?_⟩
      cases result.2 with
      | none => exact .inl rfl
      | some wait =>
        rw [here]
        exact .inr (Nat.lt_succ_self _)
    | _ => simp [Verification.after, here] at step
  | recheck w clock =>
    cases here : s.worker w with
    | waiting rounds wait =>
      simp only [Verification.after, here, Option.ite_none_left_eq_some, Option.some.injEq] at step
      obtain ⟨-, rfl⟩ := step
      have known := sound.worker w
      rw [here] at known
      refine sound.commit fun _ _ => ⟨sound.goto (.sampling rounds wait) (.refl _) sound.db known,
        .goto (.sampling rounds wait) (.refl _) (.inr ?_)⟩
      rw [here]
      exact Nat.lt_succ_self _
    | _ => simp [Verification.after, here] at step
  | runWrite w clock reading now =>
    cases here : s.worker w with
    | sampling rounds wait =>
      simp only [Verification.after, here, Option.some.injEq] at step
      subst step
      refine sound.commit fun db' ok =>
        ⟨sound.runWrite here (Verification.slotOf_at wait clock reading) ok,
          .goto (.running (rounds + 1)) (Verification.runWrite_grows ok) (.inr ?_)⟩
      rw [here]
      change 3 * rounds + 3 < 3 * (rounds + 1) + 1
      omega
    | _ => simp [Verification.after, here] at step
  | stop w =>
    simp only [Verification.after, Option.some.injEq] at step
    subst step
    exact ⟨sound.idle, .goto .idle (.refl _) (.inl rfl)⟩
  | execute execution =>
    simp only [Verification.after, Option.ite_none_left_eq_some, Option.some.injEq, not_or] at step
    obtain ⟨⟨open_, -⟩, rfl⟩ := step
    exact ⟨sound.execute open_ execution,
      ⟨⟨prefix_refl _, fun succeeded => (open_ succeeded).elim⟩, fun _ => .inl rfl⟩⟩
  | investigate investigation =>
    simp only [Verification.after, Option.some.injEq] at step
    subst step
    have grows : s.db.Grows { s.db with investigation } := ⟨prefix_refl _, fun _ => rfl⟩
    obtain ⟨numbered, chain, fresh, baseline, counted, measured⟩ := sound.db
    exact ⟨⟨⟨numbered, chain, fresh, baseline, counted, measured⟩,
      fun w => (sound.worker w).grows grows⟩, grows, fun _ => .inl rfl⟩

theorem Db.Sound.bound (sound : db.Sound v) : db.reports.length ≤ 38 := by
  rcases eq_nil_or_concat' db.reports with empty | ⟨before, last, split⟩
  · rw [empty]
    exact Nat.zero_le _
  · have inside : last ∈ db.reports := split ▸ mem_append_right _ (mem_singleton.mpr rfl)
    have version := (split ▸ sound.numbered : Numbered _ _).last
    have counted := sound.counted last inside
    rw [split, length_append, length_singleton]
    have most : (if last.state.final then 1 else 0) ≤ 1 := by split <;> omega
    rcases sound.sound last inside with ⟨readiness, observation, -⟩ | ⟨sent, receipt, -, measured, -⟩
    · rw [readiness, observation] at counted
      simp only [length_nil] at counted
      omega
    · have readiness := measured.readinessBound
      have observation := measured.observationBound
      omega

/-- The next transaction of a worker in a call, at a time and with what it reads. -/
def Phase.next (w : WorkerId) (clock : Int) (history : List HealthSample) (reading : Reading) :
    Phase → Option Event
  | .idle => none
  | .prepared _ => some (.prepareWrite w history clock)
  | .running _ => some (.runRead w clock)
  | .waiting _ _ => some (.recheck w clock)
  | .sampling _ _ => some (.runWrite w clock reading clock)

/-- The reports of an execution are measurements, and every call ends. -/
structure State.Measures (v : Verification) (s : State) : Prop where
  reports : s.db.Sound v
  /-- A step of anyone only appends, and never turns a call back. -/
  step : ∀ event t, v.after s event = some t → Steps s t
  bound : s.db.reports.length ≤ 38
  /-- A call goes on 114 times at most. -/
  progress : ∀ w, (s.worker w).progress ≤ 114
  /-- Six minutes after the sending nothing is waited for. -/
  unblocked : ∀ w clock history reading event,
    (∀ sent, s.db.execution.sentAt = some sent → sent + 360000 ≤ clock) →
    (s.worker w).next w clock history reading = some event → v.after s event ≠ none

theorem State.Sound.measures (sound : s.Sound v) : s.Measures v := by
  have bound := sound.db.bound
  refine ⟨sound.db, fun event t step => (sound.after step).2, bound, fun w => ?_, ?_⟩
  · have known := sound.worker w
    cases here : s.worker w with
    | idle => exact Nat.zero_le _
    | prepared registeredAt =>
      change 1 ≤ 114
      omega
    | running rounds =>
      rw [here] at known
      change 3 * rounds + 1 ≤ 114
      rcases known with rfl | below
      · omega
      · omega
    | waiting rounds wait =>
      rw [here] at known
      have version := (sound.db.numbered.mem known.2.1).2
      have below := known.1
      change 3 * rounds + 2 ≤ 114
      omega
    | sampling rounds wait =>
      rw [here] at known
      have version := (sound.db.numbered.mem known.2.1).2
      have below := known.1
      change 3 * rounds + 3 ≤ 114
      omega
  · intro w clock history reading event late next
    have known := sound.worker w
    cases here : s.worker w with
    | idle =>
      rw [here] at next
      cases next
    | waiting rounds wait =>
      rw [here] at next known
      obtain rfl := some.inj next
      obtain ⟨-, inside, due⟩ := known
      obtain ⟨sent, sentAt, soon⟩ := due.soon (sound.db.sound _ inside)
      have due : ¬ clock < wait.nextAt := not_lt.mpr (soon.trans (late sent sentAt))
      simp [Verification.after, here, due]
    | _ =>
      rw [here] at next
      obtain rfl := some.inj next
      simp [Verification.after, here]

/-- The reports of an execution are measurements, whatever any workers do. -/
theorem verification_reports_sound (v : Verification) (execution : Execution)
    (investigation : Investigation) (events : List Event) (s : State)
    (run : Run (fun s event t => v.after s event = some t) (.initial execution investigation) events s) :
    s.Measures v := by
  have start : (State.initial execution investigation).Sound v := ⟨.empty, fun _ => trivial⟩
  have sound : s.Sound v := run.invariant start fun _ _ _ sound step => (sound.after step).1
  exact sound.measures

private def sha : String := "aaaaaaaaaaaaaaaaaaaaaaaaaaaaaaaaaaaaaaaaaaaaaaaaaaaaaaaaaaaaaaaa"

private def restartPlan : ActionPlan where
  id := "plan"
  version := 1
  contentHash := "content"
  content := ⟨"case", 1, 7, sha, [900000], [⟨"target_config_hash", sha⟩], ⟨"demo", "1", "def", .fixed⟩⟩

private def restartCheck : Verification where
  plan := restartPlan
  definition := ⟨"demo", "1", 7, sha, sha, "unit", "host", .fixed⟩
  definitionHash := "def"
  verifierHash := fun v => v.id
  receiptHash := fun r => r.before
  slotsHash := fun slots => if slots = [] then "[]" else "[..]"
  evidenceHash := fun _ => "[]"

private def restart (state : ExecutionState) (sentAt : Option Int) (after : Option String) : Execution where
  id := "execution"
  operationId := "operation"
  state := state
  sentAt := sentAt
  cancelRequestedAt := none
  receipt := after.map fun after =>
    ⟨"operation", "content", sha, sha, .succeeded, "old", some after⟩
  receiptHash := after.map fun _ => "old"

private def healthyAt (invocation : String) (at_ : Int) : HealthSample :=
  ⟨at_, 7, sha, sha, "unit", "host", invocation, true, true, 1, 200, 0⟩

private def round (k : Nat) : List Event :=
  let at_ : Int := 5000 + (k + 1) * 10000
  [.runRead 0 at_, .recheck 0 at_, .runWrite 0 at_ (.value (some (healthyAt "new" at_))) at_]

private def restartEvents (rounds : Nat) : List Event :=
  [.prepareRead 0 0,
    .prepareWrite 0 ((range 13).map fun k => healthyAt "old" (-120000 + (k : Int) * 10000)) 1,
    .execute (restart .succeeded (some 5000) (some "new")), .call 0] ++
  (range rounds).flatMap round ++ [.runRead 0 400000]

theorem verification_reports_sound_passed :
    ∃ s, Run (fun s event t => restartCheck.after s event = some t)
        (.initial (restart .prechecking none none) ⟨1, false, some 1, none⟩) (restartEvents 31) s ∧
      (s.db.reports.getLast?.map (·.state) = some .passed) ∧ s.Measures restartCheck := by
  have played : ((restartEvents 31).foldlM restartCheck.after
      (.initial (restart .prechecking none none) ⟨1, false, some 1, none⟩)).any
        (fun s => s.db.reports.getLast?.map (·.state) = some .passed) = true := by
    decide +kernel
  obtain ⟨s, run, passed⟩ := Run.of_any played
  exact ⟨s, run, of_decide_eq_true passed, verification_reports_sound _ _ _ _ _ run⟩

end Slide.Actions
