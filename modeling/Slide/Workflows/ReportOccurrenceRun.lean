import Mathlib.Data.List.Induction
import Slide.Library.Decimal
import Slide.Workflows.ReportOccurrences

/-!
# One report and one round of notifications for each occurrence

What the occurrences, the reports and the queue have in common in every run, and what stays of them once it
is there.
-/

namespace Slide.ReportOccurrences

open Transaction List
open Slide.Workflows (Store WorkflowJobInput WorkflowJob)

/-! ## Notification jobs -/

/-- A job that `complete` might have made. -/
def notifies (id : String) (row : WorkflowJob) : Bool :=
  row.jobType = "report.notify" || "report-notify-".toList.isPrefixOf id.toList ||
    "report-notify:".toList.isPrefixOf row.idempotencyKey.toList

theorem id_toList (r c : Nat) : (notificationJob r c).id.toList =
    "report-notify-".toList ++ ((Nat.repr r).toList ++ '-' :: (Nat.repr c).toList) := by
  simp [notificationJob, toString]

theorem key_toList (r c : Nat) : (notificationJob r c).idempotencyKey.toList =
    "report-notify:".toList ++ ((Nat.repr r).toList ++ ':' :: (Nat.repr c).toList) := by
  simp [notificationJob, toString]

theorem id_inj {r r' c c' : Nat} (same : (notificationJob r c).id = (notificationJob r' c').id) : r = r' ∧ c = c' := by
  have lists := congrArg String.toList same
  rw [id_toList, id_toList] at lists
  obtain ⟨rfl, rest⟩ := Decimal.repr_append_inj (fun d head => by cases head; rfl) (fun d head => by cases head; rfl)
    (append_cancel_left lists)
  exact ⟨rfl, Nat.repr_injective (String.toList_inj.mp (cons.inj rest).2)⟩

theorem key_inj {r r' c c' : Nat} (same : (notificationJob r c).idempotencyKey = (notificationJob r' c').idempotencyKey) :
    r = r' ∧ c = c' := by
  have lists := congrArg String.toList same
  rw [key_toList, key_toList] at lists
  obtain ⟨rfl, rest⟩ := Decimal.repr_append_inj (fun d head => by cases head; rfl) (fun d head => by cases head; rfl)
    (append_cancel_left lists)
  exact ⟨rfl, Nat.repr_injective (String.toList_inj.mp (cons.inj rest).2)⟩

theorem key_not_notification (host : Host) (o : ReportOccurrence) :
    "report-notify:".toList.isPrefixOf (occurrenceKey host o).toList = false := by
  refine Bool.eq_false_iff.mpr fun starts => ?_
  obtain ⟨rest, same⟩ := isPrefixOf_iff_prefix.mp starts
  have own : (occurrenceKey host o).toList =
      "report-".toList ++ 'o' :: ("ccurrence:".toList ++ ((toString o.configId).toList ++ (":".toList ++
        (host.iso o.occurrenceAt).toList))) := by
    unfold occurrenceKey
    rw [String.toList_append, String.toList_append, String.toList_append, append_assoc, append_assoc]
    rfl
  have split : "report-notify:".toList ++ rest = "report-".toList ++ 'n' :: ("otify:".toList ++ rest) := rfl
  rw [own, split] at same
  have first : 'n' = 'o' := (cons.inj (append_cancel_left same)).1
  exact absurd first (by decide)

theorem occurrence_not_notification (host : Host) (o : ReportOccurrence) :
    ofNotification (createReportOccurrenceJob host o) = false := by
  unfold ofNotification
  simp only [Bool.or_eq_false_iff, decide_eq_false_iff_not]
  refine ⟨⟨by simp [createReportOccurrenceJob], ?_⟩, ?_⟩
  · obtain ⟨length, hex⟩ := host.hex (occurrenceKey host o)
    unfold createReportOccurrenceJob slice
    generalize host.sha256 (occurrenceKey host o) = digest at length hex
    cases digits : digest.toList with
    | nil =>
      rw [digits] at length
      cases length
    | cons c rest =>
      have other : c ≠ 'r' := by
        rintro rfl
        exact absurd (hex 'r' (digits ▸ mem_cons_self)) (by decide)
      simp [digits, isPrefixOf, Ne.symm other]
  · exact key_not_notification host o

/-! ## The queue -/

abbrev Jobs := Table String WorkflowJob

/-- What no statement of the queue changes of a job. -/
structure SameJob (row row' : WorkflowJob) : Prop where
  jobType : row'.jobType = row.jobType
  payload : row'.payload = row.payload
  idempotencyKey : row'.idempotencyKey = row.idempotencyKey

/-- Jobs stay the jobs that they are, and only other ones than notifications are added. -/
structure JobsKept (jobs jobs' : Jobs) : Prop where
  kept : ∀ id row, jobs.get id = some row → ∃ row', jobs'.get id = some row' ∧ SameJob row row'
  new : ∀ id row', jobs'.get id = some row' →
    (∃ row, jobs.get id = some row ∧ SameJob row row') ∨ notifies id row' = false

theorem SameJob.refl (row : WorkflowJob) : SameJob row row := ⟨rfl, rfl, rfl⟩

theorem SameJob.trans {a b c : WorkflowJob} (first : SameJob a b) (rest : SameJob b c) : SameJob a c :=
  ⟨rest.jobType.trans first.jobType, rest.payload.trans first.payload,
    rest.idempotencyKey.trans first.idempotencyKey⟩

theorem SameJob.notifies {id : String} {row row' : WorkflowJob} (same : SameJob row row') :
    notifies id row' = notifies id row := by
  unfold ReportOccurrences.notifies
  rw [same.jobType, same.idempotencyKey]

theorem JobsKept.refl (jobs : Jobs) : JobsKept jobs jobs :=
  ⟨fun _ row found => ⟨row, found, .refl row⟩, fun _ row found => .inl ⟨row, found, .refl row⟩⟩

section Queue

variable {store : Store} {id : String} {guard : WorkflowJob → Bool} {set : WorkflowJob → WorkflowJob}

theorem jobsKept_update (same : ∀ row, SameJob row (set row)) :
    JobsKept store.jobs (store.update id guard set).1.jobs := by
  cases won : (store.update id guard set).2 with
  | false =>
    rw [Store.update_refused won]
    exact .refl _
  | true =>
    obtain ⟨job, found, pass⟩ := Store.update_won.mp won
    refine ⟨fun j row there => ?_, fun j row there => ?_⟩
    · rw [Store.update_get found pass]
      split_ifs with equal
      · subst equal
        obtain rfl := some.inj (found.symm.trans there)
        exact ⟨_, rfl, same job⟩
      · exact ⟨row, there, .refl row⟩
    · rw [Store.update_get found pass] at there
      split_ifs at there with equal
      · cases there
        exact .inl ⟨job, equal ▸ found, same job⟩
      · exact .inl ⟨row, there, .refl row⟩

theorem jobsKept_enqueue {input : WorkflowJobInput} (other : ofNotification input = false) :
    JobsKept store.jobs (store.enqueue input).jobs := by
  refine ⟨fun j row there => ⟨row, Store.enqueue_get_of_some there, .refl row⟩, fun j row there => ?_⟩
  rcases Store.of_enqueue_get there with old | ⟨rfl, -, rfl⟩
  · exact .inl ⟨row, old, .refl row⟩
  · exact .inr other

theorem jobsKept_run (statement : QueueStatement) : JobsKept store.jobs (statement.run store).jobs := by
  cases statement with
  | enqueue input =>
    simp only [QueueStatement.run]
    split_ifs with kind
    · exact .refl _
    · exact jobsKept_enqueue (Bool.eq_false_iff.mpr kind)
  | claim workerId leaseSeconds id => exact jobsKept_update fun _ => ⟨rfl, rfl, rfl⟩
  | heartbeat id workerId fencingToken leaseSeconds => exact jobsKept_update fun _ => ⟨rfl, rfl, rfl⟩
  | complete id workerId fencingToken => exact jobsKept_update fun _ => ⟨rfl, rfl, rfl⟩
  | fail job workerId message retryAt workerNow => exact jobsKept_update fun _ => ⟨rfl, rfl, rfl⟩
  | replay id => exact jobsKept_update fun _ => ⟨rfl, rfl, rfl⟩

end Queue

/-! ## What a transaction can do -/

section Transactions

variable {α : Type} {db db' : Db} {jobId workerId : String} {fencingToken : Nat} {o : OwnedReportOccurrence}
  {row : OccurrenceRow} {slot : Slot} {f : OccurrenceRow → OccurrenceRow}

@[simp] theorem Db.get_setOccurrence {j : Slot} : (db.setOccurrence slot f).occurrences.get j =
    if j = slot then (db.occurrences.get slot).map f else db.occurrences.get j := by
  simp [Db.setOccurrence, Table.get_updateWhere]

theorem lockJob_silent : Keeps Eq (lockJob jobId workerId fencingToken) := fun s _ s' ran => by
  unfold lockJob at ran
  rw [reading_bind_ok] at ran
  exact (ensure_ok.mp ran).2.symm

theorem owned_ok {work : Tx α} {a : α} (ran : owned jobId workerId fencingToken work db = .ok (a, db')) :
    work db = .ok (a, db') := by
  unfold owned at ran
  obtain ⟨a', s, worked, ran⟩ := bind_ok.mp ran
  obtain ⟨⟨⟩, -, ran⟩ := lockJob_silent.bind_ok ran
  obtain ⟨rfl, rfl⟩ := pure_ok.mp ran
  exact worked

theorem lock_silent : Keeps Eq (lock o) := fun s row s' ran => by
  unfold lock at ran
  obtain ⟨-, -, ran⟩ := lockJob_silent.bind_ok ran
  rw [reading_bind_ok] at ran
  exact Keeps.need s row s' ran

theorem lock_found (ran : lock o db = .ok (row, db')) :
    db.occurrences.get o.occurrence.slot = some row ∧ row.fencingToken = o.fencingToken := by
  unfold lock at ran
  obtain ⟨-, -, ran⟩ := lockJob_silent.bind_ok ran
  rw [reading_bind_ok] at ran
  cases there : (db.occurrences.get o.occurrence.slot).filter fun row =>
      row.workflowJobId = o.jobId && row.leaseOwner = some o.workerId && row.fencingToken = o.fencingToken with
  | none =>
    rw [there] at ran
    cases ran
  | some row' =>
    rw [there] at ran
    cases ran
    obtain ⟨found, passes⟩ := Option.filter_eq_some_iff.mp there
    simp only [Bool.and_eq_true, decide_eq_true_eq] at passes
    exact ⟨found, passes.2⟩

theorem staged_ok {r : Option (Nat × Report)} (ran : staged row db = .ok (r, db')) :
    db' = db ∧ r = row.stagedReportId.bind fun id => (db.reports.get id).map fun report => (id, report) := by
  unfold staged at ran
  rw [reading_bind_ok] at ran
  obtain ⟨rfl, rfl⟩ := pure_ok.mp ran
  exact ⟨rfl, rfl⟩

theorem staged_silent : Keeps Eq (staged row) := fun _ _ _ ran => (staged_ok ran).1.symm

/-- The notifications of a report that its completion adds to the queue. -/
structure Published (r : Nat) (channels : List Int) (db db' : Db) : Prop where
  occurrences : db'.occurrences = db.occurrences
  reports : db'.reports = db.reports
  nextReport : db'.nextReport = db.nextReport
  completions : db'.completions = db.completions
  old : ∀ id row, db.store.jobs.get id = some row → db'.store.jobs.get id = some row
  new : ∀ id row, db'.store.jobs.get id = some row → db.store.jobs.get id = some row ∨
    ∃ c : Nat, (c : Int) ∈ channels ∧ id = (notificationJob r c).id ∧ SameJob ((notificationJob r c).row 0) row
  all : ∀ c ∈ channels, 0 < c ∧ ∃ row, db'.store.jobs.get (notificationJob r c.toNat).id = some row ∧
    SameJob ((notificationJob r c.toNat).row 0) row

/-- No job has the id or the key of a notification. -/
def Unnotified (db : Db) (r c : Nat) : Prop :=
  ∀ id row, db.store.jobs.get id = some row →
    id ≠ (notificationJob r c).id ∧ row.idempotencyKey ≠ (notificationJob r c).idempotencyKey

theorem publish_new {r c : Nat} (fresh : Unnotified db r c) (id : String) :
    (db.publish r (notificationJob r c)).store.jobs.get id =
      if id = (notificationJob r c).id then some ((notificationJob r c).row db.store.now)
      else db.store.jobs.get id := by
  have absent : db.store.jobs.get (notificationJob r c).id = none :=
    Option.eq_none_iff_forall_ne_some.mpr fun row there => (fresh _ row there).1 rfl
  unfold Db.publish Store.enqueue
  rw [if_neg]
  · simp only [Table.get_insertNew]
    by_cases same : id = (notificationJob r c).id
    · rw [if_pos ⟨same, absent⟩, if_pos same]
    · rw [if_neg same, if_neg fun both => same both.1]
  · intro taken
    obtain ⟨row, mem, same⟩ := any_eq_true.mp taken
    obtain ⟨id, there⟩ := Table.mem_toList.mp mem
    exact (fresh id row there).2 (beq_iff_eq.mp same)

theorem publishAll_ok {r : Nat} {channels : List Int} (nodup : channels.Nodup)
    (fresh : ∀ c : Nat, (c : Int) ∈ channels → Unnotified db r c)
    (ran : publishAll r channels db = .ok ((), db')) : Published r channels db db' := by
  induction channels generalizing db with
  | nil =>
    obtain ⟨-, rfl⟩ := pure_ok.mp ran
    exact ⟨rfl, rfl, rfl, rfl, fun _ _ found => found, fun _ _ found => .inl found, fun _ none => nomatch none⟩
  | cons channel rest ih =>
    obtain ⟨absent, nodup⟩ := nodup_cons.mp nodup
    unfold publishAll at ran
    rw [need_bind_ok] at ran
    obtain ⟨job, made, ran⟩ := ran
    rw [write_bind_ok] at ran
    unfold createReportNotificationJob at made
    split_ifs at made with valid
    cases made
    have cast : ((channel.toNat : Nat) : Int) = channel := Int.toNat_of_nonneg (by omega)
    have own : Unnotified db r channel.toNat := fresh channel.toNat (by rw [cast]; exact mem_cons_self)
    have jobs := publish_new own
    have rest_ := ih nodup (fun c mem => ?_) ran
    · refine ⟨rest_.occurrences, rest_.reports, rest_.nextReport, rest_.completions, fun id row found => ?_,
        fun id row found => ?_, fun c mem => ?_⟩
      · refine rest_.old id row ?_
        rw [jobs, if_neg (own id row found).1, found]
      · rcases rest_.new id row found with old | ⟨c, mem, same⟩
        · rw [jobs] at old
          split_ifs at old with equal
          · cases old
            exact .inr ⟨channel.toNat, by rw [cast]; exact mem_cons_self, equal, ⟨rfl, rfl, rfl⟩⟩
          · exact .inl old
        · exact .inr ⟨c, mem_cons_of_mem _ mem, same⟩
      · rcases mem_cons.mp mem with rfl | later
        · have there := jobs (notificationJob r c.toNat).id
          rw [if_pos rfl] at there
          exact ⟨valid.2.2.1, _, rest_.old _ _ there, ⟨rfl, rfl, rfl⟩⟩
        · exact rest_.all c later
    · -- the notification of this channel is none of a later one
      have differs : c ≠ channel.toNat := by
        rintro rfl
        rw [cast] at mem
        exact absent mem
      intro id row found
      rw [jobs] at found
      split_ifs at found with equal
      · cases found
        exact ⟨fun same => differs (id_inj (equal.symm.trans same)).2.symm, fun same => differs (key_inj same).2.symm⟩
      · exact fresh c (mem_cons_of_mem _ mem) id row found

end Transactions

/-! ## Changes -/

/-- A claim or a failure: an occurrence that is not completed moves on. -/
structure Moves (row row' : OccurrenceRow) : Prop where
  config : row'.configSnapshot = row.configSnapshot
  token : row.fencingToken ≤ row'.fencingToken
  staged : row'.stagedReportId = row.stagedReportId
  before : row.state ≠ .completed
  after : row'.state ≠ .completed

def Db.addReport (db : Db) (report : Report) : Db :=
  { db with reports := db.reports.put db.nextReport report, nextReport := db.nextReport + 1 }

def Db.stage (db : Db) (slot : Slot) (report : Report) : Db :=
  (db.addReport report).setOccurrence slot fun row => { row with stagedReportId := some db.nextReport }

def finished (r : Nat) (row : OccurrenceRow) : OccurrenceRow :=
  { row with state := .completed, reportId := some r, lastError := none }

def Db.conclude (db : Db) (slot : Slot) (r : Nat) : Db :=
  { db.setOccurrence slot (finished r) with completions := db.completions ++ [(slot, r)] }

/-- What a step makes of the rows. -/
inductive Change (db : Db) : Db → Prop
  | jobs (store : Store) (kept : JobsKept db.store.jobs store.jobs) : Change db { db with store }
  | report (report : Report) : Change db (db.addReport report)
  | scheduled (slot : Slot) (jobId : String) (config : ReportConfig) :
    Change db
      { db with occurrences := db.occurrences.insertNew slot ⟨.queued, jobId, config, none, 0, none, none, none⟩ }
  | moved {slot : Slot} {row : OccurrenceRow} {f : OccurrenceRow → OccurrenceRow}
    (found : db.occurrences.get slot = some row) (moves : Moves row (f row)) : Change db (db.setOccurrence slot f)
  | staged {slot : Slot} {row : OccurrenceRow} (report : Report) (found : db.occurrences.get slot = some row)
    (fresh : row.stagedReportId = none) (unfinished : row.state ≠ .completed) : Change db (db.stage slot report)
  | rewritten (r : Nat) {old : Report} (report : Report) (found : db.reports.get r = some old)
    (unfinished : old.status ≠ .completed) : Change db { db with reports := db.reports.put r report }
  | completed (slot : Slot) {row : OccurrenceRow} (r : Nat) {report : Report} {db₁ : Db}
    (found : db.occurrences.get slot = some row) (unfinished : row.state ≠ .completed)
    (staged : row.stagedReportId = some r) (saved : db.reports.get r = some report)
    (done : report.status = .completed) (published : Published r row.configSnapshot.channels db db₁) :
    Change db (db₁.conclude slot r)

/-! ## What stays -/

/-- What no step takes back. -/
structure Stays (db db' : Db) : Prop where
  occurrence : ∀ slot row, db.occurrences.get slot = some row → ∃ row', db'.occurrences.get slot = some row' ∧
    row'.configSnapshot = row.configSnapshot ∧ row.fencingToken ≤ row'.fencingToken ∧
    (∀ r, row.stagedReportId = some r → row'.stagedReportId = some r) ∧ (row.state = .completed → row' = row)
  report : ∀ r report, db.reports.get r = some report → report.status = .completed →
    db'.reports.get r = some report
  job : ∀ id job, db.store.jobs.get id = some job → ∃ job', db'.store.jobs.get id = some job' ∧ SameJob job job'
  completions : db.completions <+: db'.completions

theorem Stays.refl (db : Db) : Stays db db :=
  ⟨fun _ row found => ⟨row, found, rfl, le_refl _, fun _ staged => staged, fun _ => rfl⟩,
    fun _ _ found _ => found, fun _ job found => ⟨job, found, .refl job⟩, prefix_refl _⟩

theorem Stays.trans {a b c : Db} (first : Stays a b) (rest : Stays b c) : Stays a c := by
  refine ⟨fun slot row found => ?_, fun r report found done => ?_, fun id job found => ?_,
    first.completions.trans rest.completions⟩
  · obtain ⟨row', there, config, token, staged, final⟩ := first.occurrence slot row found
    obtain ⟨row'', found', config', token', staged', final'⟩ := rest.occurrence slot row' there
    refine ⟨row'', found', config'.trans config, token.trans token', fun r was => staged' r (staged r was),
      fun done => ?_⟩
    obtain rfl := final done
    exact final' done
  · exact rest.report r report (first.report r report found done) done
  · obtain ⟨job', there, same⟩ := first.job id job found
    obtain ⟨job'', found', same'⟩ := rest.job id job' there
    exact ⟨job'', found', same.trans same'⟩

theorem stays_set {db : Db} {slot : Slot} {row : OccurrenceRow} {f : OccurrenceRow → OccurrenceRow}
    (found : db.occurrences.get slot = some row) (config : (f row).configSnapshot = row.configSnapshot)
    (token : row.fencingToken ≤ (f row).fencingToken)
    (staged : ∀ r, row.stagedReportId = some r → (f row).stagedReportId = some r)
    (unfinished : row.state ≠ .completed) : Stays db (db.setOccurrence slot f) := by
  refine ⟨fun s old there => ?_, fun _ _ found _ => found, fun _ job found => ⟨job, found, .refl job⟩,
    prefix_refl _⟩
  rw [Db.get_setOccurrence]
  split_ifs with same
  · subst same
    obtain rfl := some.inj (found.symm.trans there)
    exact ⟨f row, by rw [found]; rfl, config, token, staged, fun done => absurd done unfinished⟩
  · exact ⟨old, there, rfl, le_refl _, fun _ was => was, fun _ => rfl⟩

theorem Published.stays {r : Nat} {channels : List Int} {db db' : Db} (published : Published r channels db db') :
    Stays db db' := by
  refine ⟨fun slot row found => ?_, fun r report found _ => ?_, fun id job found => ?_, ?_⟩
  · exact ⟨row, published.occurrences ▸ found, rfl, le_refl _, fun _ was => was, fun _ => rfl⟩
  · exact published.reports ▸ found
  · exact ⟨job, published.old id job found, .refl job⟩
  · exact published.completions ▸ prefix_refl _

/-! ## Reports under construction -/

/-- Every report has been numbered, and none is staged for two occurrences. -/
structure Staging (db : Db) : Prop where
  known : ∀ slot row r, db.occurrences.get slot = some row → row.stagedReportId = some r → r < db.nextReport
  single : ∀ slot slot' row row' r, db.occurrences.get slot = some row → db.occurrences.get slot' = some row' →
    row.stagedReportId = some r → row'.stagedReportId = some r → slot = slot'
  fresh : ∀ r report, db.reports.get r = some report → r < db.nextReport

section Steps

variable {db db' : Db}

theorem addReport_stays (staging : Staging db) (report : Report) : Stays db (db.addReport report) := by
  refine ⟨fun _ row found => ⟨row, found, rfl, le_refl _, fun _ was => was, fun _ => rfl⟩, fun r old found _ => ?_,
    fun _ job found => ⟨job, found, .refl job⟩, prefix_refl _⟩
  have differs : r ≠ db.nextReport := (staging.fresh r old found).ne
  exact (Table.get_put_ne differs).trans found

theorem Change.stays (staging : Staging db) (change : Change db db') : Stays db db' := by
  cases change with
  | jobs store kept =>
    exact ⟨fun _ row found => ⟨row, found, rfl, le_refl _, fun _ was => was, fun _ => rfl⟩, fun _ _ found _ => found,
      kept.kept, prefix_refl _⟩
  | report report => exact addReport_stays staging report
  | scheduled slot jobId config =>
    refine ⟨fun s row found => ⟨row, ?_, rfl, le_refl _, fun _ was => was, fun _ => rfl⟩, fun _ _ found _ => found,
      fun _ job found => ⟨job, found, .refl job⟩, prefix_refl _⟩
    refine Table.get_insertNew.trans ?_
    rw [if_neg]
    · exact found
    · rintro ⟨rfl, absent⟩
      rw [found] at absent
      cases absent
  | moved found moves =>
    exact stays_set found moves.config moves.token (fun r was => moves.staged.trans was) moves.before
  | staged report found fresh unfinished =>
    refine (addReport_stays staging report).trans (stays_set found rfl (le_refl _) (fun r was => ?_) unfinished)
    rw [fresh] at was
    cases was
  | rewritten r report found unfinished =>
    refine ⟨fun _ row found => ⟨row, found, rfl, le_refl _, fun _ was => was, fun _ => rfl⟩,
      fun s old there done => ?_, fun _ job found => ⟨job, found, .refl job⟩, prefix_refl _⟩
    refine (Table.get_put_ne ?_).trans there
    rintro rfl
    obtain rfl := some.inj (found.symm.trans there)
    exact unfinished done
  | completed slot r found unfinished staged saved done published =>
    rw [← published.occurrences] at found
    have set := published.stays.trans (@stays_set _ slot _ (finished r) found rfl (le_refl _) (fun _ was => was) unfinished)
    exact ⟨set.occurrence, set.report, set.job, set.completions.trans (prefix_append _ _)⟩

theorem Staging.of_rows (staging : Staging db) (next : db.nextReport ≤ db'.nextReport)
    (rows : ∀ slot row' r, db'.occurrences.get slot = some row' → row'.stagedReportId = some r →
      ∃ row, db.occurrences.get slot = some row ∧ row.stagedReportId = some r)
    (reports : ∀ r report, db'.reports.get r = some report → r < db'.nextReport) : Staging db' := by
  refine ⟨fun slot row r found staged => ?_, fun slot slot' row row' r found found' staged staged' => ?_, reports⟩
  · obtain ⟨old, there, was⟩ := rows slot row r found staged
    exact (staging.known slot old r there was).trans_le next
  · obtain ⟨old, there, was⟩ := rows slot row r found staged
    obtain ⟨old', there', was'⟩ := rows slot' row' r found' staged'
    exact staging.single slot slot' old old' r there there' was was'

theorem staged_of_set {slot : Slot} {f : OccurrenceRow → OccurrenceRow}
    (same : ∀ row, db.occurrences.get slot = some row → (f row).stagedReportId = row.stagedReportId)
    {s : Slot} {row' : OccurrenceRow} {r : Nat} (found : (db.setOccurrence slot f).occurrences.get s = some row')
    (staged : row'.stagedReportId = some r) :
    ∃ row, db.occurrences.get s = some row ∧ row.stagedReportId = some r := by
  rw [Db.get_setOccurrence] at found
  split_ifs at found with equal
  · obtain ⟨row, there, rfl⟩ := Option.map_eq_some_iff.mp found
    exact ⟨row, equal ▸ there, (same row there).symm.trans staged⟩
  · exact ⟨row', found, staged⟩

theorem Staging.addReport (staging : Staging db) (report : Report) : Staging (db.addReport report) := by
  refine staging.of_rows (Nat.le_succ _) (fun slot row r found was => ⟨row, found, was⟩) fun r old found => ?_
  rcases eq_or_ne r db.nextReport with rfl | differs
  · exact Nat.lt_succ_self _
  · exact (staging.fresh r old ((Table.get_put_ne differs).symm.trans found)).trans (Nat.lt_succ_self _)

theorem Staging.stage {slot : Slot} (staging : Staging db) (report : Report) : Staging (db.stage slot report) := by
  have added := staging.addReport report
  have read : ∀ s row' r, (db.stage slot report).occurrences.get s = some row' → row'.stagedReportId = some r →
      (s = slot ∧ r = db.nextReport) ∨ ∃ old, db.occurrences.get s = some old ∧ old.stagedReportId = some r := by
    intro s row' r there staged
    unfold Db.stage at there
    rw [Db.get_setOccurrence] at there
    split_ifs at there with equal
    · obtain ⟨old, -, rfl⟩ := Option.map_eq_some_iff.mp there
      exact .inl ⟨equal, (some.inj staged).symm⟩
    · exact .inr ⟨row', there, staged⟩
  refine ⟨fun s row' r there staged => ?_, fun s s' row row' r there there' staged staged' => ?_, added.fresh⟩
  · rcases read s row' r there staged with ⟨-, rfl⟩ | ⟨old, was, before⟩
    · exact Nat.lt_succ_self _
    · exact added.known s old r was before
  · rcases read s row r there staged with ⟨rfl, rfl⟩ | ⟨old, was, before⟩
    · rcases read s' row' _ there' staged' with ⟨rfl, -⟩ | ⟨old', was', before'⟩
      · rfl
      · exact absurd (staging.known s' old' _ was' before') (Nat.lt_irrefl _)
    · rcases read s' row' r there' staged' with ⟨rfl, rfl⟩ | ⟨old', was', before'⟩
      · exact absurd (staging.known s old _ was before) (Nat.lt_irrefl _)
      · exact staging.single s s' old old' r was was' before before'

theorem Change.staging (staging : Staging db) (change : Change db db') : Staging db' := by
  cases change with
  | jobs store kept => exact ⟨staging.known, staging.single, staging.fresh⟩
  | report report => exact staging.addReport report
  | scheduled slot jobId config =>
    refine staging.of_rows (le_refl _) (fun s row r found staged => ?_) staging.fresh
    replace found := Table.get_insertNew.symm.trans found
    split_ifs at found with new
    · cases found
      cases staged
    · exact ⟨row, found, staged⟩
  | moved found moves =>
    refine staging.of_rows (le_refl _) (fun s row r there staged => ?_) staging.fresh
    refine staged_of_set (fun row was => ?_) there staged
    obtain rfl := some.inj (found.symm.trans was)
    exact moves.staged
  | staged report found fresh unfinished => exact staging.stage report
  | rewritten r report found unfinished =>
    refine staging.of_rows (le_refl _) (fun s row r there staged => ⟨row, there, staged⟩) fun s old there => ?_
    rcases eq_or_ne s r with rfl | differs
    · exact staging.fresh s _ found
    · exact staging.fresh s old ((Table.get_put_ne differs).symm.trans there)
  | completed slot r found unfinished staged saved done published =>
    refine staging.of_rows published.nextReport.ge (fun s row id there staged => ?_) fun s report there => ?_
    · rw [← published.occurrences]
      exact @staged_of_set _ slot (finished r) (fun _ _ => rfl) s row _ there staged
    · exact published.nextReport.symm ▸ staging.fresh s report (published.reports ▸ there)

/-! ## Completions -/

/-- The notification of a channel is in the queue. -/
def Notified (db : Db) (r c : Nat) : Prop :=
  ∃ job, db.store.jobs.get (notificationJob r c).id = some job ∧ SameJob ((notificationJob r c).row 0) job

/-- What the completion of an occurrence has left. -/
def Completed (db : Db) (slot : Slot) (r : Nat) : Prop :=
  ∃ row report, db.occurrences.get slot = some row ∧ row.state = .completed ∧ row.reportId = some r ∧
    row.stagedReportId = some r ∧ db.reports.get r = some report ∧ report.status = .completed ∧
    ∀ c ∈ row.configSnapshot.channels, 0 < c ∧ Notified db r c.toNat

/-- A job notifies a channel of the frozen configuration of an occurrence. -/
def NotifiesOf (db : Db) (slot : Slot) (r : Nat) (id : String) (job : WorkflowJob) : Prop :=
  ∃ (row : OccurrenceRow) (c : Nat), db.occurrences.get slot = some row ∧ (c : Int) ∈ row.configSnapshot.channels ∧
    id = (notificationJob r c).id ∧ SameJob ((notificationJob r c).row 0) job

theorem Notified.stays {r c : Nat} (notified : Notified db r c) (stays : Stays db db') : Notified db' r c := by
  obtain ⟨job, found, same⟩ := notified
  obtain ⟨job', found', same'⟩ := stays.job _ job found
  exact ⟨job', found', same.trans same'⟩

theorem Completed.stays {slot : Slot} {r : Nat} (completed : Completed db slot r) (stays : Stays db db') :
    Completed db' slot r := by
  obtain ⟨row, report, found, state, reportId, staged, saved, done, notified⟩ := completed
  obtain ⟨row', found', -, -, -, final⟩ := stays.occurrence slot row found
  obtain rfl := final state
  exact ⟨row', report, found', state, reportId, staged, stays.report r report saved done, done,
    fun c mem => ⟨(notified c mem).1, (notified c mem).2.stays stays⟩⟩

theorem NotifiesOf.stays {slot : Slot} {r : Nat} {id : String} {job job' : WorkflowJob}
    (of : NotifiesOf db slot r id job) (stays : Stays db db') (same : SameJob job job') :
    NotifiesOf db' slot r id job' := by
  obtain ⟨row, c, found, mem, own, made⟩ := of
  obtain ⟨row', found', config, -⟩ := stays.occurrence slot row found
  exact ⟨row', c, found', config ▸ mem, own, made.trans same⟩

/-- The completed occurrences are those whose completion has been committed, and theirs are the notifications. -/
structure Completions (db : Db) : Prop where
  done : ∀ slot row, db.occurrences.get slot = some row → row.state = .completed → ∃ r, (slot, r) ∈ db.completions
  completed : ∀ slot r, (slot, r) ∈ db.completions → Completed db slot r
  once : (db.completions.map Prod.fst).Nodup
  notify : ∀ id job, db.store.jobs.get id = some job → notifies id job = true →
    ∃ slot r, (slot, r) ∈ db.completions ∧ NotifiesOf db slot r id job

theorem Completions.of_stays (completions : Completions db) (stays : Stays db db')
    (none : db'.completions = db.completions)
    (rows : ∀ slot row', db'.occurrences.get slot = some row' → row'.state = .completed →
      db.occurrences.get slot = some row')
    (jobs : JobsKept db.store.jobs db'.store.jobs) : Completions db' := by
  refine ⟨fun slot row found state => ?_, fun slot r mem => ?_, none ▸ completions.once, fun id job' found kind => ?_⟩
  · rw [none]
    exact completions.done slot row (rows slot row found state) state
  · rw [none] at mem
    exact (completions.completed slot r mem).stays stays
  · rcases jobs.new id job' found with ⟨job, there, same⟩ | other
    · obtain ⟨slot, r, mem, of⟩ := completions.notify id job there (same.notifies.symm.trans kind)
      exact ⟨slot, r, none ▸ mem, of.stays stays same⟩
    · rw [kind] at other
      cases other

theorem completed_of_set {slot : Slot} {f : OccurrenceRow → OccurrenceRow}
    (unfinished : ∀ row, db.occurrences.get slot = some row → (f row).state ≠ .completed) {s : Slot}
    {row' : OccurrenceRow} (found : (db.setOccurrence slot f).occurrences.get s = some row')
    (state : row'.state = .completed) : db.occurrences.get s = some row' := by
  rw [Db.get_setOccurrence] at found
  split_ifs at found with equal
  · obtain ⟨row, there, rfl⟩ := Option.map_eq_some_iff.mp found
    exact absurd state (unfinished row there)
  · exact found

theorem Completions.conclude {slot : Slot} {row : OccurrenceRow} {r : Nat} {report : Report} {db₁ : Db}
    (completions : Completions db) (stays : Stays db (db₁.conclude slot r))
    (found : db.occurrences.get slot = some row) (unfinished : row.state ≠ .completed)
    (staged : row.stagedReportId = some r) (saved : db.reports.get r = some report)
    (done : report.status = .completed) (published : Published r row.configSnapshot.channels db db₁) :
    Completions (db₁.conclude slot r) := by
  have log : (db₁.conclude slot r).completions = db.completions ++ [(slot, r)] := by
    rw [← published.completions]
    rfl
  have own : (db₁.conclude slot r).occurrences.get slot = some (finished r row) := by
    refine Db.get_setOccurrence.trans ?_
    rw [if_pos rfl, published.occurrences, found]
    rfl
  refine ⟨fun s row' there state => ?_, fun s r' mem => ?_, ?_, fun id job there kind => ?_⟩
  · rw [log]
    rcases eq_or_ne s slot with rfl | differs
    · exact ⟨r, mem_append_right _ (mem_singleton_self _)⟩
    · replace there := Db.get_setOccurrence.symm.trans there
      rw [if_neg differs, published.occurrences] at there
      obtain ⟨r', mem⟩ := completions.done s row' there state
      exact ⟨r', mem_append_left _ mem⟩
  · rw [log] at mem
    rcases mem_append.mp mem with before | new
    · exact (completions.completed s r' before).stays stays
    · cases mem_singleton.mp new
      exact ⟨finished r row, report, own, rfl, rfl, staged, stays.report r report saved done, done,
        fun c mem => published.all c mem⟩
  · rw [log, map_append, nodup_append]
    refine ⟨completions.once, nodup_singleton _, fun s mem s' new same => ?_⟩
    obtain rfl := mem_singleton.mp new
    obtain ⟨⟨s, r'⟩, before, rfl⟩ := mem_map.mp mem
    obtain ⟨old, -, there, state, -⟩ := completions.completed s r' before
    subst same
    obtain rfl := some.inj (found.symm.trans there)
    exact unfinished state
  · rw [log]
    rcases published.new id job there with old | ⟨c, mem, rfl, same⟩
    · obtain ⟨s, r', mem, of⟩ := completions.notify id job old kind
      exact ⟨s, r', mem_append_left _ mem, of.stays stays (.refl job)⟩
    · exact ⟨slot, r, mem_append_right _ (mem_singleton_self _), finished r row, c, own, mem, rfl, same⟩

theorem Change.completions (staging : Staging db) (completions : Completions db) (change : Change db db') :
    Completions db' := by
  have stays := change.stays staging
  cases change with
  | jobs store kept => exact completions.of_stays stays rfl (fun _ _ found _ => found) kept
  | report report => exact completions.of_stays stays rfl (fun _ _ found _ => found) (.refl _)
  | scheduled slot jobId config =>
    refine completions.of_stays stays rfl (fun s row found state => ?_) (.refl _)
    replace found := Table.get_insertNew.symm.trans found
    split_ifs at found with new
    · cases found
      cases state
    · exact found
  | moved found moves =>
    refine completions.of_stays stays rfl (fun s row' there state => ?_) (.refl _)
    refine completed_of_set (fun row was => ?_) there state
    obtain rfl := some.inj (found.symm.trans was)
    exact moves.after
  | staged report found fresh unfinished =>
    refine completions.of_stays stays rfl (fun s row' there state => ?_) (.refl _)
    refine @completed_of_set (db.addReport report) _ _ (fun row was => ?_) s row' there state
    obtain rfl := some.inj (found.symm.trans was)
    exact unfinished
  | rewritten r report found unfinished => exact completions.of_stays stays rfl (fun _ _ found _ => found) (.refl _)
  | completed slot r found unfinished staged saved done published =>
    exact completions.conclude stays found unfinished staged saved done published

end Steps

end Slide.ReportOccurrences
