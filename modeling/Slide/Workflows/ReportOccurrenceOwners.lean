import Slide.Workflows.ReportOccurrenceRun

/-!
# Owners of an occurrence

Each transaction of an owner is a change of the rows, and an owner that another one has followed changes
nothing.
-/

namespace Slide.ReportOccurrences

open Transaction List
open Slide.Workflows (Store WorkflowJobInput WorkflowJob)

/-! ## Transactions as changes -/

abbrev Reaches : Db → Db → Prop := Relation.ReflTransGen Change

section Transactions

variable {db db' : Db} {o : OwnedReportOccurrence} {commit : Commit}

theorem notifies_of_id {r c : Nat} (job : WorkflowJob) : notifies (notificationJob r c).id job = true := by
  have starts : "report-notify-".toList.isPrefixOf (notificationJob r c).id.toList = true := by
    rw [id_toList]
    exact isPrefixOf_iff_prefix.mpr (prefix_append _ _)
  unfold notifies
  rw [starts, Bool.or_true, Bool.true_or]

theorem notifies_of_key {r c : Nat} {id : String} {job : WorkflowJob}
    (same : job.idempotencyKey = (notificationJob r c).idempotencyKey) : notifies id job = true := by
  have starts : "report-notify:".toList.isPrefixOf job.idempotencyKey.toList = true := by
    rw [same, key_toList]
    exact isPrefixOf_iff_prefix.mpr (prefix_append _ _)
  unfold notifies
  rw [starts, Bool.or_true]

theorem unnotified {slot : Slot} {row : OccurrenceRow} {r : Nat} (staging : Staging db)
    (completions : Completions db) (found : db.occurrences.get slot = some row)
    (unfinished : row.state ≠ .completed) (staged : row.stagedReportId = some r) (c : Nat) : Unnotified db r c := by
  have other : ∀ slot' r', (slot', r') ∈ db.completions → r ≠ r' := by
    rintro slot' r' mem rfl
    obtain ⟨row', -, found', state, -, staged', -⟩ := completions.completed slot' r mem
    obtain rfl := staging.single slot slot' row row' r found found' staged staged'
    obtain rfl := some.inj (found.symm.trans found')
    exact unfinished state
  intro id job there
  constructor
  · rintro rfl
    obtain ⟨slot', r', mem, -, c', -, -, own, -⟩ := completions.notify _ job there (notifies_of_id job)
    exact other slot' r' mem (id_inj own).1
  · intro key
    obtain ⟨slot', r', mem, -, c', -, -, -, same⟩ := completions.notify id job there (notifies_of_key key)
    exact other slot' r' mem (key_inj (key.symm.trans same.idempotencyKey)).1

theorem schedule_reaches (host : Host) (of : ReportOccurrence) (config : ReportConfig) :
    Reaches db (perform (schedule host of config) commit db).2 := by
  apply perform_keeps (P := Reaches db) .refl
  intro b s ran
  unfold schedule at ran
  obtain ⟨⟨⟩, db₁, first, ran⟩ := bind_ok.mp ran
  have inserted : Reaches db db₁ := by
    rw [write_ok.mp first]
    split_ifs
    · exact .refl
    · exact .single (.scheduled of.slot _ config)
  rw [reading_bind_ok] at ran
  split_ifs at ran with lost
  · obtain ⟨-, rfl⟩ := pure_ok.mp ran
    exact inserted
  · rw [write_bind_ok] at ran
    obtain ⟨-, rfl⟩ := pure_ok.mp ran
    exact inserted.tail (.jobs _ (jobsKept_enqueue (occurrence_not_notification host of)))

theorem claim_ok {of : ReportOccurrence} {jobId workerId : String} {fencingToken : Nat}
    {r : Option OwnedReportOccurrence} (ran : claim of jobId workerId fencingToken db = .ok (r, db')) :
    db' = db ∧ r = none ∨
      ∃ row, db.occurrences.get of.slot = some row ∧ row.fencingToken ≤ fencingToken ∧
        r = some ⟨of, jobId, workerId, fencingToken, row.configSnapshot⟩ ∧
        db' = db.setOccurrence of.slot (fun row =>
          { row with state := .running, leaseOwner := some workerId, fencingToken, lastError := none }) ∧
        row.state ≠ .completed := by
  have ran := owned_ok ran
  obtain ⟨-, -, ran⟩ := lockJob_silent.bind_ok ran
  rw [reading_bind_ok, need_bind_ok] at ran
  obtain ⟨row, there, ran⟩ := ran
  obtain ⟨found, -⟩ := Option.filter_eq_some_iff.mp there
  split_ifs at ran with completed
  · obtain ⟨rfl, rfl⟩ := pure_ok.mp ran
    exact .inl ⟨rfl, rfl⟩
  · rw [ensure_bind_ok, write_bind_ok] at ran
    obtain ⟨token, ran⟩ := ran
    obtain ⟨rfl, rfl⟩ := pure_ok.mp ran
    exact .inr ⟨row, found, token, rfl, rfl, completed⟩

theorem claim_reaches (of : ReportOccurrence) (jobId workerId : String) (fencingToken : Nat) :
    Reaches db (perform (claim of jobId workerId fencingToken) commit db).2 := by
  apply perform_keeps (P := Reaches db) .refl
  intro r s ran
  rcases claim_ok ran with ⟨rfl, -⟩ | ⟨row, found, token, -, rfl, unfinished⟩
  · exact .refl
  · refine .single (.moved found ⟨rfl, token, rfl, unfinished, ?_⟩)
    exact fun same => (nomatch same)

theorem createReport_reaches (data : CreateReportData) :
    Reaches db (perform (createReport o data) commit db).2 := by
  apply perform_keeps (P := Reaches db) .refl
  intro a s ran
  have ran := owned_ok ran
  obtain ⟨row, locked, ran⟩ := lock_silent.bind_ok ran
  obtain ⟨found, -⟩ := lock_found locked
  rw [ensure_bind_ok] at ran
  obtain ⟨running, ran⟩ := ran
  have unfinished : row.state ≠ .completed := fun same => nomatch running.symm.trans same
  obtain ⟨saved, read, ran⟩ := staged_silent.bind_ok ran
  obtain ⟨-, there⟩ := staged_ok read
  cases saved with
  | some report =>
    obtain ⟨id, report⟩ := report
    obtain ⟨id', staged, there⟩ := Option.bind_eq_some_iff.mp there.symm
    obtain ⟨report', there, same⟩ := Option.map_eq_some_iff.mp there
    cases same
    simp only at ran
    split_ifs at ran with done
    · obtain ⟨-, rfl⟩ := pure_ok.mp ran
      exact .refl
    · rw [write_bind_ok] at ran
      obtain ⟨-, rfl⟩ := pure_ok.mp ran
      exact .single (.rewritten id data.values there done)
  | none =>
    simp only at ran
    rw [ensure_bind_ok, reading_bind_ok, write_bind_ok, write_bind_ok] at ran
    obtain ⟨fresh, ran⟩ := ran
    obtain ⟨-, rfl⟩ := pure_ok.mp ran
    exact .single (.staged data.values found fresh unfinished)

theorem updateReport_reaches (id : Nat) (status : ReportStatus) (content data : Option String) :
    Reaches db (perform (updateReport o id status content data) commit db).2 := by
  apply perform_keeps (P := Reaches db) .refl
  intro a s ran
  have ran := owned_ok ran
  obtain ⟨row, -, ran⟩ := lock_silent.bind_ok ran
  rw [ensure_bind_ok, reading_bind_ok, need_bind_ok] at ran
  obtain ⟨-, saved, there, ran⟩ := ran
  obtain ⟨found, unfinished⟩ := Option.filter_eq_some_iff.mp there
  obtain rfl := write_ok.mp ran
  exact .single (.rewritten id _ found (of_decide_eq_true unfinished))

theorem fail_reaches (message : String) : Reaches db (perform (fail o message) commit db).2 := by
  apply perform_keeps (P := Reaches db) .refl
  intro a s ran
  have ran := owned_ok ran
  obtain ⟨row, locked, ran⟩ := lock_silent.bind_ok ran
  obtain ⟨found, -⟩ := lock_found locked
  split_ifs at ran with completed
  · obtain ⟨-, rfl⟩ := pure_ok.mp ran
    exact .refl
  · obtain rfl := write_ok.mp ran
    exact .single (.moved found ⟨rfl, le_refl _, rfl, completed, fun same => (nomatch same)⟩)

theorem savedReport_reaches : Reaches db (perform (savedReport o) commit db).2 := by
  apply perform_keeps (P := Reaches db) .refl
  intro a s ran
  have ran := owned_ok ran
  obtain ⟨row, -, ran⟩ := lock_silent.bind_ok ran
  obtain ⟨saved, -, ran⟩ := staged_silent.bind_ok ran
  rw [ensure_bind_ok] at ran
  obtain ⟨-, rfl⟩ := pure_ok.mp ran.2
  exact .refl

theorem complete_reaches {row : OccurrenceRow} (staging : Staging db) (completions : Completions db)
    (own : db.occurrences.get o.occurrence.slot = some row) (config : row.configSnapshot = o.config) (r : Nat) :
    Reaches db (perform (complete o r) commit db).2 := by
  apply perform_keeps (P := Reaches db) .refl
  intro a s ran
  have ran := owned_ok ran
  obtain ⟨row', locked, ran⟩ := lock_silent.bind_ok ran
  obtain ⟨found, -⟩ := lock_found locked
  obtain rfl := some.inj (own.symm.trans found)
  rw [ensure_bind_ok, reading_bind_ok, ensure_bind_ok] at ran
  obtain ⟨⟨running, staged⟩, done, ran⟩ := ran
  obtain ⟨report, saved, done⟩ := (Option.any_eq_true _ _).mp done
  obtain ⟨⟨⟩, db₁, published, ran⟩ := bind_ok.mp ran
  obtain rfl := write_ok.mp ran
  have unfinished : row.state ≠ .completed := fun same => nomatch running.symm.trans same
  have distinct : o.config.channels.Nodup := nodup_reverse.mpr (nodup_dedup _)
  have published := publishAll_ok distinct
    (fun c _ => unnotified staging completions found unfinished staged c) published
  rw [← config] at published
  exact .single (.completed o.occurrence.slot r found unfinished staged saved (of_decide_eq_true done) published)

end Transactions

/-! ## Runs -/

/-- The row of an owner has the configuration that it was given, and its token or a greater one. -/
def Owns (db : Db) (o : OwnedReportOccurrence) : Prop :=
  ∃ row, db.occurrences.get o.occurrence.slot = some row ∧ row.configSnapshot = o.config ∧
    o.fencingToken ≤ row.fencingToken

structure Inv (w : World) : Prop where
  staging : Staging w.db
  completions : Completions w.db
  owned : ∀ o ∈ w.owned, Owns w.db o

theorem Reaches.keeps {db db' : Db} (reaches : Reaches db db') (staging : Staging db) (completions : Completions db) :
    Staging db' ∧ Completions db' ∧ Stays db db' := by
  induction reaches with
  | refl => exact ⟨staging, completions, .refl db⟩
  | tail _ change ih =>
    obtain ⟨staging, completions, stays⟩ := ih
    exact ⟨change.staging staging, change.completions staging completions, stays.trans (change.stays staging)⟩

theorem Owns.stays {db db' : Db} {o : OwnedReportOccurrence} (owns : Owns db o) (stays : Stays db db') :
    Owns db' o := by
  obtain ⟨row, found, config, token⟩ := owns
  obtain ⟨row', found', config', token', -⟩ := stays.occurrence _ row found
  exact ⟨row', found', config'.trans config, token.trans token'⟩

section Run

variable {host : Host} {w : World}

theorem Inv.call_reaches (inv : Inv w) {o : OwnedReportOccurrence} (mem : o ∈ w.owned) (call : Call)
    (commit : Commit) : Reaches w.db (call.run w.db o commit) := by
  cases call with
  | savedReport => exact savedReport_reaches
  | createReport data => exact createReport_reaches data
  | updateReport id status content data => exact updateReport_reaches id status content data
  | complete r =>
    obtain ⟨row, found, config, -⟩ := inv.owned o mem
    exact complete_reaches inv.staging inv.completions found config r
  | fail message => exact fail_reaches message

theorem Inv.step_reaches (inv : Inv w) (event : Event) : Reaches w.db (w.step host event).db := by
  cases event with
  | tick seconds => exact .single (.jobs _ (.refl _))
  | queue statement => exact .single (.jobs _ (jobsKept_run statement))
  | report report => exact .single (.report report)
  | schedule of config commit => exact schedule_reaches host of config
  | claim of jobId workerId fencingToken commit => exact claim_reaches of jobId workerId fencingToken
  | call o call commit =>
    simp only [World.step]
    split_ifs with mem
    · exact inv.call_reaches mem call commit
    · exact .refl

theorem owned_step {event : Event} {o : OwnedReportOccurrence} (mem : o ∈ (w.step host event).owned) :
    o ∈ w.owned ∨ Owns (w.step host event).db o := by
  cases event with
  | claim of jobId workerId fencingToken commit =>
    rcases mem_append.mp mem with before | new
    · exact .inl before
    · right
      obtain ⟨answer, got, rfl⟩ := Option.bind_eq_some_iff.mp (Option.mem_toList.mp new)
      rcases claim_ok (perform_some got) with ⟨-, none⟩ | ⟨row, found, -, same, after, -⟩
      · cases none
      · cases same
        refine ⟨{ row with state := .running, leaseOwner := some workerId, fencingToken, lastError := none }, ?_, rfl,
          le_refl fencingToken⟩
        simp only [World.step]
        rw [after, Db.get_setOccurrence, if_pos rfl, found]
        rfl
  | call o' call commit =>
    left
    simp only [World.step] at mem
    split_ifs at mem
    · exact mem
    · exact mem
  | tick | queue | report | schedule => exact .inl mem

theorem Inv.step (inv : Inv w) (event : Event) : Inv (w.step host event) ∧ Stays w.db (w.step host event).db := by
  obtain ⟨staging, completions, stays⟩ := (inv.step_reaches event).keeps inv.staging inv.completions
  refine ⟨⟨staging, completions, fun o mem => ?_⟩, stays⟩
  rcases owned_step mem with before | own
  · exact (inv.owned o before).stays stays
  · exact own

theorem Inv.run (inv : Inv w) (events : List Event) :
    Inv (events.foldl (World.step host) w) ∧ Stays w.db (events.foldl (World.step host) w).db := by
  induction events generalizing w with
  | nil => exact ⟨inv, .refl _⟩
  | cons event rest ih =>
    obtain ⟨inv', first⟩ := @Inv.step host w inv event
    obtain ⟨last, after⟩ := ih inv'
    exact ⟨last, first.trans after⟩

theorem inv_initial : Inv initial := by
  refine ⟨⟨?_, ?_, ?_⟩, ⟨?_, ?_, nodup_nil, ?_⟩, ?_⟩
  · intro slot row r found
    cases found
  · intro slot slot' row row' r found
    cases found
  · intro r report found
    cases found
  · intro slot row found
    cases found
  · intro slot r mem
    cases mem
  · intro id job found
    cases found
  · intro o mem
    cases mem

theorem reached_inv (events : List Event) : Inv (reached host events) := (inv_initial.run events).1

theorem reached_stays (events later : List Event) :
    Stays (reached host events).db (reached host (events ++ later)).db := by
  unfold reached
  rw [foldl_append]
  exact ((reached_inv events).run later).2

/-! ## Superseded owners -/

theorem superseded_lock {db db' : Db} {o : OwnedReportOccurrence} {row row' : OccurrenceRow}
    (found : db.occurrences.get o.occurrence.slot = some row) (later : o.fencingToken < row.fencingToken) :
    lock o db ≠ .ok (row', db') := by
  intro locked
  obtain ⟨found', token⟩ := lock_found locked
  obtain rfl := some.inj (found.symm.trans found')
  omega

theorem refused_unchanged {α : Type} {db : Db} {o : OwnedReportOccurrence} {work : OccurrenceRow → Tx α}
    {commit : Commit} (refused : ∀ row db', lock o db ≠ .ok (row, db')) :
    (perform (owned o.jobId o.workerId o.fencingToken (lock o >>= work)) commit db).2 = db := by
  apply perform_keeps (P := (· = db)) rfl
  intro a s ran
  obtain ⟨row, locked, -⟩ := lock_silent.bind_ok (owned_ok ran)
  exact absurd locked (refused row db)

theorem superseded_call {db : Db} {o : OwnedReportOccurrence} {row : OccurrenceRow}
    (found : db.occurrences.get o.occurrence.slot = some row) (later : o.fencingToken < row.fencingToken) (call : Call)
    (commit : Commit) : call.run db o commit = db := by
  have refused : ∀ row' db', lock o db ≠ .ok (row', db') := fun _ _ => superseded_lock found later
  cases call with
  | savedReport => exact refused_unchanged refused
  | createReport data => exact refused_unchanged refused
  | updateReport id status content data => exact refused_unchanged refused
  | complete r => exact refused_unchanged refused
  | fail message => exact refused_unchanged refused

theorem superseded_claim {db : Db} {of : ReportOccurrence} {jobId workerId : String} {fencingToken : Nat}
    {row : OccurrenceRow} (found : db.occurrences.get of.slot = some row) (later : fencingToken < row.fencingToken)
    (commit : Commit) : (perform (claim of jobId workerId fencingToken) commit db).2 = db := by
  apply perform_keeps (P := (· = db)) rfl
  intro r s ran
  rcases claim_ok ran with ⟨same, -⟩ | ⟨row', found', token, -⟩
  · exact same
  · obtain rfl := some.inj (found.symm.trans found')
    omega

/-! ## One report and one round of notifications -/

/-- What holds of the occurrences, the reports and the queue, now and from now to a later time. -/
structure OneReport (now later : World) : Prop where
  /-- The report that an occurrence has staged stays the one. -/
  staged : ∀ slot row r, now.db.occurrences.get slot = some row → row.stagedReportId = some r →
    ∃ row', later.db.occurrences.get slot = some row' ∧ row'.stagedReportId = some r
  distinct : ∀ slot slot' row row' r, now.db.occurrences.get slot = some row →
    now.db.occurrences.get slot' = some row' → row.stagedReportId = some r → row'.stagedReportId = some r → slot = slot'
  immutable : ∀ r report, now.db.reports.get r = some report → report.status = .completed →
    later.db.reports.get r = some report
  frozen : ∀ slot row, now.db.occurrences.get slot = some row →
    ∃ row', later.db.occurrences.get slot = some row' ∧ row'.configSnapshot = row.configSnapshot
  final : ∀ slot row, now.db.occurrences.get slot = some row → row.state = .completed →
    later.db.occurrences.get slot = some row
  /-- A completion is committed once, for the staged report and with the notifications of all channels. -/
  once : (now.db.completions.map Prod.fst).Nodup
  kept : now.db.completions <+: later.db.completions
  completed : ∀ slot r, (slot, r) ∈ now.db.completions → Completed now.db slot r
  committed : ∀ slot row, now.db.occurrences.get slot = some row → row.state = .completed →
    ∃ r, (slot, r) ∈ now.db.completions
  /-- A notification that has been added since is one of a completion that has been committed since. -/
  notified : ∀ id job, later.db.store.jobs.get id = some job → notifies id job = true →
    now.db.store.jobs.get id = none →
    ∃ slot r, (slot, r) ∈ later.db.completions ∧ (slot, r) ∉ now.db.completions ∧ NotifiesOf later.db slot r id job
  /-- A completion that has been committed since has found none of its notifications. -/
  unnotified : ∀ slot r c, (slot, r) ∈ later.db.completions → (slot, r) ∉ now.db.completions →
    now.db.store.jobs.get (notificationJob r c).id = none
  /-- An owner whom another one with a greater token has followed changes nothing. -/
  fenced : ∀ o ∈ now.owned, ∀ o' ∈ now.owned, o.occurrence.slot = o'.occurrence.slot →
    o.fencingToken < o'.fencingToken → ∀ (call : Call) commit, call.run now.db o commit = now.db
  unclaimed : ∀ o' ∈ now.owned, ∀ (of : ReportOccurrence) jobId workerId fencingToken commit,
    of.slot = o'.occurrence.slot → fencingToken < o'.fencingToken →
    (perform (claim of jobId workerId fencingToken) commit now.db).2 = now.db

/-- In every run an occurrence has one report, which its completion fixes and announces once. -/
theorem one_report_each (events later : List Event) :
    OneReport (reached host events) (reached host (events ++ later)) := by
  have inv := @reached_inv host events
  have inv' := @reached_inv host (events ++ later)
  have stays := @reached_stays host events later
  refine
    { staged := fun slot row r found was => ?_
      distinct := inv.staging.single
      immutable := stays.report
      frozen := fun slot row found => ?_
      final := fun slot row found state => ?_
      once := inv.completions.once
      kept := stays.completions
      completed := inv.completions.completed
      committed := inv.completions.done
      notified := fun id job found kind absent => ?_
      unnotified := fun slot r c mem new => ?_
      fenced := fun o _ o' mem' same token call commit => ?_
      unclaimed := fun o' mem' of jobId workerId fencingToken commit same token => ?_ }
  · obtain ⟨row', found', -, -, staged, -⟩ := stays.occurrence slot row found
    exact ⟨row', found', staged r was⟩
  · obtain ⟨row', found', config, -⟩ := stays.occurrence slot row found
    exact ⟨row', found', config⟩
  · obtain ⟨row', found', -, -, -, same⟩ := stays.occurrence slot row found
    exact same state ▸ found'
  · obtain ⟨slot, r, mem, of⟩ := inv'.completions.notify id job found kind
    refine ⟨slot, r, mem, fun before => ?_, of⟩
    -- a completion that was there had all its notifications
    obtain ⟨row, report, there, -, -, -, -, -, all⟩ := inv.completions.completed slot r before
    obtain ⟨row', c, found', channel, rfl, -⟩ := of
    obtain ⟨row'', there', config, -⟩ := stays.occurrence slot row there
    obtain rfl := some.inj (found'.symm.trans there')
    obtain ⟨-, old, present, -⟩ := all c (config ▸ channel)
    rw [Int.toNat_natCast, absent] at present
    cases present
  · refine Option.eq_none_iff_forall_ne_some.mpr fun job there => new ?_
    obtain ⟨slot', r', mem', row, c', -, -, own, -⟩ := inv.completions.notify _ job there (notifies_of_id job)
    obtain ⟨rfl, -⟩ := id_inj own
    obtain ⟨row, -, found, -, -, staged, -⟩ := inv'.completions.completed slot r mem
    obtain ⟨row', -, found', -, -, staged', -⟩ := (inv.completions.completed slot' r mem').stays stays
    obtain rfl := inv'.staging.single slot slot' row row' r found found' staged staged'
    exact mem'
  · obtain ⟨row, found, -, reached⟩ := inv.owned o' mem'
    rw [← same] at found
    exact superseded_call found (token.trans_le reached) call commit
  · obtain ⟨row, found, -, reached⟩ := inv.owned o' mem'
    rw [← same] at found
    exact superseded_claim found (token.trans_le reached) commit

end Run

end Slide.ReportOccurrences
