import Slide.Bulk.QueueRun

/-!
# What a bulk job reports

An item that is stored as failed or cancelled has not been published, as long as no publication escapes the
worker that reports on it.
-/

namespace Slide.Bulk

open List

/-! ## Reports -/

/-- The outcomes that say that nothing has been published. -/
def ItemState.refused : ItemState → Bool
  | .failed | .cancelled => true
  | _ => false

theorem ItemState.settled_of_refused {s : ItemState} (refused : s.refused = true) : s.settled = true := by
  cases s with
  | failed | cancelled => rfl
  | _ => cases refused

/-- The publication of an item is committed. -/
def World.published (w : World) (id : String) (i : Nat) : Prop := ∃ a ∈ w.audits, a.item = some (id, i)

def Truthful (w : World) (id : String) (job : BulkJob) : Prop :=
  ∀ (i : Nat) item, job.items[i]? = some item → item.state.refused = true → ¬w.published id i

/-- What is stored, and what the holder of the lock has yet to store. -/
structure Truth (w : World) : Prop where
  rows : ∀ id job, w.job id = some job → Truthful w id job
  holder : ∀ p r, w.lock = some p → (w.workers p).run = some r → r.broken = false →
    Truthful w r.id r.job ∧ ∀ s ∈ r.due, Truthful w r.id s.snapshot

/-- An item is stored as refused, or will be by the holder of the lock. -/
def Refused (w : World) (id : String) (i : Nat) : Prop :=
  ∃ job item, job.items[i]? = some item ∧ item.state.refused = true ∧
    (w.job id = some job ∨ ∃ p r, w.lock = some p ∧ (w.workers p).run = some r ∧ r.broken = false ∧ r.id = id ∧
      (job = r.job ∨ ∃ s ∈ r.due, s.snapshot = job))

/-- A step lets no publication escape: the holder of the lock gives up no item whose publication is committed
while it does not know the revision, and a worker without the lock publishes no item that is refused. -/
def Observed (w : World) : Event → Prop
  | .fail p i _ => ∀ r item, (w.workers p).run = some r → w.lock = some p → r.broken = false →
    (w.workers p).stopping = false → Run.Phase.throws (r.phases i) = true → r.job.items[i]? = some item →
    item.revision = none → ¬w.published r.id i
  | .publish p i => ∀ r item, (w.workers p).run = some r → w.lock ≠ some p → r.phases i = .activating →
    r.job.items[i]? = some item → item.expectedRevision = some (w.revision item.resource) → ¬Refused w r.id i
  | _ => True

section Steps

variable {w w' : World} {p q : Nat} {r r' : Run} {host : Host} {id : String}

theorem Truth.congr (truth : Truth w) (audits : w'.audits = w.audits)
    (jobs : ∀ k job, w'.job k = some job → w.job k = some job)
    (runs : ∀ q r', w'.lock = some q → (w'.workers q).run = some r' → w.lock = some q ∧ (w.workers q).run = some r') :
    Truth w' := by
  have same : ∀ k job, Truthful w k job → Truthful w' k job := by
    intro k job told i item found refused published
    unfold World.published at published
    rw [audits] at published
    exact told i item found refused published
  refine ⟨fun k job there => same k job (truth.rows k job (jobs k job there)), fun q r' held run intact => ?_⟩
  obtain ⟨held', run'⟩ := runs q r' held run
  obtain ⟨memory, due⟩ := truth.holder q r' held' run' intact
  exact ⟨same _ _ memory, fun s mem => same _ _ (due s mem)⟩

theorem Truth.advance (truth : Truth w) (run : (w.workers p).run = some r) (id : r'.id = r.id)
    (broken : r'.broken = r.broken) (due : ∀ s ∈ r'.due, s ∈ r.due ∨ s.snapshot = r'.job)
    (refuses : w.lock = some p → r.broken = false → ∀ (j : Nat) item, r'.job.items[j]? = some item →
      item.state.refused = true → (∃ old, r.job.items[j]? = some old ∧ old.state.refused = true) ∨
        ¬w.published r.id j) : Truth (w.setRun p r') := by
  refine ⟨truth.rows, fun q s held run' intact => ?_⟩
  rw [run_setRun] at run'
  split_ifs at run' with same
  · cases run'
    subst same
    rw [broken] at intact
    obtain ⟨memory, each⟩ := truth.holder q r held run intact
    have told : Truthful w r.id r'.job := by
      intro j item found refused
      rcases refuses held intact j item found refused with ⟨old, there, was⟩ | unpublished
      · exact memory j old there was
      · exact unpublished
    rw [id]
    refine ⟨told, fun s mem => ?_⟩
    rcases due s mem with before | new
    · exact each s before
    · rw [new]
      exact told
  · exact truth.holder q s held run' intact

variable {i : Nat} {f : BulkItem → BulkItem}

theorem refused_setItem {stopping : Bool} (sound : r.Sound stopping)
    (active : (r.phases i).active = true) {j : Nat} {item : BulkItem}
    (found : (r.setItem i f).job.items[j]? = some item) (refused : item.state.refused = true) :
    (∃ old, r.job.items[j]? = some old ∧ old.state.refused = true) ∨
      j = i ∧ ∃ old, r.job.items[i]? = some old ∧ old.state.open = true ∧ item = f old := by
  rw [Run.setItem_get] at found
  split_ifs at found with same
  · obtain ⟨own, there, isOpen⟩ := sound.active i active
    rw [there] at found
    obtain rfl := some.inj found
    exact .inr ⟨same.symm, own, there, isOpen, rfl⟩
  · exact .inl ⟨item, found, refused⟩

theorem job_persist {phase : Phase} : (r.persist i phase).job = r.job ∧ (r.persist i phase).id = r.id ∧
    (r.persist i phase).broken = r.broken ∧ ∀ s ∈ (r.persist i phase).due, s ∈ r.due ∨ s.snapshot = r.job := by
  unfold Run.persist
  split_ifs with broken
  · exact ⟨rfl, rfl, rfl, fun s mem => .inl mem⟩
  · refine ⟨rfl, rfl, rfl, fun s mem => (mem_append.mp mem).imp_right fun new => ?_⟩
    rw [mem_singleton.mp new]

theorem Truth.turn {phase : Phase} (truth : Truth w) (inv : Inv w)
    (run : (w.workers p).run = some r) (active : (r.phases i).active = true)
    (mild : ∀ item, item.state.open = true → (f item).state.refused = false) :
    Truth (w.setRun p ((r.setItem i f).setPhase i phase)) := by
  refine truth.advance run rfl rfl (fun s mem => .inl mem) fun _ _ j item found refused => ?_
  rcases refused_setItem (inv.runs p r run).sound active found refused with old | ⟨-, own, -, isOpen, rfl⟩
  · exact .inl old
  · rw [mild own isOpen] at refused
    cases refused

theorem Truth.persist {phase : Phase} (truth : Truth w) (inv : Inv w)
    (run : (w.workers p).run = some r) (active : (r.phases i).active = true)
    (mild : w.lock = some p → r.broken = false → ∀ item, r.job.items[i]? = some item → item.state.open = true →
      (f item).state.refused = true → ¬w.published r.id i) :
    Truth (w.setRun p ((r.setItem i f).persist i phase)) := by
  obtain ⟨job, id, broken, due⟩ := @job_persist (r.setItem i f) i phase
  refine truth.advance run id broken (fun s mem => job ▸ due s mem) fun held intact j item found refused => ?_
  rw [job] at found
  rcases refused_setItem (inv.runs p r run).sound active found refused with old | ⟨rfl, own, there, isOpen, rfl⟩
  · exact .inl old
  · exact .inr (mild held intact own there isOpen refused)

theorem not_refused_of_open {s : ItemState} (isOpen : s.open = true) : s.refused = false := by
  cases s with
  | queued | running => rfl
  | _ => cases isOpen

theorem truth_self (truth : Truth w) (run : (w.workers p).run = some r) (same : r' = r) : Truth (w.setRun p r') := by
  rw [same, setRun_self run]
  exact truth

theorem Truth.take (truth : Truth w) (run : (w.workers p).run = some r) : Truth (w.setRun p r.take) := by
  have same : r.take.job = r.job ∧ r.take.id = r.id ∧ r.take.broken = r.broken ∧ r.take.due = r.due := by
    unfold Run.take
    cases r.job.items[r.cursor]? with
    | none => exact ⟨rfl, rfl, rfl, rfl⟩
    | some item =>
      simp only
      split_ifs <;> exact ⟨rfl, rfl, rfl, rfl⟩
  obtain ⟨job, id, broken, due⟩ := same
  exact truth.advance run id broken (fun s mem => .inl (due ▸ mem)) fun _ _ j item found refused =>
    .inl ⟨item, job ▸ found, refused⟩

theorem Truth.reconcile (truth : Truth w) (inv : Inv w) (run : (w.workers p).run = some r) (i : Nat)
    (found : Option Nat) : Truth (w.setRun p (r.reconcile i found)) := by
  unfold Run.reconcile
  split_ifs with at_i
  · have active : (r.phases i).active = true := by rw [at_i]; rfl
    cases found with
    | none => exact truth.advance run rfl rfl (fun s mem => .inl mem) fun _ _ j item found refused => .inl ⟨item, found, refused⟩
    | some revision => exact truth.turn inv run active fun item isOpen => not_refused_of_open isOpen
  · exact truth_self truth run rfl

theorem Truth.check (truth : Truth w) (inv : Inv w) (run : (w.workers p).run = some r) (i : Nat) :
    Truth (w.setRun p (r.check i)) := by
  unfold Run.check
  split_ifs with at_i
  · exact truth.persist inv run (by rw [at_i]; rfl) fun _ _ _ _ _ refused => (nomatch refused)
  · exact truth_self truth run rfl

theorem Truth.acknowledge (truth : Truth w) (inv : Inv w) (run : (w.workers p).run = some r) (i : Nat) :
    Truth (w.setRun p (r.acknowledge i)) := by
  unfold Run.acknowledge
  cases at_i : r.phases i with
  | committed revision => exact truth.turn inv run (by rw [at_i]; rfl) fun item isOpen => not_refused_of_open isOpen
  | _ => exact truth_self truth run rfl

theorem Truth.conclude (truth : Truth w) (inv : Inv w) (run : (w.workers p).run = some r) (i : Nat) (s : Status) :
    Truth (w.setRun p (r.conclude i s)) := by
  unfold Run.conclude
  split_ifs with at_i
  · refine truth.persist inv run (by rw [at_i]; rfl) fun _ _ item _ _ refused => ?_
    rcases Run.verdict_settled item.revision s with h | h
    · rw [h] at refused
      cases refused
    · rw [h] at refused
      cases refused
  · exact truth_self truth run rfl

theorem Truth.fail {code : String} (truth : Truth w) (inv : Inv w) (run : (w.workers p).run = some r)
    (observed : Observed w (.fail p i code)) : Truth (w.setRun p (r.fail i (w.workers p).stopping code)) := by
  unfold Run.fail
  split_ifs with throws
  · refine truth.persist inv run (Run.throws_active throws) fun held intact item there _ refused => ?_
    rcases @Run.failure_state (w.workers p).stopping code item with ⟨-, h⟩ | ⟨unknown, ⟨-, h⟩ | ⟨going, -⟩⟩
    · rw [h] at refused
      cases refused
    · rw [h] at refused
      cases refused
    · exact observed r item run held intact going throws there unknown
  · exact truth_self truth run rfl

theorem Truth.close (truth : Truth w) (run : (w.workers p).run = some r) (cancelled : Bool) :
    Truth (w.setRun p (r.close cancelled)) := by
  refine truth.advance run rfl rfl (fun s mem => (mem_append.mp mem).imp_right fun new => ?_)
    fun _ _ j item found refused => .inl ⟨item, found, refused⟩
  rw [mem_singleton.mp new]
  rfl

theorem Truth.rewrite {new : BulkJob} (truth : Truth w) (told : Truthful w id new) :
    Truth { w with jobs := w.jobs.save id new } := by
  refine ⟨fun k job there => ?_, truth.holder⟩
  replace there := Jobs.get_save.symm.trans there
  split_ifs at there with same
  · obtain ⟨-, -, rfl⟩ := Option.map_eq_some_iff.mp there
    exact same ▸ told
  · exact truth.rows k job there

theorem Truth.store (truth : Truth w) (inv : Inv w) (run : (w.workers p).run = some r) {s : Save} {rest : List Save}
    (due : r.due = s :: rest) (held : w.lock = some p) :
    Truth (World.setRun { w with jobs := w.jobs.save r.id s.snapshot } p (r.saved rest s.awaiting)) := by
  have ok := inv.runs p r run
  have intact : r.broken = false := by
    refine Bool.eq_false_iff.mpr fun broken => ?_
    rw [ok.sound.broken broken] at due
    cases due
  obtain ⟨-, ofId, ofJob, ofDue, ofBroken, -⟩ := Run.saved_sound ok.sound due
  have told := (truth.holder p r held run intact).2 s (due ▸ mem_cons_self)
  exact (truth.rewrite told).advance run ofId ofBroken
    (fun e mem => .inl (due ▸ mem_cons_of_mem s (ofDue ▸ mem)))
    fun _ _ j item found refused => .inl ⟨item, ofJob ▸ found, refused⟩

theorem Truth.confirm (truth : Truth w) (inv : Inv w) {job : BulkJob} (held : w.controls id = some job) :
    Truth { w with jobs := w.jobs.save id job.confirmed, controls := Function.update w.controls id none } := by
  have told : Truthful w id job.confirmed := by
    intro i item found refused
    rw [confirmed_get] at found
    obtain ⟨old, there, rfl⟩ := Option.map_eq_some_iff.mp found
    split_ifs at refused with eligible
    · cases refused
    · exact truth.rows id job (inv.controls id job held).2 i old there refused
  exact (truth.rewrite told).congr rfl (fun _ _ there => there) fun _ _ held run => ⟨held, run⟩

theorem Truth.create {job : BulkJob} (truth : Truth w) (inv : Inv w) (absent : w.job id = none) :
    Truth { w with jobs := w.jobs.put id ⟨job, false⟩ } := by
  refine ⟨fun k other there => ?_, truth.holder⟩
  rw [job_put] at there
  split_ifs at there with same
  · subst same
    rintro i item - - ⟨a, mem, own⟩
    obtain ⟨before, -, -, present, -⟩ := inv.rows.audits a mem k i own
    rw [absent] at present
    cases present
  · exact truth.rows k other there

theorem Truth.preview (truth : Truth w) (inv : Inv w) (host : Host) (owner : Nat) (input : BulkInput)
    (assess : String → Assessment) (retryOf : Option String) :
    Truth (w.preview host owner id input assess retryOf) := by
  unfold World.preview
  simp only
  rcases @Jobs.create_cases w.jobs id (draft host owner w.now input assess retryOf) w.now with
    refused | ⟨id', saved, -, -, -, -, answered⟩ | ⟨absent, -, made⟩
  · rw [refused]
    exact truth.congr rfl (fun _ _ there => there) fun _ _ held run => ⟨held, run⟩
  · rw [answered]
    exact truth.congr rfl (fun _ _ there => there) fun _ _ held run => ⟨held, run⟩
  · rw [made]
    have absent' : w.job id = none := congrArg (Option.map Row.payload) absent
    exact (truth.create inv absent').congr rfl (fun _ _ there => there) fun _ _ held run => ⟨held, run⟩

theorem published_append {a : Audit} (published : World.published { w with audits := w.audits ++ [a] } id i) :
    w.published id i ∨ a.item = some (id, i) := by
  obtain ⟨b, mem, own⟩ := published
  rcases mem_append.mp mem with before | new
  · exact .inl ⟨b, before, own⟩
  · exact .inr (mem_singleton.mp new ▸ own)

theorem Truth.audit {a : Audit} {revisions : Table String Nat} (truth : Truth w)
    (unrefused : ∀ k i, a.item = some (k, i) → ¬Refused w k i) :
    Truth { w with revisions, audits := w.audits ++ [a] } := by
  refine ⟨fun k job there i item found refused published => ?_, fun q r held run intact => ⟨?_, ?_⟩⟩
  · rcases published_append published with before | new
    · exact truth.rows k job there i item found refused before
    · exact unrefused k i new ⟨job, item, found, refused, .inl there⟩
  · intro i item found refused published
    rcases published_append published with before | new
    · exact (truth.holder q r held run intact).1 i item found refused before
    · exact unrefused _ i new ⟨r.job, item, found, refused, .inr ⟨q, r, held, run, intact, rfl, .inl rfl⟩⟩
  · intro s mem i item found refused published
    rcases published_append published with before | new
    · exact (truth.holder q r held run intact).2 s mem i item found refused before
    · exact unrefused _ i new
        ⟨s.snapshot, item, found, refused, .inr ⟨q, r, held, run, intact, rfl, .inr ⟨s, mem, rfl⟩⟩⟩

theorem active_unrefused (inv : Inv w) (run : (w.workers p).run = some r) (held : w.lock = some p)
    (active : (r.phases i).active = true) : ¬Refused w r.id i := by
  rintro ⟨job, item, found, refused, place⟩
  have ok := inv.runs p r run
  obtain ⟨own, there, isOpen⟩ := ok.sound.active i active
  obtain ⟨stored, present, -, -, -⟩ := ok.row
  obtain ⟨chained, -⟩ := ok.holder held stored present
  have ahead : Keeps job r.job := by
    rcases place with row | ⟨q, s, held', run', -, -, same | ⟨e, mem, same⟩⟩
    · obtain rfl := some.inj (present.symm.trans row)
      exact chained.ends
    · obtain rfl := some.inj (held.symm.trans held')
      obtain rfl := some.inj (run.symm.trans run')
      exact same ▸ refl_of Keeps r.job
    · obtain rfl := some.inj (held.symm.trans held')
      obtain rfl := some.inj (run.symm.trans run')
      exact same ▸ chained.before (mem_map_of_mem mem)
  have unsettled := ahead.not_settled found there isOpen
  rw [ItemState.settled_of_refused refused] at unsettled
  cases unsettled

theorem Truth.publish (truth : Truth w) (inv : Inv w) (run : (w.workers p).run = some r)
    (observed : Observed w (.publish p i)) : Truth (w.publish p r i) := by
  rcases publish_cases w p r i with same | ⟨item, found, phase, expects, after⟩
  · rw [same]
    exact truth
  · rw [after]
    have active : (r.phases i).active = true := by rw [phase]; rfl
    have unrefused : ¬Refused w r.id i := by
      by_cases held : w.lock = some p
      · exact active_unrefused inv run held active
      · exact observed r item run held phase found expects
    refine (truth.audit fun k j own => ?_).advance run rfl rfl (fun s mem => .inl mem)
      fun _ _ j item found refused => .inl ⟨item, found, refused⟩
    cases own
    exact unrefused

theorem Truth.lose (truth : Truth w) : Truth (w.setRun p r.saveFailed) := by
  refine ⟨truth.rows, fun q s held run' intact => ?_⟩
  rw [run_setRun] at run'
  split_ifs at run' with same
  · cases run'
    cases intact
  · exact truth.holder q s held run' intact

theorem Truth.load {job : BulkJob} (truth : Truth w) (there : w.job id = some job) :
    Truth (w.setRun p (.start id job)) := by
  refine ⟨truth.rows, fun q s held run intact => ?_⟩
  rw [run_setRun] at run
  split_ifs at run with same
  · cases run
    refine ⟨truth.rows id job there, fun e mem => ?_⟩
    rw [mem_singleton.mp mem]
    exact truth.rows id job there
  · exact truth.holder q s held run intact

theorem Truth.vacate {worker : Worker} {lock : Option Nat} (truth : Truth w) (none : worker.run = none)
    (others : ∀ q, q ≠ p → lock = some q → w.lock = some q) :
    Truth { w with lock, workers := Function.update w.workers p worker } := by
  refine truth.congr rfl (fun _ _ there => there) fun q s held run => ?_
  simp only [Function.update_apply] at run
  split_ifs at run with same
  · rw [none] at run
    cases run
  · exact ⟨others q same held, run⟩

theorem Truth.unlock (truth : Truth w) (p : Nat) : Truth (w.unlock p) := by
  unfold World.unlock
  split_ifs
  · exact truth.congr rfl (fun _ _ there => there) fun _ _ held => (nomatch held)
  · exact truth

theorem Truth.stop (truth : Truth w) (p : Nat) : Truth (w.setWorker p { w.workers p with stopping := true }) := by
  refine truth.congr rfl (fun _ _ there => there) fun q s held run => ⟨held, ?_⟩
  unfold World.setWorker at run
  simp only [Function.update_apply] at run
  split_ifs at run with same
  · exact same ▸ run
  · exact run

theorem Truth.step {event : Event} (truth : Truth w) (inv : Inv w) (observed : Observed w event) :
    Truth (w.step host event) := by
  cases event with
  | tick ms => exact truth.congr rfl (fun _ _ there => there) fun _ _ held run => ⟨held, run⟩
  | preview owner id input assess => exact truth.preview inv host owner input assess none
  | retry owner job key id assess =>
    simp only [World.step]
    cases w.jobs.get job with
    | none => exact truth
    | some row =>
      simp only
      split_ifs
      · exact truth.preview inv host owner _ assess (some job)
      · exact truth
  | confirmRead owner id digest =>
    simp only [World.step]
    cases w.jobs.get id with
    | none => exact truth
    | some row =>
      simp only
      split_ifs
      · exact truth.congr rfl (fun _ _ there => there) fun _ _ held run => ⟨held, run⟩
      · exact truth
  | confirmSave id =>
    simp only [World.step]
    cases held : w.controls id with
    | none => exact truth
    | some job => exact truth.confirm inv held
  | confirmDrop id => exact truth.congr rfl (fun _ _ there => there) fun _ _ held run => ⟨held, run⟩
  | cancel owner id =>
    simp only [World.step]
    split_ifs
    · exact truth.congr rfl (fun k job there => Jobs.get_cancel.symm.trans there) fun _ _ held run => ⟨held, run⟩
    · exact truth
  | publication target request => exact truth.audit fun _ _ own => by cases own
  | acquire p =>
    simp only [World.step]
    split_ifs
    · exact truth.vacate rfl fun q other held => absurd (some.inj held).symm other
    · exact truth
  | load p id =>
    simp only [World.step]
    cases there : w.jobs.get id with
    | none => exact truth
    | some row =>
      simp only
      split_ifs
      · exact truth.load (congrArg (Option.map Row.payload) there)
      · exact truth
  | save p ok =>
    refine ofRun_cases truth fun r run => ?_
    cases due : r.due with
    | nil => exact truth
    | cons s rest =>
      simp only
      split_ifs with held
      · exact truth.store inv run due held.2
      · exact truth.lose
  | take p => exact ofRun_cases truth fun r run => truth.take run
  | reconcile p i => exact ofRun_cases truth fun r run => truth.reconcile inv run i _
  | check p i =>
    refine ofRun_cases truth fun r run => ?_
    split_ifs
    · exact truth.check inv run i
    · exact truth
  | publish p i => exact ofRun_cases truth fun r run => truth.publish inv run observed
  | acknowledge p i => exact ofRun_cases truth fun r run => truth.acknowledge inv run i
  | conclude p i status => exact ofRun_cases truth fun r run => truth.conclude inv run i status
  | fail p i code =>
    refine ofRun_cases truth fun r run => ?_
    split_ifs
    · exact truth.fail inv run observed
    · exact truth
  | close p =>
    refine ofRun_cases truth fun r run => ?_
    split_ifs
    · exact truth.close run _
    · exact truth
  | leave p =>
    simp only [World.step]
    split_ifs
    · exact (truth.vacate rfl fun q _ held => held).unlock p
    · exact truth
  | disconnect p => exact truth.unlock p
  | stop p => exact truth.stop p
  | crash p => exact (truth.vacate rfl fun q _ held => held).unlock p

end Steps

end Slide.Bulk
