import Slide.Bulk.Outcomes

/-!
# What the bulk queue promises

Outcomes stay once they are stored, what has one is not executed again, and a job that is over has one for every
item.  Together with the reports of `Slide.Bulk.Outcomes` this is what an owner may rely on; only the reports need
that no publication escapes.
-/

namespace Slide.Bulk

/-! ## What stays stored -/

/-- The process that an event is a step of. -/
def Event.process : Event → Option Nat
  | .acquire p | .load p _ | .save p _ | .take p | .reconcile p _ | .check p _ | .publish p _ | .acknowledge p _
  | .conclude p _ _ | .fail p _ _ | .close p | .leave p | .disconnect p | .stop p | .crash p => some p
  | _ => none

section Stored

variable {w : World} {p : Nat} {r : Run} {host : Host} {id : String}

theorem jobs_unlock : (w.unlock p).jobs = w.jobs := by
  unfold World.unlock
  split_ifs <;> rfl

theorem worker_jobs {event : Event} (process : event.process = some p) :
    (∃ ok, event = .save p ok) ∨ (w.step host event).jobs = w.jobs := by
  have ofRun : ∀ f : Run → World, (∀ r, (f r).jobs = w.jobs) → (w.ofRun p f).jobs = w.jobs := fun f same =>
    @ofRun_cases w p f (fun v => v.jobs = w.jobs) rfl fun r _ => same r
  cases event with
  | save q ok =>
    cases process
    exact .inl ⟨ok, rfl⟩
  | acquire q =>
    right
    simp only [World.step]
    split_ifs <;> rfl
  | load q id =>
    right
    simp only [World.step]
    cases w.jobs.get id with
    | none => rfl
    | some row =>
      simp only
      split_ifs <;> rfl
  | check q i =>
    cases process
    refine .inr (ofRun _ fun r => ?_)
    split_ifs <;> rfl
  | fail q i code =>
    cases process
    refine .inr (ofRun _ fun r => ?_)
    split_ifs <;> rfl
  | close q =>
    cases process
    refine .inr (ofRun _ fun r => ?_)
    split_ifs <;> rfl
  | publish q i =>
    cases process
    refine .inr (ofRun _ fun r => ?_)
    rcases publish_cases w p r i with same | ⟨item, -, -, -, after⟩
    · rw [same]
    · rw [after]
      rfl
  | take | reconcile | acknowledge | conclude =>
    cases process
    exact .inr (ofRun _ fun r => rfl)
  | leave q =>
    right
    simp only [World.step]
    split_ifs
    · exact jobs_unlock
    · rfl
  | disconnect q => exact .inr jobs_unlock
  | stop q => exact .inr rfl
  | crash q => exact .inr jobs_unlock
  | _ => cases process

theorem replaced_stores_nothing {event : Event} (process : event.process = some p) (lost : w.lock ≠ some p) :
    (w.step host event).jobs = w.jobs := by
  rcases @worker_jobs w p host event process with ⟨ok, rfl⟩ | same
  · refine @ofRun_cases w p _ (fun v => v.jobs = w.jobs) rfl fun r _ => ?_
    cases r.due with
    | nil => rfl
    | cons s rest =>
      simp only
      rw [if_neg fun both => lost both.2]
      rfl
  · exact same

theorem stored_keeps {event : Event} (inv : Inv w) {job : BulkJob} (there : w.job id = some job) :
    ∃ job', (w.step host event).job id = some job' ∧ Keeps job job' := by
  have unchanged : (w.step host event).jobs = w.jobs → ∃ job', (w.step host event).job id = some job' ∧ Keeps job job' := by
    intro same
    refine ⟨job, ?_, refl_of Keeps job⟩
    unfold World.job
    rw [same]
    exact there
  have replaced : ∀ k old new, w.job k = some old → Keeps old new →
      ∃ job', ((w.jobs.save k new).get id).map (·.payload) = some job' ∧ Keeps job job' := by
    intro k old new was keeps
    have read := (@job_save w k old new was id)
    by_cases same : id = k
    · rw [if_pos same] at read
      obtain rfl := some.inj (was.symm.trans (same ▸ there))
      exact ⟨new, read, keeps⟩
    · rw [if_neg same] at read
      exact ⟨job, read.trans there, refl_of Keeps job⟩
  have previewed : ∀ owner new input assess retryOf,
      ∃ job', (w.preview host owner new input assess retryOf).job id = some job' ∧ Keeps job job' := by
    intro owner new input assess retryOf
    refine ⟨job, ?_, refl_of Keeps job⟩
    unfold World.preview
    simp only
    rcases @Jobs.create_cases w.jobs new (draft host owner w.now input assess retryOf) w.now with
      refused | ⟨id', saved, -, -, -, -, answered⟩ | ⟨absent, -, made⟩
    · rw [refused]
      exact there
    · rw [answered]
      exact there
    · rw [made]
      refine (@job_put w new _ id).trans ((if_neg ?_).trans there)
      rintro rfl
      unfold World.job at there
      rw [absent] at there
      cases there
  cases process : event.process with
  | none =>
    cases event with
    | tick | confirmDrop | publication => exact unchanged rfl
    | preview owner new input assess => exact previewed owner new input assess none
    | retry owner old key new assess =>
      simp only [World.step]
      cases w.jobs.get old with
      | none => exact ⟨job, there, refl_of Keeps job⟩
      | some row =>
        simp only
        split_ifs
        · exact previewed owner new _ assess (some old)
        · exact ⟨job, there, refl_of Keeps job⟩
    | confirmRead owner k digest =>
      simp only [World.step]
      cases w.jobs.get k with
      | none => exact ⟨job, there, refl_of Keeps job⟩
      | some row =>
        simp only
        split_ifs
        · exact ⟨job, there, refl_of Keeps job⟩
        · exact ⟨job, there, refl_of Keeps job⟩
    | confirmSave k =>
      simp only [World.step]
      cases held : w.controls k with
      | none => exact ⟨job, there, refl_of Keeps job⟩
      | some copy =>
        obtain ⟨-, was⟩ := inv.controls k copy held
        exact replaced k copy copy.confirmed was (confirmed_keeps copy)
    | cancel owner k =>
      simp only [World.step]
      split_ifs
      · exact ⟨job, Jobs.get_cancel.trans there, refl_of Keeps job⟩
      · exact ⟨job, there, refl_of Keeps job⟩
    | _ => cases process
  | some p =>
    rcases @worker_jobs w p host event process with ⟨ok, rfl⟩ | same
    · refine @ofRun_cases w p _ (fun v => ∃ job', v.job id = some job' ∧ Keeps job job') ⟨job, there, refl_of Keeps job⟩
        fun r run => ?_
      cases due : r.due with
      | nil => exact ⟨job, there, refl_of Keeps job⟩
      | cons s rest =>
        simp only
        split_ifs with held
        · have ok := inv.runs p r run
          obtain ⟨stored, was, -, -, -⟩ := ok.row
          obtain ⟨chained, -⟩ := ok.holder held.2 stored was
          rw [due, List.map_cons] at chained
          exact replaced r.id stored s.snapshot was (chained.after List.mem_cons_self)
        · exact ⟨job, there, refl_of Keeps job⟩
    · exact unchanged same

/-! ## Executions -/

theorem activating_setPhase {i j : Nat} {phase : Phase} (at_j : (r.setPhase i phase).phases j = .activating) :
    phase = .activating ∨ r.phases j = .activating := by
  rw [Run.setPhase_phases] at at_j
  split_ifs at at_j
  · exact .inl at_j
  · exact .inr at_j

theorem activating_persist {i j : Nat} {phase : Phase} (at_j : (r.persist i phase).phases j = .activating) :
    phase = .activating ∨ r.phases j = .activating := by
  unfold Run.persist at at_j
  split_ifs at at_j
  · exact .inr ((activating_setPhase at_j).resolve_left fun same => by cases same)
  · exact activating_setPhase at_j

theorem activating_step {i j : Nat} :
    (r.take.phases j = .activating → r.phases j = .activating) ∧
    (∀ found, (r.reconcile i found).phases j = .activating → r.phases j = .activating) ∧
    ((r.check i).phases j = .activating → r.phases j = .activating) ∧
    (∀ revision, (r.publish i revision).phases j = .activating → r.phases j = .activating) ∧
    ((r.acknowledge i).phases j = .activating → r.phases j = .activating) ∧
    (∀ s, (r.conclude i s).phases j = .activating → r.phases j = .activating) ∧
    ∀ stopping code, (r.fail i stopping code).phases j = .activating → r.phases j = .activating := by
  refine ⟨fun at_j => ?_, fun found at_j => ?_, fun at_j => ?_, fun revision at_j => ?_, fun at_j => ?_,
    fun s at_j => ?_, fun stopping code at_j => ?_⟩
  · unfold Run.take at at_j
    cases found : r.job.items[r.cursor]? with
    | none =>
      rw [found] at at_j
      exact at_j
    | some item =>
      rw [found] at at_j
      simp only at at_j
      split_ifs at at_j
      · exact (activating_setPhase at_j).resolve_left fun same => by cases same
      · exact (activating_setPhase at_j).resolve_left fun same => by cases same
      · exact at_j
  · unfold Run.reconcile at at_j
    split_ifs at at_j
    · cases found with
      | none => exact (activating_setPhase at_j).resolve_left fun same => by cases same
      | some revision =>
        exact (activating_setPhase at_j).resolve_left fun same => by cases same
    · exact at_j
  · unfold Run.check at at_j
    split_ifs at at_j
    · exact (activating_persist at_j).resolve_left fun same => by cases same
    · exact at_j
  · exact (activating_setPhase at_j).resolve_left fun same => by cases same
  · unfold Run.acknowledge at at_j
    cases at_i : r.phases i with
    | committed revision =>
      rw [at_i] at at_j
      exact (activating_setPhase at_j).resolve_left fun same => by cases same
    | _ =>
      rw [at_i] at at_j
      exact at_j
  · unfold Run.conclude at at_j
    split_ifs at at_j
    · exact (activating_persist at_j).resolve_left fun same => by cases same
    · exact at_j
  · unfold Run.fail at at_j
    split_ifs at at_j
    · exact (activating_persist at_j).resolve_left fun same => by cases same
    · exact at_j

theorem saved_activating {s : Save} {rest : List Save} {j : Nat}
    (at_j : (r.saved rest s.awaiting).phases j = .activating) :
    r.phases j = .activating ∨ r.phases j = .starting := by
  unfold Run.saved at at_j
  cases awaiting : s.awaiting with
  | none =>
    rw [awaiting] at at_j
    exact .inl at_j
  | some i =>
    rw [awaiting] at at_j
    simp only at at_j
    cases at_i : r.phases i with
    | starting =>
      rw [at_i] at at_j
      simp only [Run.setPhase_phases] at at_j
      split_ifs at at_j with same
      · exact .inr (same ▸ at_i)
      · exact .inl at_j
    | persisting =>
      rw [at_i] at at_j
      exact .inl ((activating_setPhase at_j).resolve_left fun same => by cases same)
    | _ =>
      rw [at_i] at at_j
      exact .inl at_j

/-- An execution that is going on was going on, or the item is stored as one that is not settled. -/
def Executes (w v : World) : Prop :=
  ∀ p r', (v.workers p).run = some r' → ∀ i, r'.phases i = .activating →
    (∃ r, (w.workers p).run = some r ∧ r.id = r'.id ∧ r.phases i = .activating) ∨
      ∀ job item, w.job r'.id = some job → job.items[i]? = some item → item.state.settled = false

theorem executes_self {v : World} (workers : v.workers = w.workers) : Executes w v := by
  intro p r' run i at_i
  rw [workers] at run
  exact .inl ⟨r', run, rfl, at_i⟩

theorem executes_setRun {v : World} {r' : Run} (workers : v.workers = w.workers) (run : (w.workers p).run = some r)
    (id : r'.id = r.id) (same : ∀ i, r'.phases i = .activating → r.phases i = .activating ∨
      ∀ job item, w.job r'.id = some job → job.items[i]? = some item → item.state.settled = false) :
    Executes w (v.setRun p r') := by
  intro q s run' i at_i
  rw [run_setRun, workers] at run'
  split_ifs at run' with equal
  · cases run'
    rcases same i at_i with before | stored
    · exact .inl ⟨r, equal ▸ run, id.symm, before⟩
    · exact .inr stored
  · exact .inl ⟨s, run', rfl, at_i⟩

theorem executes_update {v : World} {worker : Worker} (workers : v.workers = Function.update w.workers p worker)
    (same : ∀ r, worker.run = some r → (w.workers p).run = some r) : Executes w v := by
  intro q s run i at_i
  rw [workers] at run
  simp only [Function.update_apply] at run
  split_ifs at run with equal
  · exact .inl ⟨s, equal ▸ same s run, rfl, at_i⟩
  · exact .inl ⟨s, run, rfl, at_i⟩

theorem executes_unlock {v : World} (executes : Executes w v) (p : Nat) : Executes w (v.unlock p) := by
  unfold World.unlock
  split_ifs <;> exact executes

theorem executes_save (inv : Inv w) (run : (w.workers p).run = some r) {s : Save} {rest : List Save}
    (due : r.due = s :: rest) (held : w.lock = some p) :
    Executes w (World.setRun { w with jobs := w.jobs.save r.id s.snapshot } p (r.saved rest s.awaiting)) := by
  have ok := inv.runs p r run
  obtain ⟨-, ofId, -, -, -, -⟩ := Run.saved_sound ok.sound due
  refine executes_setRun rfl run ofId fun i at_i => ?_
  rcases saved_activating at_i with going | starting
  · exact .inl going
  · right
    intro job item there found
    rw [ofId] at there
    obtain ⟨own, present, isOpen⟩ := ok.sound.active i (by rw [starting]; rfl)
    exact (ok.holder held job there).1.ends.not_settled found present isOpen

theorem executes_step (inv : Inv w) (event : Event) : Executes w (w.step host event) := by
  have ofRun : ∀ (p : Nat) (f : Run → World), (∀ r, (w.workers p).run = some r → Executes w (f r)) →
      Executes w (w.ofRun p f) := fun p f each => ofRun_cases (executes_self rfl) each
  have moves : ∀ (p : Nat) (r r' : Run), (w.workers p).run = some r → r'.id = r.id →
      (∀ i, r'.phases i = .activating → r.phases i = .activating) → Executes w (w.setRun p r') :=
    fun p r r' run id same => executes_setRun rfl run id fun i at_i => .inl (same i at_i)
  cases event with
  | tick | preview | confirmDrop | publication => exact executes_self rfl
  | retry owner job key id assess =>
    simp only [World.step]
    cases w.jobs.get job with
    | none => exact executes_self rfl
    | some row =>
      simp only
      split_ifs <;> exact executes_self rfl
  | confirmRead owner id digest =>
    simp only [World.step]
    cases w.jobs.get id with
    | none => exact executes_self rfl
    | some row =>
      simp only
      split_ifs <;> exact executes_self rfl
  | confirmSave id =>
    simp only [World.step]
    cases w.controls id <;> exact executes_self rfl
  | cancel owner id =>
    simp only [World.step]
    split_ifs <;> exact executes_self rfl
  | acquire p =>
    simp only [World.step]
    split_ifs
    · exact executes_update rfl fun _ run => by cases run
    · exact executes_self rfl
  | load p id =>
    simp only [World.step]
    cases there : w.jobs.get id with
    | none => exact executes_self rfl
    | some row =>
      simp only
      split_ifs
      · intro q s run i at_i
        rw [run_setRun] at run
        split_ifs at run
        · cases run
          cases at_i
        · exact .inl ⟨s, run, rfl, at_i⟩
      · exact executes_self rfl
  | save p ok =>
    refine ofRun p _ fun r run => ?_
    cases due : r.due with
    | nil => exact executes_self rfl
    | cons s rest =>
      simp only
      split_ifs with held
      · exact executes_save inv run due held.2
      · exact moves p r _ run rfl fun i at_i => Run.saveFailed_phase i at_i fun same => by cases same
  | take p =>
    refine ofRun p _ fun r run => moves p r _ run ?_ fun i => (@activating_step r i i).1
    exact (Run.take_sound (inv.runs p r run).sound).2.id
  | reconcile p i =>
    refine ofRun p _ fun r run => moves p r _ run ?_ fun j => (@activating_step r i j).2.1 _
    exact (Run.reconcile_sound (inv.runs p r run).sound _).2.id
  | check p i =>
    refine ofRun p _ fun r run => ?_
    split_ifs
    · exact moves p r _ run (Run.check_sound (inv.runs p r run).sound).2.id fun j => (@activating_step r i j).2.2.1
    · exact executes_self rfl
  | publish p i =>
    refine ofRun p _ fun r run => ?_
    rcases publish_cases w p r i with same | ⟨item, -, -, -, after⟩
    · rw [same]
      exact executes_self rfl
    · rw [after]
      exact executes_setRun rfl run rfl fun j at_j => .inl ((@activating_step r i j).2.2.2.1 _ at_j)
  | acknowledge p i =>
    refine ofRun p _ fun r run => moves p r _ run ?_ fun j => (@activating_step r i j).2.2.2.2.1
    exact (Run.acknowledge_sound (inv.runs p r run).sound).2.id
  | conclude p i status =>
    refine ofRun p _ fun r run => moves p r _ run ?_ fun j => (@activating_step r i j).2.2.2.2.2.1 status
    exact (Run.conclude_sound (inv.runs p r run).sound status).2.id
  | fail p i code =>
    refine ofRun p _ fun r run => ?_
    split_ifs
    · exact moves p r _ run (Run.fail_sound (inv.runs p r run).sound code).2.id
        fun j => (@activating_step r i j).2.2.2.2.2.2 _ code
    · exact executes_self rfl
  | close p =>
    refine ofRun p _ fun r run => ?_
    split_ifs
    · exact moves p r _ run rfl fun i at_i => at_i
    · exact executes_self rfl
  | leave p =>
    simp only [World.step]
    split_ifs
    · exact executes_unlock (executes_update rfl fun _ run => absurd run (Option.some_ne_none _).symm) p
    · exact executes_self rfl
  | disconnect p => exact executes_unlock (executes_self rfl) p
  | stop p => exact executes_update rfl fun _ run => run
  | crash p => exact executes_unlock (executes_update rfl fun _ run => absurd run (Option.some_ne_none _).symm) p

end Stored

/-! ## Runs -/

/-- Every step of a run lets no publication escape. -/
def Observes (host : Host) : World → List Event → Prop
  | _, [] => True
  | w, event :: rest => Observed w event ∧ Observes host (w.step host event) rest

/-- What the bulk queue promises in a state, and from there to any later one. -/
structure Outcome (host : Host) (w : World) : Prop where
  /-- An item is published at most once. -/
  once : (w.audits.filterMap Audit.item).Nodup
  truthful : ∀ id job, w.job id = some job → Truthful w id job
  /-- A job that is over has an outcome for every item that was eligible. -/
  past : ∀ later id job job' (i : Nat) item, w.job id = some job → job.items[i]? = some item → item.state = .eligible →
    (World.job (List.foldl (World.step host) w later) id) = some job' →
    job'.state = .completed ∨ job'.state = .cancelled →
    ∃ item', job'.items[i]? = some item' ∧ item'.state.settled = true
  /-- The job of a run that has come to its end is over, unless the process is being shut down. -/
  ended : ∀ p r, (w.workers p).run = some r → r.closing = true → r.due = [] → r.broken = false →
    (w.workers p).stopping = false →
    ∃ job, w.job r.id = some job ∧ (job.state = .completed ∨ job.state = .cancelled)
  /-- Outcomes stay, and what has one is not executed again. -/
  kept : ∀ later id job, w.job id = some job →
    ∃ job', World.job (List.foldl (World.step host) w later) id = some job' ∧ Keeps job job'
  executes : ∀ event, Executes w (w.step host event)
  /-- A worker that has lost the lock stores nothing. -/
  fenced : ∀ (event : Event) p, event.process = some p → w.lock ≠ some p → (w.step host event).jobs = w.jobs
  /-- One job for an owner and a key, and for all previews with it. -/
  keys : ∀ id id' job job', w.job id = some job → w.job id' = some job' → job.owner = job'.owner →
    job.key = job'.key → id = id'
  answered : ∀ owner key digest, (owner, key, digest) ∈ w.previews →
    ∃ id job, w.job id = some job ∧ job.owner = owner ∧ job.key = key ∧ job.inputDigest = digest

section Later

variable {host : Host} {w : World}

theorem Inv.run (inv : Inv w) (later : List Event) : Inv (later.foldl (World.step host) w) := by
  induction later generalizing w with
  | nil => exact inv
  | cons event rest ih => exact ih (inv.step event)

theorem later_keeps (inv : Inv w) (later : List Event) {id : String} {job : BulkJob} (there : w.job id = some job) :
    ∃ job', World.job (later.foldl (World.step host) w) id = some job' ∧ Keeps job job' := by
  induction later generalizing w job with
  | nil => exact ⟨job, there, refl_of Keeps job⟩
  | cons event rest ih =>
    obtain ⟨next, stored, keeps⟩ := @stored_keeps w host id event inv job there
    obtain ⟨last, stored', keeps'⟩ := ih (inv.step event) stored
    exact ⟨last, stored', trans_of Keeps keeps keeps'⟩

theorem over_settled (inv : Inv w) (later : List Event) {id : String} {job job' : BulkJob} {i : Nat} {item : BulkItem}
    (there : w.job id = some job) (found : job.items[i]? = some item) (eligible : item.state = .eligible)
    (there' : World.job (later.foldl (World.step host) w) id = some job')
    (past : job'.state = .completed ∨ job'.state = .cancelled) :
    ∃ item', job'.items[i]? = some item' ∧ item'.state.settled = true := by
  obtain ⟨last, stored, keeps⟩ := later_keeps inv later there
  obtain rfl := some.inj (stored.symm.trans there')
  obtain ⟨item', found', -, -⟩ := keeps.toSame.item found
  have regular := (inv.run later).rows.regular id last stored
  have mem := List.mem_of_getElem? found'
  refine ⟨item', found', ItemState.settled_of_not (regular.confirmed ?_ item' mem) (regular.still (.inr past) item' mem) ?_⟩
  · intro draft
    rw [draft] at past
    exact past.elim (fun h => (nomatch h)) fun h => (nomatch h)
  · refine Bool.eq_false_iff.mpr fun declined => ?_
    have was := keeps.declined i item item' found found' declined
    rw [eligible] at was
    cases was

end Later

theorem Observes.truth {host : Host} {w : World} {events : List Event} (observes : Observes host w events)
    (inv : Inv w) (truth : Truth w) : Truth (events.foldl (World.step host) w) := by
  induction events generalizing w with
  | nil => exact truth
  | cons event rest ih =>
    obtain ⟨observed, later⟩ := observes
    exact ih later (inv.step event) (truth.step inv observed)

theorem truth_initial : Truth initial := by
  refine ⟨fun id job there => ?_, fun p r held => ?_⟩
  · cases there
  · cases held

/-- A job reports every item truthfully in a run that lets no publication escape. -/
theorem bulk_outcomes (host : Host) (events : List Event) (observes : Observes host initial events) :
    Outcome host (World.reached host events) := by
  have inv := @reached_inv host events
  refine
    { once := inv.rows.once
      truthful := (observes.truth inv_initial truth_initial).rows
      past := fun later id job job' i item there found eligible => over_settled inv later there found eligible
      ended := fun p r run closing none intact going => ?_
      kept := fun later id job there => later_keeps inv later there
      executes := executes_step inv
      fenced := fun event p process lost => replaced_stores_nothing process lost
      keys := inv.rows.keys
      answered := inv.rows.answered }
  have ok := inv.runs p r run
  refine ⟨r.job, ok.ended closing none intact going, ?_⟩
  obtain ⟨-, -, -, ⟨-, stops⟩ | ⟨past, -⟩⟩ := ok.sound.closed closing
  · exact absurd (going.symm.trans stops) Bool.false_ne_true
  · exact past

/-! ## A publication that escapes -/

def plain : Host := ⟨fun input => input.key, fun _ _ => "digest"⟩

/-- One resource is previewed and confirmed, and a worker starts its execution. -/
def execution : List Event :=
  [.preview 1 "job" ⟨"bulk-key", ["instance:1"], none, none⟩ fun _ => .eligible 0, .confirmRead 1 "job" "digest",
    .confirmSave "job", .acquire 0, .load 0 "job", .save 0 true, .take 0, .reconcile 0 0, .check 0 0, .save 0 true,
    .publish 0 0]

/-- The commit of the publication is through, and its answer is lost: the item is stored as failed. -/
theorem published_item_fails :
    ((World.reached plain (execution ++ [.fail 0 0 "BULK_OPERATION_FAILED", .save 0 true])).job "job").map
        (fun job => job.items.map (·.state)) = some [.failed] ∧
      (World.reached plain (execution ++ [.fail 0 0 "BULK_OPERATION_FAILED", .save 0 true])).audits =
        [⟨"instance:1", .bulk "job" 0, 1⟩] := by
  decide

/-- What the worker does when the answer arrives. -/
def told : List Event := [.acknowledge 0 0, .conclude 0 0 ⟨1, true, true, false⟩, .save 0 true, .close 0, .save 0 true]

/-- In a run that publishes one item and learns of it, the job is over with its outcome. -/
theorem bulk_outcomes_told : Outcome plain (World.reached plain (execution ++ told)) ∧
    ((World.reached plain (execution ++ told)).job "job").map (fun job => (job.state, job.items.map (·.state))) =
      some (.completed, [.succeeded]) := by
  have held : (World.reached plain (execution.take 10)).lock = some 0 := by rfl
  refine ⟨bulk_outcomes plain _ ?_, by rfl⟩
  exact ⟨trivial, trivial, trivial, trivial, trivial, trivial, trivial, trivial, trivial, trivial,
    fun _ _ _ lost => absurd held lost, trivial, trivial, trivial, trivial, trivial, trivial⟩

end Slide.Bulk
