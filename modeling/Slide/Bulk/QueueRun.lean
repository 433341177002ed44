import Mathlib.Data.List.Induction
import Slide.Library.Chained
import Slide.Bulk.WorkerSpecs

/-!
# The bulk queue in any run

What the rows, the workers and the audits have in common whatever happens: the holder of the worker lock has
read the settled items of its job, and only the holder writes them.
-/

namespace Slide.Bulk

open List

/-! ## Rows -/

def World.job (w : World) (id : String) : Option BulkJob := (w.jobs.get id).map (·.payload)

section Rows

variable {jobs : Jobs} {id j owner' : String} {job : BulkJob} {now : Nat}

theorem Jobs.get_save : ((jobs.save id job).get j).map (·.payload) =
    if j = id then ((jobs.get id).map (·.payload)).map fun _ => job else (jobs.get j).map (·.payload) := by
  unfold Jobs.save
  rw [Table.get_updateWhere]
  by_cases same : j = id
  · rw [if_pos same, if_pos same]
    cases jobs.get id <;> rfl
  · rw [if_neg same, if_neg same]

theorem Jobs.get_cancel : ((jobs.cancel id).get j).map (·.payload) = (jobs.get j).map (·.payload) := by
  unfold Jobs.cancel
  rw [Table.get_updateWhere]
  by_cases same : j = id
  · rw [if_pos same, same]
    cases jobs.get id <;> rfl
  · rw [if_neg same]

theorem Jobs.create_cases : jobs.create now id job = (jobs, none) ∨
    (∃ id' saved, jobs.get id' = some saved ∧ saved.payload.owner = job.owner ∧ saved.payload.key = job.key ∧
      saved.payload.inputDigest = job.inputDigest ∧ jobs.create now id job = (jobs, some saved.payload)) ∨
    jobs.get id = none ∧
      (∀ id' row, jobs.get id' = some row → ¬(row.payload.owner = job.owner ∧ row.payload.key = job.key)) ∧
      jobs.create now id job = (jobs.put id ⟨job, false⟩, some job) := by
  unfold Jobs.create
  cases found : jobs.ofKey job.owner job.key with
  | some saved =>
    simp only
    split_ifs with same
    · obtain ⟨id', there⟩ := Table.mem_toList.mp (mem_of_find?_eq_some found)
      have own := find?_some found
      simp only [Bool.and_eq_true, decide_eq_true_eq] at own
      exact .inr (.inl ⟨id', saved, there, own.1, own.2, same, rfl⟩)
    · exact .inl rfl
  | none =>
    simp only
    split_ifs with room
    · refine .inr (.inr ⟨room.2.2, fun id' row there own => ?_, rfl⟩)
      have absent := find?_eq_none.mp found row (Table.mem_toList.mpr ⟨id', there⟩)
      simp only [Bool.and_eq_true, decide_eq_true_eq] at absent
      exact absent own
    · exact .inl rfl

end Rows

/-! ## The invariant -/

/-- What holds of the run of a process. -/
structure RunOk (w : World) (p : Nat) (r : Run) : Prop where
  sound : r.Sound (w.workers p).stopping
  row : ∃ job, w.job r.id = some job ∧ job.state ≠ .draft ∧ Same job r.job ∧ ∀ s ∈ r.due, Same job s.snapshot
  /-- What the holder of the lock has in memory follows what is stored. -/
  holder : w.lock = some p → ∀ job, w.job r.id = some job →
    Chained Keeps job (r.due.map (·.snapshot)) r.job ∧
      (r.closing = false ∨ r.due ≠ [] → job.state = .queued ∨ job.state = .running)
  ended : r.closing = true → r.due = [] → r.broken = false → (w.workers p).stopping = false →
    w.job r.id = some r.job

/-- A stored job. -/
structure Regular (job : BulkJob) : Prop where
  confirmed : job.state ≠ .draft → job.NoneEligible
  still : job.state = .draft ∨ job.state = .completed ∨ job.state = .cancelled → job.NoneOpen

def Audit.item (a : Audit) : Option (String × Nat) :=
  match a.requestId with
  | .bulk job i => some (job, i)
  | .other _ => none

/-- The publication of an item has used up the revision that it expects. -/
def Audited (w : World) (a : Audit) : Prop :=
  ∀ id i, a.item = some (id, i) → ∃ job item expected, w.job id = some job ∧ job.items[i]? = some item ∧
    item.resource = a.target ∧ item.expectedRevision = some expected ∧ expected < w.revision item.resource

/-- The rows, and what they answer to. -/
structure Rows (w : World) : Prop where
  keys : ∀ id id' job job', w.job id = some job → w.job id' = some job' → job.owner = job'.owner →
    job.key = job'.key → id = id'
  answered : ∀ owner key digest, (owner, key, digest) ∈ w.previews →
    ∃ id job, w.job id = some job ∧ job.owner = owner ∧ job.key = key ∧ job.inputDigest = digest
  regular : ∀ id job, w.job id = some job → Regular job
  audits : ∀ a ∈ w.audits, Audited w a
  once : (w.audits.filterMap Audit.item).Nodup

structure Inv (w : World) : Prop where
  rows : Rows w
  runs : ∀ p r, (w.workers p).run = some r → RunOk w p r
  controls : ∀ id job, w.controls id = some job → job.state = .draft ∧ w.job id = some job

section Runs

variable {w w' : World} {p q : Nat} {r r' : Run}

@[simp] theorem run_setRun : ((w.setRun p r).workers q).run = if q = p then some r else (w.workers q).run := by
  unfold World.setRun World.setWorker
  simp only [Function.update_apply]
  split_ifs <;> rfl

@[simp] theorem stopping_setRun : ((w.setRun p r).workers q).stopping = (w.workers q).stopping := by
  unfold World.setRun World.setWorker
  simp only [Function.update_apply]
  split_ifs with same
  · rw [same]
  · rfl

theorem RunOk.congr (ok : RunOk w p r) (lock : w'.lock = some p → w.lock = some p) (row : w'.job r.id = w.job r.id)
    (stopping : (w'.workers p).stopping = (w.workers p).stopping) : RunOk w' p r := by
  refine ⟨stopping ▸ ok.sound, ?_, fun held job there => ?_, fun closing none intact going => ?_⟩
  · rw [row]
    exact ok.row
  · rw [row] at there
    exact ok.holder (lock held) job there
  · rw [row]
    exact ok.ended closing none intact (stopping.symm.trans going)

theorem RunOk.advance (ok : RunOk w p r) (sound : r'.Sound (w.workers p).stopping) (moves : Run.Advances r r')
    (unclosed : r.closing = false) : RunOk (w.setRun p r') p r' := by
  have same : (w.setRun p r').job r'.id = w.job r.id := by rw [moves.id]; rfl
  refine ⟨by rw [stopping_setRun]; exact sound, ?_, fun held job there => ?_, fun closing => ?_⟩
  · obtain ⟨job, there, state, own, each⟩ := ok.row
    have own' := own.trans moves.keeps.toSame
    refine ⟨job, same.trans there, state, own', fun s mem => ?_⟩
    rcases moves.due with kept | ⟨awaiting, added⟩
    · exact each s (kept ▸ mem)
    · rw [added] at mem
      rcases mem_append.mp mem with before | new
      · exact each s before
      · rw [mem_singleton.mp new]
        exact own'
  · rw [same] at there
    obtain ⟨chained, live⟩ := ok.holder held job there
    refine ⟨?_, fun _ => live (.inl unclosed)⟩
    have ahead := chained.advance moves.keeps
    rcases moves.due with kept | ⟨awaiting, added⟩
    · rw [kept]
      exact ahead
    · rw [added, map_append]
      exact ahead.push
  · exact absurd ((unclosed.symm.trans moves.closing.symm).trans closing) Bool.false_ne_true

theorem Inv.setRun (inv : Inv w) (own : RunOk (w.setRun p r') p r') : Inv (w.setRun p r') := by
  refine ⟨⟨inv.rows.keys, inv.rows.answered, inv.rows.regular, inv.rows.audits, inv.rows.once⟩, fun q s run => ?_,
    inv.controls⟩
  rw [run_setRun] at run
  split_ifs at run with same
  · cases run
    exact same ▸ own
  · exact (inv.runs q s run).congr (fun held => held) rfl stopping_setRun

theorem setRun_self (run : (w.workers p).run = some r) : w.setRun p r = w := by
  unfold World.setRun World.setWorker
  rw [← run, Function.update_eq_self]

theorem Inv.advance (inv : Inv w) (run : (w.workers p).run = some r) (step : Run → Run)
    (sound : r.Sound (w.workers p).stopping →
      (step r).Sound (w.workers p).stopping ∧ Run.Advances r (step r))
    (stays : r.closing = true → step r = r) : Inv (w.setRun p (step r)) := by
  have ok := inv.runs p r run
  obtain ⟨sound', moves⟩ := sound ok.sound
  cases closing : r.closing with
  | true =>
    rw [stays closing, setRun_self run]
    exact inv
  | false => exact inv.setRun (ok.advance sound' moves closing)

end Runs

/-! ## Requests -/

section Requests

variable {w w' : World} {p q : Nat} {r r' : Run} {id : String}

theorem Rows.rewrite {old new : BulkJob} (rows : Rows w) (was : w.job id = some old) (same : Same old new)
    (regular : Regular new) : Rows { w with jobs := w.jobs.save id new } := by
  have read : ∀ k, ({ w with jobs := w.jobs.save id new } : World).job k = if k = id then some new else w.job k := by
    intro k
    refine Jobs.get_save.trans ?_
    have present : (w.jobs.get id).map (·.payload) = some old := was
    rw [present]
    rfl
  have back : ∀ k job', ({ w with jobs := w.jobs.save id new } : World).job k = some job' →
      ∃ job, w.job k = some job ∧ Same job job' := by
    intro k job' there
    rw [read] at there
    split_ifs at there with equal
    · cases there
      exact ⟨old, equal ▸ was, same⟩
    · exact ⟨job', there, .refl job'⟩
  have ahead : ∀ k job, w.job k = some job →
      ∃ job', ({ w with jobs := w.jobs.save id new } : World).job k = some job' ∧ Same job job' := by
    intro k job there
    rw [read]
    split_ifs with equal
    · obtain rfl := some.inj (was.symm.trans (equal ▸ there))
      exact ⟨new, rfl, same⟩
    · exact ⟨job, there, .refl job⟩
  refine ⟨fun k k' job job' there there' owner key => ?_, fun owner key digest mem => ?_, fun k job there => ?_,
    fun a mem k i item => ?_, rows.once⟩
  · obtain ⟨before, was, like⟩ := back k job there
    obtain ⟨before', was', like'⟩ := back k' job' there'
    exact rows.keys k k' before before' was was' (like.owner.symm.trans (owner.trans like'.owner))
      (like.key.symm.trans (key.trans like'.key))
  · obtain ⟨k, job, there, own, ofKey, ofInput⟩ := rows.answered owner key digest mem
    obtain ⟨job', there', like⟩ := ahead k job there
    exact ⟨k, job', there', like.owner.trans own, like.key.trans ofKey, like.inputDigest.trans ofInput⟩
  · rw [read] at there
    split_ifs at there with equal
    · cases there
      exact regular
    · exact rows.regular k job there
  · obtain ⟨job, one, expected, there, found, target, expects, used⟩ := rows.audits a mem k i item
    obtain ⟨job', there', like⟩ := ahead k job there
    obtain ⟨one', found', resource, expects'⟩ := like.item found
    exact ⟨job', one', expected, there', found', resource.trans target, expects'.trans expects, resource ▸ used⟩

theorem Rows.congr (rows : Rows w) (jobs : ∀ k, w'.job k = w.job k) (previews : w'.previews = w.previews)
    (revisions : w'.revisions = w.revisions) (audits : w'.audits = w.audits) : Rows w' := by
  refine ⟨fun k k' job job' there there' => ?_, fun owner key digest mem => ?_, fun k job there => ?_,
    fun a mem k i item => ?_, audits ▸ rows.once⟩
  · rw [jobs] at there there'
    exact rows.keys k k' job job' there there'
  · obtain ⟨k, job, there, rest⟩ := rows.answered owner key digest (previews ▸ mem)
    exact ⟨k, job, (jobs k).trans there, rest⟩
  · exact rows.regular k job ((jobs k).symm.trans there)
  · obtain ⟨job, one, expected, there, found, target, expects, used⟩ := rows.audits a (audits ▸ mem) k i item
    refine ⟨job, one, expected, (jobs k).trans there, found, target, expects, ?_⟩
    unfold World.revision
    rw [revisions]
    exact used

theorem Inv.congr (inv : Inv w) (rows : Rows w') (jobs : ∀ k, w'.job k = w.job k) (lock : w'.lock = w.lock)
    (workers : w'.workers = w.workers) (controls : ∀ k job, w'.controls k = some job →
      w.controls k = some job ∨ job.state = .draft ∧ w.job k = some job) : Inv w' := by
  refine ⟨rows, fun q s run => ?_, fun k job held => ?_⟩
  · rw [workers] at run
    exact (inv.runs q s run).congr (fun held => lock.symm.trans held) (jobs s.id) (by rw [workers])
  · rw [jobs]
    rcases controls k job held with before | new
    · exact inv.controls k job before
    · exact new

theorem draft_regular (host : Host) (owner now : Nat) (input : BulkInput) (assess : String → Assessment)
    (retryOf : Option String) : Regular (draft host owner now input assess retryOf) := by
  refine ⟨fun other => absurd rfl other, fun _ one mem => ?_⟩
  obtain ⟨resource, -, rfl⟩ := mem_map.mp mem
  cases assess resource <;> rfl

theorem Rows.answer (rows : Rows w) {owner : Nat} {key digest : String}
    (job : ∃ id job, w.job id = some job ∧ job.owner = owner ∧ job.key = key ∧ job.inputDigest = digest) :
    Rows { w with previews := w.previews ++ [(owner, key, digest)] } := by
  refine ⟨rows.keys, fun owner' key' digest' mem => ?_, rows.regular, rows.audits, rows.once⟩
  rcases mem_append.mp mem with before | new
  · exact rows.answered owner' key' digest' before
  · cases mem_singleton.mp new
    exact job

theorem job_put {job : BulkJob} (k : String) :
    ({ w with jobs := w.jobs.put id ⟨job, false⟩ } : World).job k = if k = id then some job else w.job k := by
  unfold World.job
  rw [Table.get_put]
  split_ifs <;> rfl

theorem Rows.create {job : BulkJob} (rows : Rows w) (absent : w.job id = none) (regular : Regular job)
    (free : ∀ k other, w.job k = some other → ¬(other.owner = job.owner ∧ other.key = job.key)) :
    Rows { w with jobs := w.jobs.put id ⟨job, false⟩ } := by
  have ahead : ∀ k other, w.job k = some other →
      ({ w with jobs := w.jobs.put id ⟨job, false⟩ } : World).job k = some other := by
    intro k other there
    rw [job_put, if_neg]
    · exact there
    · rintro rfl
      rw [absent] at there
      cases there
  refine ⟨fun k k' one one' there there' owner key => ?_, fun owner key digest mem => ?_, fun k one there => ?_,
    fun a mem k i item => ?_, rows.once⟩
  · rw [job_put] at there there'
    split_ifs at there there' with at_k at_k' at_k'
    · exact at_k.trans at_k'.symm
    · cases there
      exact absurd ⟨owner.symm, key.symm⟩ (free k' one' there')
    · cases there'
      exact absurd ⟨owner, key⟩ (free k one there)
    · exact rows.keys k k' one one' there there' owner key
  · obtain ⟨k, one, there, rest⟩ := rows.answered owner key digest mem
    exact ⟨k, one, ahead k one there, rest⟩
  · rw [job_put] at there
    split_ifs at there
    · cases there
      exact regular
    · exact rows.regular k one there
  · obtain ⟨one, it, expected, there, rest⟩ := rows.audits a mem k i item
    exact ⟨one, it, expected, ahead k one there, rest⟩

theorem Inv.preview (inv : Inv w) (host : Host) (owner : Nat) (input : BulkInput) (assess : String → Assessment)
    (retryOf : Option String) : Inv (w.preview host owner id input assess retryOf) := by
  have regular := draft_regular host owner w.now input assess retryOf
  unfold World.preview
  simp only
  rcases @Jobs.create_cases w.jobs id (draft host owner w.now input assess retryOf) w.now with
    refused | ⟨id', saved, there, own, key, digest, answered⟩ | ⟨absent, free, made⟩
  · rw [refused]
    exact inv.congr (inv.rows.congr (fun _ => rfl) (append_nil _) rfl rfl) (fun _ => rfl) rfl rfl
      fun _ _ held => .inl held
  · rw [answered]
    have job : w.job id' = some saved.payload := congrArg (Option.map Row.payload) there
    exact inv.congr (inv.rows.answer ⟨id', saved.payload, job, own, key, digest⟩) (fun _ => rfl) rfl rfl
      fun _ _ held => .inl held
  · rw [made]
    have absent' : w.job id = none := congrArg (Option.map Row.payload) absent
    have created := inv.rows.create absent' regular fun k other there own => by
      obtain ⟨row, found, rfl⟩ := Option.map_eq_some_iff.mp there
      exact free k row found own
    have there := (@job_put w id (draft host owner w.now input assess retryOf) id).trans (if_pos rfl)
    refine ⟨created.answer ⟨id, _, there, rfl, rfl, rfl⟩, fun q s run => ?_, fun k copy held => ?_⟩
    · have ok := inv.runs q s run
      refine ok.congr (fun held => held) ((job_put s.id).trans (if_neg ?_)) rfl
      rintro same
      obtain ⟨job, present, -⟩ := ok.row
      rw [same, absent'] at present
      cases present
    · obtain ⟨state, present⟩ := inv.controls k copy held
      refine ⟨state, (job_put k).trans ((if_neg ?_).trans present)⟩
      rintro rfl
      rw [absent'] at present
      cases present

theorem confirmed_get (job : BulkJob) (i : Nat) : job.confirmed.items[i]? =
    (job.items[i]?).map fun one => if one.state = .eligible then { one with state := .queued } else one :=
  getElem?_map

theorem confirmed_keeps (job : BulkJob) : Keeps job job.confirmed := by
  refine ⟨⟨rfl, rfl, rfl, fun i => ?_⟩, fun i item found settled => ?_, fun i item item' found found' declined => ?_⟩
  · rw [confirmed_get, Option.map_map]
    refine congrArg (fun f => Option.map f job.items[i]?) (funext fun one => ?_)
    simp only [Function.comp_apply]
    split_ifs <;> rfl
  · rw [confirmed_get, found, Option.map_some, if_neg]
    intro eligible
    rw [eligible] at settled
    cases settled
  · rw [confirmed_get, found] at found'
    cases found'
    simp only at declined
    split_ifs at declined
    · cases declined
    · exact declined

theorem confirmed_regular {job : BulkJob} (regular : Regular job) (state : job.state = .draft) :
    Regular job.confirmed ∧ job.confirmed.state ≠ .draft := by
  have items : ∀ one ∈ job.confirmed.items, one.state ≠ .eligible ∧ (one.state.open = true → one.state = .queued) := by
    intro one mem
    obtain ⟨old, inside, rfl⟩ := mem_map.mp mem
    split_ifs with eligible
    · exact ⟨fun h => (nomatch h), fun _ => rfl⟩
    · refine ⟨eligible, fun still => ?_⟩
      rw [regular.still (.inl state) old inside] at still
      cases still
  have undrafted : job.confirmed.state ≠ .draft := by
    unfold BulkJob.confirmed
    simp only
    split_ifs
    · exact fun h => (nomatch h)
    · exact fun h => (nomatch h)
  refine ⟨⟨fun _ one mem => (items one mem).1, fun past one mem => ?_⟩, undrafted⟩
  refine Bool.eq_false_iff.mpr fun still => ?_
  have queued : job.confirmed.state = .queued := by
    have some_queued : job.confirmed.items.any (·.state = .queued) = true :=
      any_eq_true.mpr ⟨one, mem, decide_eq_true ((items one mem).2 still)⟩
    exact if_pos some_queued
  rw [queued] at past
  rcases past with h | h | h
  · cases h
  · cases h
  · cases h

theorem job_save {old new : BulkJob} (was : w.job id = some old) (k : String) :
    ({ w with jobs := w.jobs.save id new } : World).job k = if k = id then some new else w.job k := by
  refine Jobs.get_save.trans ?_
  have present : (w.jobs.get id).map (·.payload) = some old := was
  rw [present]
  rfl

theorem Inv.confirm (inv : Inv w) {job : BulkJob} (held : w.controls id = some job) :
    Inv { w with jobs := w.jobs.save id job.confirmed, controls := Function.update w.controls id none } := by
  obtain ⟨state, was⟩ := inv.controls id job held
  obtain ⟨regular, undrafted⟩ := confirmed_regular (inv.rows.regular id job was) state
  have rewritten := inv.rows.rewrite was (confirmed_keeps job).toSame regular
  refine ⟨rewritten.congr (fun _ => rfl) rfl rfl rfl, fun q s run => ?_, fun k copy there => ?_⟩
  · have ok := inv.runs q s run
    refine ok.congr (fun held => held) ((job_save was s.id).trans (if_neg ?_)) rfl
    -- a draft is no worker's job
    rintro rfl
    obtain ⟨other, present, undrafted, -⟩ := ok.row
    obtain rfl := some.inj (was.symm.trans present)
    exact undrafted state
  · simp only [Function.update_apply] at there
    split_ifs at there with equal
    obtain ⟨state', present⟩ := inv.controls k copy there
    exact ⟨state', (job_save was k).trans ((if_neg equal).trans present)⟩

end Requests

/-! ## Workers -/

section Workers

variable {w w' : World} {p q : Nat} {r r' : Run} {id : String}

theorem due_state {stopping : Bool} (sound : r.Sound stopping) {s : Save} (mem : s ∈ r.due) :
    s.snapshot.state = .running ∨ r.closing = true ∧ s.snapshot = r.job := by
  cases closing : r.closing with
  | false => exact .inl ((sound.running closing).2 s mem)
  | true =>
    obtain ⟨-, -, none | one, -⟩ := sound.closed closing
    · rw [none] at mem
      cases mem
    · rw [one] at mem
      exact .inr ⟨rfl, by rw [mem_singleton.mp mem]⟩

theorem due_regular {stopping : Bool} (sound : r.Sound stopping) {s : Save} (mem : s ∈ r.due) :
    Regular s.snapshot ∧ s.snapshot.state ≠ .draft := by
  have eligible := sound.eligible.2 s mem
  rcases due_state sound mem with running | ⟨closing, same⟩
  · rw [running]
    refine ⟨⟨fun _ => eligible, fun past => ?_⟩, fun h => (nomatch h)⟩
    rw [running] at past
    rcases past with h | h | h
    · cases h
    · cases h
    · cases h
  · rw [same] at eligible ⊢
    obtain ⟨-, -, -, ⟨queued, -⟩ | ⟨past, still⟩⟩ := sound.closed closing
    · rw [queued]
      refine ⟨⟨fun _ => eligible, fun past => ?_⟩, fun h => (nomatch h)⟩
      rw [queued] at past
      rcases past with h | h | h
      · cases h
      · cases h
      · cases h
    · refine ⟨⟨fun _ => eligible, fun _ => still⟩, fun state => ?_⟩
      rw [state] at past
      exact past.elim (fun h => (nomatch h)) fun h => (nomatch h)

theorem Inv.store (inv : Inv w) (run : (w.workers p).run = some r) {s : Save} {rest : List Save}
    (due : r.due = s :: rest) (held : w.lock = some p) :
    Inv (World.setRun { w with jobs := w.jobs.save r.id s.snapshot } p (r.saved rest s.awaiting)) := by
  have ok := inv.runs p r run
  have mem : s ∈ r.due := due ▸ mem_cons_self
  obtain ⟨job, was, undrafted, -, -⟩ := ok.row
  obtain ⟨chained, live⟩ := ok.holder held job was
  replace live := live (.inr (ne_nil_of_mem mem))
  rw [due, map_cons] at chained
  have keeps : Keeps job s.snapshot := chained.after mem_cons_self
  obtain ⟨regular, undrafted'⟩ := due_regular ok.sound mem
  obtain ⟨sound, ofId, ofJob, ofDue, ofBroken, ofClosing⟩ := Run.saved_sound ok.sound due
  have rewritten := inv.rows.rewrite was keeps.toSame regular
  have read := @job_save w r.id job s.snapshot was
  refine ⟨rewritten.congr (fun _ => rfl) rfl rfl rfl, fun q other run' => ?_, fun k copy there => ?_⟩
  · rw [run_setRun] at run'
    split_ifs at run' with same
    · cases run'
      subst same
      have stored : ({ w with jobs := w.jobs.save r.id s.snapshot } : World).job (r.saved rest s.awaiting).id =
          some s.snapshot := by
        rw [ofId, read, if_pos rfl]
      refine ⟨by rw [stopping_setRun]; exact sound, ⟨s.snapshot, stored, undrafted', ?_, ?_⟩,
        fun _ job' there => ?_, fun closing none intact going => ?_⟩
      · rw [ofJob]
        exact (chained.pop.ends).toSame
      · rw [ofDue]
        exact fun e inside => (chained.pop.after (mem_map_of_mem inside)).toSame
      · obtain rfl := some.inj (stored.symm.trans there)
        rw [ofJob, ofDue, ofClosing]
        refine ⟨chained.pop, fun going => .inr ?_⟩
        rcases due_state ok.sound mem with running | ⟨closing, -⟩
        · exact running
        · obtain ⟨-, -, none | one, -⟩ := ok.sound.closed closing
          · rw [none] at mem
            cases mem
          · rw [one] at due
            obtain rfl := (List.cons.inj due).2
            exact going.elim (fun h => absurd (h.symm.trans closing) Bool.false_ne_true) fun h => absurd rfl h
      · rw [ofClosing] at closing
        refine stored.trans ?_
        rw [ofJob]
        obtain ⟨-, -, none | one, -⟩ := ok.sound.closed closing
        · rw [none] at mem
          cases mem
        · rw [one] at mem
          rw [mem_singleton.mp mem]
    · have ok' := inv.runs q other run'
      by_cases shared : other.id = r.id
      · -- another process has had the job, and has lost the lock
        refine ⟨by rw [stopping_setRun]; exact ok'.sound, ?_, fun held' => ?_, fun closing none intact going => ?_⟩
        · obtain ⟨job', present, -, like, each⟩ := ok'.row
          rw [shared] at present
          obtain rfl := some.inj (was.symm.trans present)
          refine ⟨s.snapshot, ?_, undrafted', keeps.toSame.symm.trans like, fun e inside => ?_⟩
          · rw [shared]
            exact (read r.id).trans (if_pos rfl)
          · exact keeps.toSame.symm.trans (each e inside)
        · exact absurd (some.inj (held.symm.trans held')).symm same
        · have present := ok'.ended closing none intact (by rw [← going, stopping_setRun])
          rw [shared, was] at present
          obtain rfl := some.inj present
          obtain ⟨-, -, -, ⟨-, stops⟩ | ⟨past, -⟩⟩ := ok'.sound.closed closing
          · rw [stopping_setRun] at going
            exact absurd (going.symm.trans stops) Bool.false_ne_true
          · rcases live with h | h
            · rw [h] at past
              exact past.elim (fun h => (nomatch h)) fun h => (nomatch h)
            · rw [h] at past
              exact past.elim (fun h => (nomatch h)) fun h => (nomatch h)
      · exact ok'.congr (fun held => held) ((read other.id).trans (if_neg shared)) stopping_setRun
  · obtain ⟨state, present⟩ := inv.controls k copy there
    refine ⟨state, (read k).trans ((if_neg ?_).trans present)⟩
    rintro rfl
    obtain rfl := some.inj (was.symm.trans present)
    exact undrafted state

theorem Inv.lose (inv : Inv w) (run : (w.workers p).run = some r) : Inv (w.setRun p r.saveFailed) := by
  have ok := inv.runs p r run
  refine inv.setRun ⟨by rw [stopping_setRun]; exact Run.saveFailed_sound ok.sound, ?_, fun held job there => ?_,
    fun _ _ intact => (nomatch intact)⟩
  · obtain ⟨job, there, undrafted, like, -⟩ := ok.row
    exact ⟨job, there, undrafted, like, fun s mem => (nomatch mem)⟩
  · obtain ⟨chained, live⟩ := ok.holder held job there
    exact ⟨chained.drop, fun going => live (going.imp_right fun none => absurd rfl none)⟩

theorem Inv.close (inv : Inv w) (run : (w.workers p).run = some r) (closes : r.closes = true) (cancelled : Bool) :
    Inv (w.setRun p (r.close cancelled)) := by
  have ok := inv.runs p r run
  obtain ⟨sound, keeps, due⟩ := Run.close_sound ok.sound closes cancelled
  unfold Run.closes at closes
  simp only [Bool.and_eq_true, Bool.not_eq_true', List.isEmpty_iff] at closes
  obtain ⟨⟨⟨⟨⟨-, unclosed⟩, -⟩, none⟩, -⟩, -⟩ := closes
  refine inv.setRun ⟨by rw [stopping_setRun]; exact sound, ?_, fun held job there => ?_, fun _ empty => ?_⟩
  · obtain ⟨job, there, undrafted, like, -⟩ := ok.row
    refine ⟨job, there, undrafted, like.trans keeps.toSame, fun s mem => ?_⟩
    rw [due] at mem
    rw [mem_singleton.mp mem]
    exact like.trans keeps.toSame
  · obtain ⟨chained, live⟩ := ok.holder held job there
    refine ⟨?_, fun _ => live (.inl unclosed)⟩
    rw [none] at chained
    rw [due]
    exact (chained.advance keeps).push
  · rw [due] at empty
    cases empty

theorem Inv.load (inv : Inv w) {job : BulkJob} (there : w.job id = some job)
    (live : job.state = .queued ∨ job.state = .running) : Inv (w.setRun p (.start id job)) := by
  have undrafted : job.state ≠ .draft := by
    intro state
    rw [state] at live
    exact live.elim (fun h => (nomatch h)) fun h => (nomatch h)
  have keeps : Keeps job { job with state := .running } := keeps_of_items rfl rfl rfl rfl
  refine inv.setRun ⟨Run.start_sound ((inv.rows.regular id job there).confirmed undrafted),
    ⟨job, there, undrafted, keeps.toSame, fun s mem => ?_⟩, fun _ job' there' => ?_, fun closing => (nomatch closing)⟩
  · rw [mem_singleton.mp mem]
    exact keeps.toSame
  · obtain rfl := some.inj (there.symm.trans there')
    exact ⟨(chained_refl.advance keeps).push, fun _ => live⟩

theorem Inv.unlock (inv : Inv w) (p : Nat) : Inv (w.unlock p) := by
  unfold World.unlock
  split_ifs with held
  · refine ⟨inv.rows.congr (fun _ => rfl) rfl rfl rfl, fun q s run => ?_, inv.controls⟩
    exact (inv.runs q s run).congr (fun held => (nomatch held)) rfl rfl
  · exact inv

theorem Inv.vacate {worker : Worker} {lock : Option Nat} (inv : Inv w) (none : worker.run = none)
    (others : ∀ q, q ≠ p → lock = some q → w.lock = some q) :
    Inv { w with lock, workers := Function.update w.workers p worker } := by
  refine ⟨inv.rows.congr (fun _ => rfl) rfl rfl rfl, fun q s run => ?_, inv.controls⟩
  simp only [Function.update_apply] at run
  split_ifs at run with same
  · rw [none] at run
    cases run
  · refine (inv.runs q s run).congr (others q same) rfl ?_
    exact congrArg Worker.stopping (Function.update_of_ne same _ _)

theorem Inv.stop (inv : Inv w) (p : Nat) : Inv (w.setWorker p { w.workers p with stopping := true }) := by
  refine ⟨inv.rows.congr (fun _ => rfl) rfl rfl rfl, fun q s run => ?_, inv.controls⟩
  unfold World.setWorker at run ⊢
  simp only [Function.update_apply] at run
  split_ifs at run with same
  · subst same
    have ok := inv.runs q s run
    refine ⟨?_, ok.row, ok.holder, fun _ _ _ going => ?_⟩
    · simp only [Function.update_self]
      exact ok.sound.stop
    · simp only [Function.update_self] at going
      cases going
  · exact (inv.runs q s run).congr (fun held => held) rfl (congrArg Worker.stopping (Function.update_of_ne same _ _))

theorem revision_put (resource other : String) (n : Nat) :
    ({ w with revisions := w.revisions.put resource n } : World).revision other =
      if other = resource then n else w.revision other := by
  unfold World.revision
  rw [Table.get_put]
  split_ifs <;> rfl

theorem Rows.publish (rows : Rows w) (a : Audit)
    (expected : ∀ k i, a.item = some (k, i) → ∃ job item, w.job k = some job ∧ job.items[i]? = some item ∧
      item.resource = a.target ∧ item.expectedRevision = some (w.revision a.target)) :
    Rows { w with revisions := w.revisions.put a.target (w.revision a.target + 1), audits := w.audits ++ [a] } := by
  have grows : ∀ other, w.revision other ≤
      ({ w with revisions := w.revisions.put a.target (w.revision a.target + 1) } : World).revision other := by
    intro other
    rw [revision_put]
    split_ifs with same
    · rw [same]
      omega
    · exact le_refl _
  refine ⟨rows.keys, rows.answered, rows.regular, fun b mem k i item => ?_, ?_⟩
  · rcases mem_append.mp mem with before | new
    · obtain ⟨job, one, n, there, found, target, expects, used⟩ := rows.audits b before k i item
      exact ⟨job, one, n, there, found, target, expects, used.trans_le (grows one.resource)⟩
    · obtain rfl := mem_singleton.mp new
      obtain ⟨job, one, there, found, target, expects⟩ := expected k i item
      refine ⟨job, one, _, there, found, target, expects, ?_⟩
      refine lt_of_lt_of_eq (Nat.lt_succ_self _) ?_
      rw [target]
      exact ((@revision_put w b.target b.target _).trans (if_pos rfl)).symm
  · rw [filterMap_append, nodup_append]
    refine ⟨rows.once, ?_, ?_⟩
    · cases key : a.item with
      | none => simp [key]
      | some item => simp [key]
    · rintro ⟨k, i⟩ inside - new rfl
      obtain ⟨b, mem, ofB⟩ := mem_filterMap.mp inside
      obtain ⟨a', only, ofA⟩ := mem_filterMap.mp new
      obtain rfl := mem_singleton.mp only
      obtain ⟨job, one, n, there, found, target, expects, used⟩ := rows.audits b mem k i ofB
      obtain ⟨job', one', there', found', target', expects'⟩ := expected k i ofA
      obtain rfl := some.inj (there.symm.trans there')
      obtain rfl := some.inj (found.symm.trans found')
      obtain rfl := some.inj (expects.symm.trans expects')
      rw [target'] at used
      exact Nat.lt_irrefl _ used

theorem publish_cases (w : World) (p : Nat) (r : Run) (i : Nat) : w.publish p r i = w ∨
    ∃ item, r.job.items[i]? = some item ∧ r.phases i = .activating ∧
      item.expectedRevision = some (w.revision item.resource) ∧
      w.publish p r i = World.setRun
        { w with
          revisions := w.revisions.put item.resource (w.revision item.resource + 1)
          audits := w.audits ++ [⟨item.resource, .bulk r.id i, w.revision item.resource + 1⟩] }
        p (r.publish i (w.revision item.resource + 1)) := by
  unfold World.publish
  cases found : r.job.items[i]? with
  | none => exact .inl rfl
  | some item =>
    simp only
    split_ifs with ready
    · exact .inr ⟨item, rfl, ready.1, ready.2, rfl⟩
    · exact .inl rfl

theorem Inv.publish (inv : Inv w) (run : (w.workers p).run = some r) (i : Nat) : Inv (w.publish p r i) := by
  rcases publish_cases w p r i with same | ⟨item, found, phase, expects, after⟩
  · rw [same]
    exact inv
  · rw [after]
    have ok := inv.runs p r run
    obtain ⟨job, there, -, like, -⟩ := ok.row
    obtain ⟨item', found', resource, expects'⟩ := like.symm.item found
    have active : (r.phases i).active = true := by rw [phase]; rfl
    have rows := inv.rows.publish ⟨item.resource, .bulk r.id i, w.revision item.resource + 1⟩ fun k j own => by
      cases own
      exact ⟨job, item', there, found', resource, expects'.trans expects⟩
    have moved : Inv { w with
        revisions := w.revisions.put item.resource (w.revision item.resource + 1)
        audits := w.audits ++ [⟨item.resource, .bulk r.id i, w.revision item.resource + 1⟩] } :=
      inv.congr rows (fun _ => rfl) rfl rfl fun _ _ held => .inl held
    exact moved.advance run (fun s => s.publish i _)
      (fun sound => sound.setPhase active fun ends => ends.elim (fun h => (nomatch h)) fun h => (nomatch h))
      (fun closing => absurd ((Run.active_not_closing ok.sound active).symm.trans closing) Bool.false_ne_true)

theorem Inv.publication (inv : Inv w) (target request : String) : Inv { w with
    revisions := w.revisions.put target (w.revision target + 1)
    audits := w.audits ++ [⟨target, .other request, w.revision target + 1⟩] } :=
  inv.congr (inv.rows.publish ⟨target, .other request, _⟩ fun _ _ own => (nomatch own)) (fun _ => rfl) rfl rfl
    fun _ _ held => .inl held

end Workers

/-! ## Steps -/

section Steps

variable {w : World} {p : Nat} {r : Run} {host : Host}

theorem closing_idle {stopping : Bool} (sound : r.Sound stopping) (closing : r.closing = true) :
    r.take = r ∧ ∀ i, (∀ found, r.reconcile i found = r) ∧ r.check i = r ∧ r.acknowledge i = r ∧
      (∀ s, r.conclude i s = r) ∧ ∀ code, r.fail i stopping code = r := by
  obtain ⟨all, inactive, -, -⟩ := sound.closed closing
  refine ⟨?_, fun i => ⟨fun found => if_neg ?_, if_neg ?_, ?_, fun s => if_neg ?_, fun code => if_neg ?_⟩⟩
  · unfold Run.take
    rw [getElem?_eq_none all]
  · exact fun at_i => by have idle := inactive i; rw [at_i] at idle; cases idle
  · exact fun at_i => by have idle := inactive i; rw [at_i] at idle; cases idle
  · unfold Run.acknowledge
    cases at_i : r.phases i with
    | committed revision =>
      have idle := inactive i
      rw [at_i] at idle
      cases idle
    | _ => rfl
  · exact fun at_i => by have idle := inactive i; rw [at_i] at idle; cases idle
  · exact fun throws => by have idle := inactive i; rw [Run.throws_active throws] at idle; cases idle

theorem ofRun_cases {f : Run → World} {P : World → Prop} (stays : P w)
    (goes : ∀ r, (w.workers p).run = some r → P (f r)) : P (w.ofRun p f) := by
  unfold World.ofRun
  cases run : (w.workers p).run with
  | none => exact stays
  | some r => exact goes r run

theorem Inv.step (inv : Inv w) (event : Event) : Inv (w.step host event) := by
  cases event with
  | tick ms => exact inv.congr (inv.rows.congr (fun _ => rfl) rfl rfl rfl) (fun _ => rfl) rfl rfl fun _ _ held => .inl held
  | preview owner id input assess => exact inv.preview host owner input assess none
  | retry owner job key id assess =>
    simp only [World.step]
    cases w.jobs.get job with
    | none => exact inv
    | some row =>
      simp only
      split_ifs
      · exact inv.preview host owner _ assess (some job)
      · exact inv
  | confirmRead owner id digest =>
    simp only [World.step]
    cases there : w.jobs.get id with
    | none => exact inv
    | some row =>
      simp only
      split_ifs with ready
      · refine inv.congr (inv.rows.congr (fun _ => rfl) rfl rfl rfl) (fun _ => rfl) rfl rfl fun k copy held => ?_
        simp only [Function.update_apply] at held
        split_ifs at held with same
        · cases held
          exact .inr ⟨ready.2.2.2.1, same ▸ congrArg (Option.map Row.payload) there⟩
        · exact .inl held
      · exact inv
  | confirmSave id =>
    simp only [World.step]
    cases held : w.controls id with
    | none => exact inv
    | some job => exact inv.confirm held
  | confirmDrop id =>
    refine inv.congr (inv.rows.congr (fun _ => rfl) rfl rfl rfl) (fun _ => rfl) rfl rfl fun k copy held => ?_
    simp only [World.step, Function.update_apply] at held
    split_ifs at held
    exact .inl held
  | cancel owner id =>
    simp only [World.step]
    split_ifs
    · exact inv.congr (inv.rows.congr (fun _ => Jobs.get_cancel) rfl rfl rfl) (fun _ => Jobs.get_cancel) rfl rfl
        fun _ _ held => .inl held
    · exact inv
  | publication target request => exact inv.publication target request
  | acquire p =>
    simp only [World.step]
    split_ifs
    · exact inv.vacate rfl fun q other held => absurd (some.inj held).symm other
    · exact inv
  | load p id =>
    simp only [World.step]
    cases there : w.jobs.get id with
    | none => exact inv
    | some row =>
      simp only
      split_ifs with ready
      · exact inv.load (congrArg (Option.map Row.payload) there) ready.2.2
      · exact inv
  | save p ok =>
    refine ofRun_cases inv fun r run => ?_
    cases due : r.due with
    | nil => exact inv
    | cons s rest =>
      split_ifs with held
      · exact inv.store run due held.2
      · exact inv.lose run
  | take p =>
    refine ofRun_cases inv fun r run => ?_
    have sound := (inv.runs p r run).sound
    exact inv.advance run Run.take Run.take_sound fun closing => (closing_idle sound closing).1
  | reconcile p i =>
    refine ofRun_cases inv fun r run => ?_
    have sound := (inv.runs p r run).sound
    exact inv.advance run (fun s => s.reconcile i ((w.audit r i).map (·.revision)))
      (fun sound => Run.reconcile_sound sound _) fun closing => ((closing_idle sound closing).2 i).1 _
  | check p i =>
    refine ofRun_cases inv fun r run => ?_
    have sound := (inv.runs p r run).sound
    split_ifs
    · exact inv.advance run (fun s => s.check i) Run.check_sound fun closing => ((closing_idle sound closing).2 i).2.1
    · exact inv
  | publish p i => exact ofRun_cases inv fun r run => inv.publish run i
  | acknowledge p i =>
    refine ofRun_cases inv fun r run => ?_
    have sound := (inv.runs p r run).sound
    exact inv.advance run (fun s => s.acknowledge i) Run.acknowledge_sound
      fun closing => ((closing_idle sound closing).2 i).2.2.1
  | conclude p i status =>
    refine ofRun_cases inv fun r run => ?_
    have sound := (inv.runs p r run).sound
    exact inv.advance run (fun s => s.conclude i status) (fun sound => Run.conclude_sound sound status)
      fun closing => ((closing_idle sound closing).2 i).2.2.2.1 status
  | fail p i code =>
    refine ofRun_cases inv fun r run => ?_
    have sound := (inv.runs p r run).sound
    split_ifs
    · exact inv.advance run (fun s => s.fail i (w.workers p).stopping code) (fun sound => Run.fail_sound sound code)
        fun closing => ((closing_idle sound closing).2 i).2.2.2.2 code
    · exact inv
  | close p =>
    refine ofRun_cases inv fun r run => ?_
    split_ifs with closes
    · exact inv.close run closes _
    · exact inv
  | leave p =>
    simp only [World.step]
    split_ifs
    · exact (inv.vacate rfl fun q _ held => held).unlock p
    · exact inv
  | disconnect p => exact inv.unlock p
  | stop p => exact inv.stop p
  | crash p => exact (inv.vacate rfl fun q _ held => held).unlock p

theorem inv_initial : Inv initial := by
  refine ⟨⟨?_, ?_, ?_, ?_, nodup_nil⟩, ?_, ?_⟩
  · intro id id' job job' there
    cases there
  · intro owner key digest mem
    cases mem
  · intro id job there
    cases there
  · intro a mem
    cases mem
  · intro p r run
    cases run
  · intro id job held
    cases held

theorem reached_inv (events : List Event) : Inv (World.reached host events) := by
  unfold World.reached
  induction events using List.reverseRecOn with
  | nil => exact inv_initial
  | append_singleton events event ih =>
    rw [foldl_append]
    exact ih.step event

end Steps

end Slide.Bulk
