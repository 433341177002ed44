import Slide.Events.EventIngestSpecs
import Slide.Library.Guarded

/-!
# What ingestion admits

A delivery is stored by one transaction, which counts it under its trigger key and leaves it as it is.
The window of a key counts events that came no earlier than its start, as long as no transaction with an
older clock gets the row of the key after one that started the window: the clock is read before the
locks are held.
-/

namespace Slide.Events

open List

open Display (Json)
open Transaction (Commit perform)
open Guarded

variable {σ : Type} {host : IngestHost} {ports : IngestPorts σ} {w : IngestWorld σ}
  {e : IngestEvent σ} {events : List (IngestEvent σ)} {values : List Json} {rest : σ} {clock : Int}
  {bound : Nat}

/-- The events that a policy has excluded. -/
def StoredEvent.excluded (row : StoredEvent) : Bool := excludes row.suppressionReason

/-- The values that a call has hashed: its delivery and its policy. -/
def IngestEvent.hashed : IngestEvent σ → List Json
  | .ingest binding context input _ => [commandContent context input, binding.binding.policy.toJson]
  | .tick _ | .start _ | .perform _ _ | .deadlock _ | .elsewhere _ => []

/-- No two different values of the list have one hash. -/
def IngestHost.Distinguishes (host : IngestHost) (values : List Json) : Prop :=
  ∀ a ∈ values, ∀ b ∈ values, host.stableHash a = host.stableHash b → a.deepEqual b

/-- An investigation that an accepted event carries. -/
def IngestStore.Admitted (s : IngestStore σ) (id : String) : Prop :=
  ∃ d row, s.events.get d = some row ∧ row.disposition = .accepted ∧ row.investigationId = some id

/-- Elsewhere, the investigations of events are closed and archived, and not opened again. -/
def IngestEvent.Closes (ports : IngestPorts σ) (w : IngestWorld σ) : IngestEvent σ → Prop
  | .elsewhere rest => ∀ id, w.store.Admitted id →
    ports.Known rest id ∧ (ports.Ongoing rest id → ports.Ongoing w.store.rest id)
  | .tick _ | .ingest .. | .start _ | .perform _ _ | .deadlock _ => True

/-- The condition on the events of a run, with the values that they hash and a bound on the ids. -/
structure Meets (host : IngestHost) (ports : IngestPorts σ) (values : List Json) (bound : Nat)
    (w : IngestWorld σ) (e : IngestEvent σ) : Prop where
  closes : e.Closes ports w
  hashed : ∀ value ∈ e.hashed, value ∈ values
  drawn : (w.step host ports e).drawn ≤ bound

/-! ## A step -/

/-- The events and the keys stay, and no investigation of an event is opened. -/
structure Quiet (ports : IngestPorts σ) (s s' : IngestStore σ) : Prop where
  events : s'.events = s.events
  keys : s'.keys = s.keys
  known : ∀ id, s.Admitted id → ports.Known s.rest id → ports.Known s'.rest id
  opened : ∀ id, s.Admitted id → ports.Ongoing s'.rest id → ports.Ongoing s.rest id

theorem Quiet.refl (s : IngestStore σ) : Quiet ports s s :=
  ⟨rfl, rfl, fun _ _ => id, fun _ _ => id⟩

/-- What a run keeps of its calls and of the ids. -/
structure CallsInv (host : IngestHost) (values : List Json) (w : IngestWorld σ) : Prop where
  identified : ∀ d row, w.store.events.get d = some row → ∃ n < w.drawn, row.id = host.randomUUID n
  content : ∀ call ∈ w.calls, commandContent call.context call.input ∈ values
  policy : ∀ call ∈ w.calls, call.binding.binding.policy.toJson ∈ values
  acceptable : ∀ call ∈ w.calls, (∀ result, call.phase ≠ .finished result) →
    Acceptable call.input call.binding.binding

theorem CallsInv.unused (inv : CallsInv host values w) (fresh : host.DrawsFresh bound)
    (more : w.drawn < bound) (d : Delivery) (row : StoredEvent)
    (stored : w.store.events.get d = some row) : row.id ≠ host.randomUUID w.drawn := by
  obtain ⟨n, before, same⟩ := inv.identified d row stored
  intro taken
  have equal := fresh.distinct n (before.trans more) w.drawn more (same.symm.trans taken)
  omega

/-- A transaction that stores its delivery, with an id that no event has. -/
structure Stores (host : IngestHost) (ports : IngestPorts σ) (w : IngestWorld σ) (s' : IngestStore σ)
    (i : Nat) (call : IngestCall) (now : Int) (row : StoredEvent) (aggregate : TriggerKeyRow) :
    Prop where
  here : w.calls[i]? = some call
  begun : call.phase = .begun now
  unused : ∀ d old, w.store.events.get d = some old → old.id ≠ host.randomUUID w.drawn
  ingested : Ingested host ports call.binding.binding call.context
    ⟨call.input, host.randomUUID w.drawn, call.binding.binding.source, now⟩ now w.store s'
    (receipt row) row aggregate

theorem drawn_perform {i : Nat} {commit : Commit} {call : IngestCall} {now : Int}
    (here : w.calls[i]? = some call) (begun : call.phase = .begun now) :
    (w.step host ports (.perform i commit)).drawn = w.drawn + 1 := by
  simp only [IngestWorld.step, here, begun]

theorem step_cases (reopens : ports.NeverReopens) (fresh : host.DrawsFresh bound)
    (inv : CallsInv host values w) (meets : Meets host ports values bound w e) :
    Quiet ports w.store (w.step host ports e).store ∨
      ∃ i commit call now row aggregate, e = .perform i commit ∧
        Stores host ports w (w.step host ports e).store i call now row aggregate := by
  cases e with
  | tick ms => exact .inl (.refl _)
  | ingest binding context input connected => exact .inl (.refl _)
  | start i =>
    refine .inl ?_
    simp only [IngestWorld.step]
    split
    · split <;> exact .refl _
    · exact .refl _
  | deadlock i =>
    refine .inl ?_
    simp only [IngestWorld.step]
    split
    · split <;> exact .refl _
    · exact .refl _
  | elsewhere rest =>
    exact .inl ⟨rfl, rfl, fun id admitted _ => (meets.closes id admitted).1,
      fun id admitted => (meets.closes id admitted).2⟩
  | perform i commit =>
    cases here : w.calls[i]? with
    | none =>
      simp only [IngestWorld.step, here]
      exact .inl (.refl _)
    | some call =>
      cases begun : call.phase with
      | waiting =>
        simp only [IngestWorld.step, here, begun]
        exact .inl (.refl _)
      | finished result =>
        simp only [IngestWorld.step, here, begun]
        exact .inl (.refl _)
      | begun now =>
        have drawn := meets.drawn
        rw [drawn_perform here begun] at drawn
        have unused := inv.unused fresh drawn
        simp only [IngestWorld.step, here, begun]
        rcases @Transaction.perform_cases _ _ _ (w.body host ports call now) commit w.store with
          same | ⟨r, s', ran, same⟩
        · rw [same]
          exact .inl (.refl _)
        · obtain ⟨-, ⟨stored, found, again⟩ | ⟨row, aggregate, ingested⟩⟩ :=
            ingestBody_ok reopens unused ran
          · obtain rfl := again.store
            rcases same with same | same <;> rw [same] <;> exact .inl (.refl _)
          · obtain rfl := ingested.answers
            refine .inr ⟨i, commit, call, now, row, aggregate, rfl, here, begun, unused, ?_⟩
            rcases same with same | same <;> rw [same] <;> exact ingested

/-! ## The calls along a run -/

theorem mem_modify {α : Type} {l : List α} {i : Nat} {f : α → α} {b : α} (mem : b ∈ l.modify i f) :
    b ∈ l ∨ ∃ a, l[i]? = some a ∧ b = f a := by
  obtain ⟨j, found⟩ := mem_iff_getElem?.mp mem
  rw [List.getElem?_modify] at found
  obtain ⟨a, here, same⟩ := Option.map_eq_some_iff.mp found
  by_cases own : i = j
  · subst own
    exact .inr ⟨a, here, by simpa using same.symm⟩
  · rw [if_neg own] at same
    cases same
    exact .inl (mem_of_getElem? here)

/-- A call that is not through. -/
def IngestCall.Pending (call : IngestCall) : Prop := ∀ result, call.phase ≠ .finished result

theorem mem_calls_step {call : IngestCall} (mem : call ∈ (w.step host ports e).calls) :
    (∃ old ∈ w.calls, call.binding = old.binding ∧ call.context = old.context ∧
        call.input = old.input ∧ (call.Pending → old.Pending)) ∨
      ∃ connected, e = .ingest call.binding call.context call.input connected ∧
        (call.Pending → Acceptable call.input call.binding.binding) := by
  have stay (mem : call ∈ w.calls) : ∃ old ∈ w.calls, call.binding = old.binding ∧
      call.context = old.context ∧ call.input = old.input ∧ (call.Pending → old.Pending) :=
    ⟨call, mem, rfl, rfl, rfl, id⟩
  cases e with
  | tick ms => exact .inl (stay mem)
  | elsewhere rest => exact .inl (stay mem)
  | ingest binding context input connected =>
    rcases mem_append.mp mem with old | new
    · exact .inl (stay old)
    · obtain rfl := mem_singleton.mp new
      refine .inr ⟨connected, rfl, fun pending => ?_⟩
      unfold IngestHost.refusal at pending
      cases normal : normalizeEvent input binding.binding (host.randomUUID w.drawn) w.clock with
      | ok event => exact ⟨_, _, event, normal⟩
      | error failure =>
        simp only [normal] at pending
        exact absurd rfl (pending _)
  | start i =>
    simp only [IngestWorld.step] at mem
    split at mem
    next old here =>
      split at mem
      next waiting =>
        rcases mem_modify mem with same | ⟨old', here', rfl⟩
        · exact .inl (stay same)
        · cases here.symm.trans here'
          refine .inl ⟨old, mem_of_getElem? here, rfl, rfl, rfl, fun _ result absurd => ?_⟩
          rw [waiting] at absurd
          cases absurd
      next => exact .inl (stay mem)
    next => exact .inl (stay mem)
  | perform i commit =>
    simp only [IngestWorld.step] at mem
    split at mem
    next old here =>
      split at mem
      next =>
        rcases mem_modify mem with same | ⟨old', here', rfl⟩
        · exact .inl (stay same)
        · refine .inl ⟨old', mem_of_getElem? here', rfl, rfl, rfl, fun pending => ?_⟩
          exact absurd rfl (pending _)
      next => exact .inl (stay mem)
    next => exact .inl (stay mem)
  | deadlock i =>
    simp only [IngestWorld.step] at mem
    split at mem
    next old here =>
      split at mem
      next now begun =>
        rcases mem_modify mem with same | ⟨old', here', rfl⟩
        · exact .inl (stay same)
        · cases here.symm.trans here'
          refine .inl ⟨old, mem_of_getElem? here, rfl, rfl, rfl, fun _ result absurd => ?_⟩
          rw [begun] at absurd
          cases absurd
      next => exact .inl (stay mem)
    next => exact .inl (stay mem)

theorem drawn_le_step : w.drawn ≤ (w.step host ports e).drawn := by
  cases e <;> simp only [IngestWorld.step] <;> repeat' split
  all_goals simp

theorem CallsInv.step (reopens : ports.NeverReopens) (fresh : host.DrawsFresh bound)
    (inv : CallsInv host values w) (meets : Meets host ports values bound w e) :
    CallsInv host values (w.step host ports e) := by
  refine ⟨fun d row stored => ?_, fun call mem => ?_, fun call mem => ?_, fun call mem pending => ?_⟩
  · rcases step_cases reopens fresh inv meets with
      quiet | ⟨i, commit, call, now, new, _, rfl, stores⟩
    · obtain ⟨n, before, same⟩ := inv.identified d row (quiet.events ▸ stored)
      exact ⟨n, before.trans_le drawn_le_step, same⟩
    · rw [stores.ingested.events] at stored
      split at stored
      · cases stored
        refine ⟨w.drawn, ?_, congrArg StoredEvent.id stores.ingested.built⟩
        rw [drawn_perform stores.here stores.begun]
        exact Nat.lt_succ_self _
      · obtain ⟨n, before, same⟩ := inv.identified d row stored
        exact ⟨n, before.trans_le drawn_le_step, same⟩
  · rcases mem_calls_step mem with ⟨old, mem', -, context, input, -⟩ | ⟨connected, rfl, -⟩
    · rw [context, input]
      exact inv.content old mem'
    · exact meets.hashed _ (by simp [IngestEvent.hashed])
  · rcases mem_calls_step mem with ⟨old, mem', binding, -⟩ | ⟨connected, rfl, -⟩
    · rw [binding]
      exact inv.policy old mem'
    · exact meets.hashed _ (by simp [IngestEvent.hashed])
  · rcases mem_calls_step mem with ⟨old, mem', binding, -, input, before⟩ | ⟨connected, -, new⟩
    · rw [binding, input]
      exact inv.acceptable old mem' (before pending)
    · exact new pending

/-! ## The tables along a run -/

/-- What a run keeps of the events and of the keys that count them. -/
structure TablesInv (host : IngestHost) (ports : IngestPorts σ) (values : List Json)
    (s : IngestStore σ) : Prop where
  single : ∀ d d' row row', s.events.get d = some row → s.events.get d' = some row' →
    row.id = row'.id → d = d'
  delivered : ∀ d row, s.events.get d = some row → d = (row.event.source, row.event.sourceEventId)
  counted : ∀ k, ((s.keys.get k).map TriggerKeyRow.eventCount).getD 0 =
    s.events.toList.countP (·.fingerprint = k)
  pinned : ∀ k key, s.keys.get k = some key → ∃ p : TriggerPolicy, p.toJson ∈ values ∧
    key.policyHash = host.stableHash p.toJson
  known : ∀ id, s.Admitted id → ports.Known s.rest id
  active : ∀ d row id, s.events.get d = some row → row.disposition = .accepted →
    row.investigationId = some id → (∃ key, s.keys.get row.fingerprint = some key ∧
      key.activeInvestigationId = some id) ∨ ¬ ports.Ongoing s.rest id

theorem TablesInv.quiet {s s' : IngestStore σ} (inv : TablesInv host ports values s)
    (quiet : Quiet ports s s') : TablesInv host ports values s' := by
  refine ⟨?_, ?_, ?_, ?_, fun id admitted => ?_, fun d row id stored accepted own => ?_⟩
  · rw [quiet.events]
    exact inv.single
  · rw [quiet.events]
    exact inv.delivered
  · rw [quiet.events, quiet.keys]
    exact inv.counted
  · rw [quiet.keys]
    exact inv.pinned
  · have before : s.Admitted id := by
      unfold IngestStore.Admitted at admitted ⊢
      exact quiet.events ▸ admitted
    exact quiet.known id before (inv.known id before)
  · rw [quiet.events] at stored
    rw [quiet.keys]
    exact (inv.active d row id stored accepted own).imp_right fun closed goes =>
      closed (quiet.opened id ⟨d, row, stored, accepted, own⟩ goes)

variable {s' : IngestStore σ} {i : Nat} {call : IngestCall} {now : Int} {row : StoredEvent}
  {aggregate : TriggerKeyRow}

theorem keyAfter_countEvent_eventCount {r : EventReceipt} {windowMs : Nat} {excluded : Bool} :
    (keyAfter r (countEvent windowMs now excluded aggregate)).eventCount =
      aggregate.eventCount + 1 := by
  unfold keyAfter
  split <;> rfl

theorem keyAfter_countEvent_policyHash {r : EventReceipt} {windowMs : Nat} {excluded : Bool} :
    (keyAfter r (countEvent windowMs now excluded aggregate)).policyHash = aggregate.policyHash := by
  unfold keyAfter
  split <;> rfl

theorem keyAfter_countEvent_active {r : EventReceipt} {windowMs : Nat} {excluded : Bool} :
    (keyAfter r (countEvent windowMs now excluded aggregate)).activeInvestigationId =
      if r.disposition = .accepted then r.investigationId else aggregate.activeInvestigationId := by
  unfold keyAfter
  split <;> rfl

theorem TablesInv.stores (inv : TablesInv host ports values w.store) (calls : CallsInv host values w)
    (stores : Stores host ports w s' i call now row aggregate) :
    TablesInv host ports values s' := by
  obtain ⟨here, begun, unused, ingested⟩ := stores
  have own : row.id = host.randomUUID w.drawn := congrArg StoredEvent.id ingested.built
  have event := congrArg StoredEvent.event ingested.built
  have mem := mem_of_getElem? here
  refine ⟨fun d d' one other found found' same => ?_, fun d one found => ?_, fun k => ?_,
    fun k key found => ?_, fun id admitted => ?_, fun d one id found accepted carries => ?_⟩
  · rw [ingested.events] at found found'
    split at found <;> split at found'
    next first second => exact first.trans second.symm
    next =>
      cases found
      exact absurd (same.symm.trans own) (unused d' other found')
    next =>
      cases found'
      exact absurd (same.trans own) (unused d one found)
    next => exact inv.single d d' one other found found' same
  · rw [ingested.events] at found
    split at found
    next same =>
      cases found
      rw [same, event]
      rfl
    next => exact inv.delivered d one found
  · rw [(Table.toList_perm_cons ingested.absent ingested.events).countP_eq, countP_cons,
      ← inv.counted k]
    by_cases same : row.fingerprint = k
    · subst same
      rw [ingested.counted, ingested.before, if_pos (decide_eq_true rfl)]
      cases w.store.keys.get row.fingerprint with
      | none => exact keyAfter_countEvent_eventCount
      | some key => exact keyAfter_countEvent_eventCount
    · rw [ingested.others k (Ne.symm same), if_neg (by simpa using same), Nat.add_zero]
  · by_cases same : k = row.fingerprint
    · subst same
      rw [ingested.counted] at found
      cases found
      exact ⟨_, calls.policy call mem, keyAfter_countEvent_policyHash.trans ingested.pinned⟩
    · exact inv.pinned k key (ingested.others k same ▸ found)
  · obtain ⟨d, one, found, accepted, carries⟩ := admitted
    rw [ingested.events] at found
    split at found
    · cases found
      exact (ingested.new accepted id carries).2
    · exact ingested.known id (inv.known id ⟨d, one, found, accepted, carries⟩)
  · rw [ingested.events] at found
    split at found
    · cases found
      refine .inl ⟨_, ingested.counted, ?_⟩
      exact keyAfter_countEvent_active.trans ((if_pos accepted).trans carries)
    · by_cases same : one.fingerprint = row.fingerprint
      · rw [same]
        rcases inv.active d one id found accepted carries with ⟨key, held, points⟩ | closed
        · by_cases admits : row.disposition = .accepted
          · by_cases equal : row.investigationId = some id
            · refine .inl ⟨_, ingested.counted, ?_⟩
              exact keyAfter_countEvent_active.trans ((if_pos admits).trans equal)
            · refine .inr fun goes => ?_
              rcases ingested.opened id goes with before | ⟨-, new⟩
              · have unattended := (ingested.admitted admits).2.2
                rw [ingested.before, ← same, held] at unattended
                exact unattended id points before
              · exact equal new
          · refine .inl ⟨_, ingested.counted, ?_⟩
            rw [keyAfter_countEvent_active, if_neg (by exact admits), ingested.before, ← same, held]
            exact points
        · by_cases equal : row.disposition = .accepted ∧ row.investigationId = some id
          · refine .inl ⟨_, ingested.counted, ?_⟩
            exact keyAfter_countEvent_active.trans ((if_pos equal.1).trans equal.2)
          · refine .inr fun goes => ?_
            rcases ingested.opened id goes with before | new
            · exact closed before
            · exact equal new
      · rw [ingested.others _ same]
        rcases inv.active d one id found accepted carries with held | closed
        · exact .inl held
        · refine .inr fun goes => ?_
          rcases ingested.opened id goes with before | ⟨admits, new⟩
          · exact closed before
          · exact (ingested.new admits id new).1 (inv.known id ⟨d, one, found, accepted, carries⟩)

end Slide.Events
