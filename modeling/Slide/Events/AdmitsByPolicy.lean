import Slide.Events.EventIngestRun

/-!
# Ingestion admits what its policy allows

Every stored event has one transaction that stored it, and a delivery that comes again is answered from
its row or refused.  In a run in which no transaction counts an event under a window that a newer clock
has started, the window count of a key is the number of its events that came within the window.
-/

namespace Slide.Events

open Display (Json)
open Transaction (Commit perform)
open Guarded List

variable {σ : Type} {host : IngestHost} {ports : IngestPorts σ} {w w₀ : IngestWorld σ}
  {e : IngestEvent σ} {events : List (IngestEvent σ)} {values : List Json} {s s' : IngestStore σ}
  {i : Nat} {call : IngestCall} {now : Int} {row : StoredEvent} {aggregate : TriggerKeyRow}
  {bound : Nat}

/-! ## Windows -/

/-- The transaction that gets its locks has a clock no older than the start of the window that it
counts its event under. -/
def IngestEvent.InOrder (host : IngestHost) (w : IngestWorld σ) : IngestEvent σ → Prop
  | .perform i _ => ∀ call now, w.calls[i]? = some call → call.phase = .begun now →
    ∀ key, w.store.keys.get (host.triggerIdentity
        ⟨call.input, host.randomUUID w.drawn, call.binding.binding.source, now⟩
        call.binding.binding).fingerprint = some key → key.windowStartedAt ≤ now
  | .tick _ | .ingest .. | .start _ | .deadlock _ | .elsewhere _ => True

/-- The events that the window of a key counts: stored, not excluded, and received within it. -/
structure Window (host : IngestHost) (values : List Json) (s : IngestStore σ) (k : String)
    (key : TriggerKeyRow) (counted : List StoredEvent) : Prop where
  nodup : counted.Nodup
  length : counted.length = key.windowCount
  stored : ∀ row ∈ counted, row ∈ s.events.toList ∧ row.fingerprint = k ∧ row.excluded = false
  since : ∀ row ∈ counted, key.windowStartedAt ≤ row.event.receivedAt
  within : ∀ row ∈ counted, ∀ p : TriggerPolicy, p.toJson ∈ values →
    key.policyHash = host.stableHash p.toJson →
    row.event.receivedAt < key.windowStartedAt + p.windowMs

def WindowsInv (host : IngestHost) (values : List Json) (s : IngestStore σ) : Prop :=
  ∀ k key, s.keys.get k = some key → ∃ counted, Window host values s k key counted

theorem FrozenBinding.windowMs_pos (binding : FrozenBinding) : 0 < binding.binding.policy.windowMs := by
  obtain ⟨value, frozen⟩ := binding.frozen
  unfold freezeTriggerBinding at frozen
  split at frozen
  next valid =>
    rw [← Except.ok.inj frozen]
    exact valid.2.2.window.1.1
  next => cases frozen

theorem Window.empty {k : String} {key : TriggerKeyRow} (none : key.windowCount = 0) :
    Window host values s k key [] :=
  ⟨nodup_nil, none.symm, fun _ mem => absurd mem not_mem_nil,
    fun _ mem => absurd mem not_mem_nil, fun _ mem => absurd mem not_mem_nil⟩

theorem Window.mono {k : String} {key : TriggerKeyRow} {counted : List StoredEvent}
    (window : Window host values s k key counted)
    (more : ∀ row ∈ s.events.toList, row ∈ s'.events.toList) :
    Window host values s' k key counted :=
  ⟨window.nodup, window.length, fun row mem => ⟨more row (window.stored row mem).1,
    (window.stored row mem).2⟩, window.since, window.within⟩

theorem Stores.mem_toList (stores : Stores host ports w s' i call now row aggregate) :
    ∀ old ∈ w.store.events.toList, old ∈ s'.events.toList := by
  intro old mem
  have more := (Table.toList_perm_cons stores.ingested.absent stores.ingested.events).mem_iff (a := old)
  exact more.mpr (mem_cons_of_mem _ mem)

theorem Stores.new_mem (stores : Stores host ports w s' i call now row aggregate) :
    row ∈ s'.events.toList :=
  (Table.toList_perm_cons stores.ingested.absent stores.ingested.events).mem_iff.mpr mem_cons_self

theorem Stores.notMem
    (stores : Stores host ports w s' i call now row aggregate) : row ∉ w.store.events.toList := by
  intro mem
  obtain ⟨d, found⟩ := Table.mem_toList.mp mem
  exact stores.unused d row found (congrArg StoredEvent.id stores.ingested.built)

theorem Stores.receivedAt (stores : Stores host ports w s' i call now row aggregate) :
    row.event.receivedAt = now := by
  rw [congrArg StoredEvent.event stores.ingested.built]
  rfl

theorem Stores.excluded (stores : Stores host ports w s' i call now row aggregate) :
    row.excluded = (policyExclusion row.event call.binding.binding).isSome := by
  rw [congrArg StoredEvent.event stores.ingested.built]
  exact stores.ingested.reason

theorem keyAfter_countEvent_window {r : EventReceipt} {windowMs : Nat} {excluded : Bool} :
    (keyAfter r (countEvent windowMs now excluded aggregate)).windowCount =
        (countEvent windowMs now excluded aggregate).windowCount ∧
      (keyAfter r (countEvent windowMs now excluded aggregate)).windowStartedAt =
        (countEvent windowMs now excluded aggregate).windowStartedAt := by
  unfold keyAfter
  split <;> exact ⟨rfl, rfl⟩

theorem Stores.windowMs (distinguishes : host.Distinguishes values) (calls : CallsInv host values w)
    (stores : Stores host ports w s' i call now row aggregate) {p : TriggerPolicy}
    (mem : p.toJson ∈ values) (pinned : aggregate.policyHash = host.stableHash p.toJson) :
    p.windowMs = call.binding.binding.policy.windowMs :=
  TriggerPolicy.windowMs_of_deepEqual (distinguishes _ mem _
    (calls.policy call (mem_of_getElem? stores.here)) (pinned.symm.trans stores.ingested.pinned))

theorem Stores.kept (calls : CallsInv host values w) (windows : WindowsInv host values w.store)
    (stores : Stores host ports w s' i call now row aggregate)
    (ordered : ∀ key, w.store.keys.get row.fingerprint = some key → key.windowStartedAt ≤ now) :
    ∃ kept : List StoredEvent, kept.Nodup ∧
      (countEvent call.binding.binding.policy.windowMs now row.excluded aggregate).windowCount =
        kept.length + (if row.excluded then 0 else 1) ∧
      (∀ old ∈ kept, old ∈ w.store.events.toList ∧ old.fingerprint = row.fingerprint ∧
        old.excluded = false) ∧
      let start := (countEvent call.binding.binding.policy.windowMs now row.excluded
        aggregate).windowStartedAt
      (∀ old ∈ kept, start ≤ old.event.receivedAt ∧
        old.event.receivedAt < start + call.binding.binding.policy.windowMs) ∧
      start ≤ now ∧ now < start + call.binding.binding.policy.windowMs := by
  have positive := call.binding.windowMs_pos
  by_cases reset : now - aggregate.windowStartedAt ≥ call.binding.binding.policy.windowMs
  · refine ⟨[], nodup_nil, ?_, fun _ mem => absurd mem not_mem_nil,
      fun _ mem => absurd mem not_mem_nil, ?_⟩
    · simp only [countEvent, if_pos reset, length_nil]
    · simp only [countEvent, if_pos reset]
      omega
  · have mem := calls.policy call (mem_of_getElem? stores.here)
    obtain ⟨kept, before, window⟩ : ∃ kept, aggregate.windowStartedAt ≤ now ∧
        Window host values w.store row.fingerprint aggregate kept := by
      have same := stores.ingested.before
      cases found : w.store.keys.get row.fingerprint with
      | none =>
        rw [found, Option.getD_none] at same
        exact ⟨[], same ▸ le_refl now, .empty (same ▸ rfl)⟩
      | some key =>
        rw [found, Option.getD_some] at same
        obtain rfl := same
        obtain ⟨kept, window⟩ := windows _ _ found
        exact ⟨kept, ordered _ found, window⟩
    refine ⟨kept, window.nodup, ?_, window.stored, ?_⟩
    · simp only [countEvent, if_neg reset, window.length]
    · simp only [countEvent, if_neg reset]
      refine ⟨fun old inside => ⟨window.since old inside, ?_⟩, before, by omega⟩
      exact window.within old inside _ mem stores.ingested.pinned

theorem Stores.window (distinguishes : host.Distinguishes values) (calls : CallsInv host values w)
    (windows : WindowsInv host values w.store)
    (stores : Stores host ports w s' i call now row aggregate)
    (ordered : ∀ key, w.store.keys.get row.fingerprint = some key → key.windowStartedAt ≤ now) :
    ∃ counted key, s'.keys.get row.fingerprint = some key ∧
      Window host values s' row.fingerprint key counted ∧ (row.excluded = false → row ∈ counted) ∧
      key.windowCount = (countEvent call.binding.binding.policy.windowMs now row.excluded
        aggregate).windowCount ∧ key.policyHash = aggregate.policyHash := by
  obtain ⟨kept, nodup, length, stored, inside, start⟩ := stores.kept calls windows ordered
  have key := stores.ingested.counted
  rw [← stores.ingested.reason] at key
  change s'.keys.get row.fingerprint = some (keyAfter (receipt row) (countEvent _ now row.excluded _))
    at key
  have counts := @keyAfter_countEvent_window now aggregate (receipt row)
    call.binding.binding.policy.windowMs row.excluded
  have pinned := @keyAfter_countEvent_policyHash now aggregate (receipt row)
    call.binding.binding.policy.windowMs row.excluded
  have old (other : StoredEvent) (mem : other ∈ kept) : other ∈ s'.events.toList :=
    stores.mem_toList other (stored other mem).1
  cases out : row.excluded with
  | true =>
    rw [out] at key counts pinned length inside start
    refine ⟨kept, _, key, ⟨nodup, ?_, ?_, ?_, ?_⟩, nofun, counts.1, pinned⟩
    · rw [counts.1, length]
      rfl
    · exact fun other mem => ⟨old other mem, (stored other mem).2⟩
    · rw [counts.2]
      exact fun other mem => (inside other mem).1
    · rw [counts.2, pinned]
      intro other mem p known same
      rw [stores.windowMs distinguishes calls known same]
      exact (inside other mem).2
  | false =>
    rw [out] at key counts pinned length inside start
    have fresh : row ∉ kept := fun mem => stores.notMem (stored row mem).1
    refine ⟨row :: kept, _, key, ⟨nodup.cons fresh, ?_, ?_, ?_, ?_⟩, fun _ => mem_cons_self,
      counts.1, pinned⟩
    · rw [counts.1, length]
      rfl
    · intro other mem
      rcases mem_cons.mp mem with rfl | before
      · exact ⟨stores.new_mem, rfl, out⟩
      · exact ⟨old other before, (stored other before).2⟩
    · rw [counts.2]
      intro other mem
      rcases mem_cons.mp mem with rfl | before
      · exact stores.receivedAt ▸ start.1
      · exact (inside other before).1
    · rw [counts.2, pinned]
      intro other mem p known same
      rw [stores.windowMs distinguishes calls known same]
      rcases mem_cons.mp mem with rfl | before
      · exact stores.receivedAt ▸ start.2
      · exact (inside other before).2

theorem Stores.fingerprint (stores : Stores host ports w s' i call now row aggregate) :
    row.fingerprint = (host.triggerIdentity
      ⟨call.input, host.randomUUID w.drawn, call.binding.binding.source, now⟩
      call.binding.binding).fingerprint :=
  congrArg StoredEvent.fingerprint stores.ingested.built

theorem WindowsInv.step (reopens : ports.NeverReopens) (fresh : host.DrawsFresh bound)
    (distinguishes : host.Distinguishes values) (calls : CallsInv host values w)
    (windows : WindowsInv host values w.store) (meets : Meets host ports values bound w e)
    (ordered : e.InOrder host w) :
    WindowsInv host values (w.step host ports e).store := by
  intro k key found
  rcases step_cases reopens fresh calls meets with
    quiet | ⟨i, commit, call, now, row, aggregate, rfl, stores⟩
  · obtain ⟨counted, window⟩ := windows k key (quiet.keys ▸ found)
    exact ⟨counted, window.mono fun _ mem => quiet.events ▸ mem⟩
  · by_cases own : k = row.fingerprint
    · subst own
      obtain ⟨counted, key', found', window, -⟩ := stores.window distinguishes calls windows
        (stores.fingerprint ▸ ordered call now stores.here stores.begun)
      cases found.symm.trans found'
      exact ⟨counted, window⟩
    · rw [stores.ingested.others k own] at found
      obtain ⟨counted, window⟩ := windows k key found
      exact ⟨counted, window.mono stores.mem_toList⟩

/-! ## Admissions -/

/-- Enough events of the key were received within the window of the policy, the event among them. -/
def Reached (s : IngestStore σ) (p : TriggerPolicy) (row : StoredEvent) : Prop :=
  ∃ counted : List StoredEvent, counted.Nodup ∧ row ∈ counted ∧ p.threshold ≤ counted.length ∧
    (∀ one ∈ counted, one ∈ s.events.toList ∧ one.fingerprint = row.fingerprint ∧
      one.excluded = false) ∧
    ∀ one ∈ counted, ∀ other ∈ counted,
      one.event.receivedAt - other.event.receivedAt < p.windowMs

/-- What holds where a transaction of a call has accepted an event: `w` is the world that it finds and
`s'` what it leaves. -/
structure AdmittedAt (ports : IngestPorts σ) (w : IngestWorld σ) (s' : IngestStore σ)
    (binding : TriggerBinding) (row : StoredEvent) (ordered : Prop) : Prop where
  allowed : policyExclusion row.event binding = none
  alone : ∀ d other id, w.store.events.get d = some other → other.disposition = .accepted →
    other.fingerprint = row.fingerprint → other.investigationId = some id →
    ¬ ports.Ongoing w.store.rest id
  reached : binding.policy.criticalSingle = true ∧ row.event.severity = .critical ∨
    (ordered → Reached s' binding.policy row)

theorem Stores.alone (tables : TablesInv host ports values w.store)
    (stores : Stores host ports w s' i call now row aggregate) (accepted : row.disposition = .accepted)
    {d : Delivery} {other : StoredEvent} {id : String} (found : w.store.events.get d = some other)
    (before : other.disposition = .accepted) (same : other.fingerprint = row.fingerprint)
    (own : other.investigationId = some id) : ¬ ports.Ongoing w.store.rest id := by
  rcases tables.active d other id found before own with ⟨key, held, points⟩ | closed
  · have unattended := (stores.ingested.admitted accepted).2.2
    rw [stores.ingested.before, ← same, held] at unattended
    exact unattended id points
  · exact closed

theorem Stores.admittedAt (distinguishes : host.Distinguishes values) (calls : CallsInv host values w)
    (tables : TablesInv host ports values w.store)
    (stores : Stores host ports w s' i call now row aggregate) (accepted : row.disposition = .accepted)
    {ordered : Prop} (windows : ordered → WindowsInv host values w.store)
    (inOrder : ordered → ∀ key, w.store.keys.get row.fingerprint = some key →
      key.windowStartedAt ≤ now) :
    AdmittedAt ports w s' call.binding.binding row ordered := by
  have event := congrArg StoredEvent.event stores.ingested.built
  obtain ⟨allowed, enough, -⟩ := stores.ingested.admitted accepted
  refine ⟨event ▸ allowed, fun d other id => stores.alone tables accepted, ?_⟩
  rcases enough with enough | ⟨single, critical⟩
  · refine .inr fun holds => ?_
    have included : row.excluded = false := by
      rw [stores.excluded, event]
      exact congrArg Option.isSome allowed
    obtain ⟨counted, key, -, window, mem, count, pinned⟩ :=
      stores.window distinguishes calls (windows holds) (inOrder holds)
    rw [included] at count
    refine ⟨counted, window.nodup, mem included, ?_, window.stored, fun one inside other inside' => ?_⟩
    · rw [window.length, count]
      exact enough
    · have known := calls.policy call (mem_of_getElem? stores.here)
      have upper := window.within one inside _ known (pinned.trans stores.ingested.pinned)
      have lower := window.since other inside'
      omega
  · exact .inl ⟨single, event ▸ critical⟩

/-! ## Deliveries that come again -/

theorem readable_silent (actor : ActorContext) (investigationId : Option String) (s : IngestStore σ) :
    readable ports actor investigationId s = .ok ((), s) ∨
      ∃ failure, readable ports actor investigationId s = .error failure := by
  cases ran : readable ports actor investigationId s with
  | error failure => exact .inr ⟨failure, rfl⟩
  | ok result =>
    obtain ⟨⟨⟩, s'⟩ := result
    obtain rfl := readable_ok ran
    exact .inl rfl

theorem redeliver_cases (actor : ActorContext) (row : StoredEvent) (s : IngestStore σ) :
    redeliver ports actor row s = .ok (receipt row true, s) ∨
      ∃ failure, readable ports actor row.investigationId s = .error failure ∧
        redeliver ports actor row s = .error failure := by
  rcases readable_silent actor row.investigationId s with may | ⟨failure, refused⟩
  · exact .inl (Transaction.bind_of_ok may)
  · refine .inr ⟨failure, refused, ?_⟩
    change Except.bind (readable ports _ _ s) _ = _
    rw [refused]
    rfl

theorem ingestBody_of_stored {binding : TriggerBinding} {context : Option Json} {input : EventInput}
    {id : String} (acceptable : Acceptable input binding) (identified : Investigations.isIdentifier id)
    (unused : ∀ d row, s.events.get d = some row → row.id ≠ id)
    (there : s.events.get (binding.source, input.sourceEventId) = some row) :
    ingestBody host ports binding context input id now s =
      if row.commandHash = host.stableHash (commandContent context input) then
        redeliver ports binding.policy.actor row s
      else .error (.event .deliveryConflict) := by
  have normal : (asking fun _ => (normalizeEvent input binding id now).mapError IngestFailure.event) s =
      .ok (⟨input, id, binding.source, now⟩, s) := by
    rw [asking, acceptable.normalizeEvent identified now]
    rfl
  unfold ingestBody
  refine (Transaction.bind_of_ok normal).trans ?_
  dsimp only
  have kept : insertEvent (newRow host binding context ⟨input, id, binding.source, now⟩) s = s :=
    insertEvent_of_taken there
  refine (Transaction.bind_of_ok (t := s) (congrArg (fun s => Except.ok ((), s)) kept)).trans ?_
  refine (Transaction.bind_of_ok (a := some row) (t := s)
    (congrArg (fun row => Except.ok (row, s)) there)).trans ?_
  refine (Transaction.bind_of_ok (a := row) (t := s) rfl).trans ?_
  by_cases same : row.commandHash = host.stableHash (commandContent context input)
  · refine (Transaction.bind_of_ok (t := s) (if_pos same)).trans ?_
    rw [if_pos same, if_pos (unused _ _ there)]
  · rw [if_neg same]
    change Except.bind (Transaction.ensure _ _ s) _ = _
    rw [Transaction.ensure, if_neg same]
    rfl

/-! ## The run -/

/-- A transaction of a call has stored the row of a delivery: where it started, what it found and what
it left. -/
structure StoredBy (host : IngestHost) (ports : IngestPorts σ) (w₀ : IngestWorld σ)
    (earlier : List (IngestEvent σ)) (i : Nat) (commit : Commit) (call : IngestCall) (now : Int)
    (d : Delivery) (row : StoredEvent) : Prop where
  here : (w₀.run host ports earlier).calls[i]? = some call
  begun : call.phase = .begun now
  absent : (w₀.run host ports earlier).store.events.get d = none
  stored : (w₀.run host ports (earlier ++ [.perform i commit])).store.events.get d = some row
  event : row.event = ⟨call.input, row.id, call.binding.binding.source, now⟩
  commandHash : row.commandHash = host.stableHash (commandContent call.context call.input)
  fingerprint : row.fingerprint = (host.triggerIdentity row.event call.binding.binding).fingerprint
  admitted : row.disposition = .accepted → AdmittedAt ports (w₀.run host ports earlier)
    (w₀.run host ports (earlier ++ [.perform i commit])).store call.binding.binding row
    (Observes (IngestWorld.step host ports) (fun w e => e.InOrder host w) w₀
      (earlier ++ [.perform i commit]))

/-- What a call gets whose delivery is stored: `w` is the world that its transaction finds and `w'` the
one that it leaves. -/
structure Answered (host : IngestHost) (ports : IngestPorts σ) (w w' : IngestWorld σ)
    (original again : IngestCall) (now : Int) (row : StoredEvent) : Prop where
  equal : (commandContent again.context again.input).deepEqual
      (commandContent original.context original.input) →
    w.body host ports again now w.store = .ok (receipt row true, w.store) ∨
      ∃ failure, readable ports again.binding.binding.policy.actor row.investigationId w.store =
          .error failure ∧
        w.body host ports again now w.store = .error failure
  other : ¬ (commandContent again.context again.input).deepEqual
      (commandContent original.context original.input) →
    w.body host ports again now w.store = .error (.event .deliveryConflict)
  unchanged : w'.store = w.store

/-- What a run of the ingestion does with its deliveries. -/
structure AdmitsByPolicy (host : IngestHost) (ports : IngestPorts σ) (w₀ : IngestWorld σ)
    (events : List (IngestEvent σ)) : Prop where
  /-- A delivery has one row, and an id belongs to one delivery. -/
  single : ∀ d d' row row', (w₀.run host ports events).store.events.get d = some row →
    (w₀.run host ports events).store.events.get d' = some row' → row.id = row'.id → d = d'
  /-- The row of a delivery stays as it is. -/
  stays : ∀ earlier, earlier <+: events → ∀ d row,
    (w₀.run host ports earlier).store.events.get d = some row →
      (w₀.run host ports events).store.events.get d = some row
  /-- Every row was stored by a call, as its policy allows. -/
  stored : ∀ d row, (w₀.run host ports events).store.events.get d = some row →
    ∃ earlier i commit call now, earlier ++ [.perform i commit] <+: events ∧
      StoredBy host ports w₀ earlier i commit call now d row
  /-- A delivery that comes again changes nothing. -/
  again : ∀ first i commit original now d row,
    StoredBy host ports w₀ first i commit original now d row → ∀ earlier j commit' call now',
      first ++ [.perform i commit] <+: earlier → earlier ++ [.perform j commit'] <+: events →
      (w₀.run host ports earlier).calls[j]? = some call → call.phase = .begun now' →
      d = (call.binding.binding.source, call.input.sourceEventId) →
      Answered host ports (w₀.run host ports earlier)
        (w₀.run host ports (earlier ++ [.perform j commit'])) original call now' row
  /-- A key counts its events. -/
  counted : ∀ k, (((w₀.run host ports events).store.keys.get k).map
    TriggerKeyRow.eventCount).getD 0 =
      (w₀.run host ports events).store.events.toList.countP (·.fingerprint = k)

section Run

variable {rest : σ} {clock : Int}

theorem run_snoc : w₀.run host ports (events ++ [e]) = (w₀.run host ports events).step host ports e := by
  unfold IngestWorld.run
  rw [foldl_append]
  rfl

theorem drawn_run_le {earlier : List (IngestEvent σ)} (before : earlier <+: events) :
    (w₀.run host ports earlier).drawn ≤ (w₀.run host ports events).drawn := by
  obtain ⟨more, rfl⟩ := before
  induction more using reverseRecOn with
  | nil => rw [append_nil]
  | append_singleton more e ih =>
    rw [← append_assoc, run_snoc]
    exact ih.trans drawn_le_step

theorem observes_meets (closes : Observes (IngestWorld.step host ports)
    (fun w e => e.Closes ports w) w₀ events) :
    Observes (IngestWorld.step host ports) (Meets host ports (events.flatMap IngestEvent.hashed)
      (w₀.run host ports events).drawn) w₀ events := by
  intro earlier e before
  refine ⟨closes earlier e before, fun value mem => mem_flatMap.mpr ⟨e, ?_, mem⟩, ?_⟩
  · exact before.subset (mem_append_right _ (mem_singleton_self e))
  · have more : (w₀.run host ports _).drawn ≤ _ := drawn_run_le before
    rwa [run_snoc] at more

/-- What holds of the tables and of the calls along a run. -/
structure RunInv (host : IngestHost) (ports : IngestPorts σ) (values : List Json)
    (w : IngestWorld σ) : Prop where
  calls : CallsInv host values w
  tables : TablesInv host ports values w.store

theorem runInv_init : RunInv host ports values (.init rest clock) := by
  have empty (d : Delivery) (row : StoredEvent) :
      (IngestWorld.init rest clock).store.events.get d ≠ some row := fun absurd => by cases absurd
  have noCall (call : IngestCall) : call ∉ (IngestWorld.init rest clock).calls := not_mem_nil
  refine ⟨⟨?_, ?_, ?_, ?_⟩, ⟨?_, ?_, fun k => rfl, ?_, ?_, ?_⟩⟩
  · exact fun d row found => absurd found (empty d row)
  · exact fun call mem => absurd mem (noCall call)
  · exact fun call mem => absurd mem (noCall call)
  · exact fun call mem => absurd mem (noCall call)
  · exact fun d d' row row' found => absurd found (empty d row)
  · exact fun d row found => absurd found (empty d row)
  · exact fun k key found => by cases found
  · exact fun id ⟨d, row, found, _⟩ => absurd found (empty d row)
  · exact fun d row id found => absurd found (empty d row)

theorem RunInv.step (reopens : ports.NeverReopens) (fresh : host.DrawsFresh bound)
    (inv : RunInv host ports values w) (meets : Meets host ports values bound w e) : RunInv host ports values (w.step host ports e) := by
  refine ⟨inv.calls.step reopens fresh meets, ?_⟩
  rcases step_cases reopens fresh inv.calls meets with quiet | ⟨i, commit, call, now, row, _, rfl, stores⟩
  · exact inv.tables.quiet quiet
  · exact inv.tables.stores inv.calls stores

theorem runInv (reopens : ports.NeverReopens) (fresh : host.DrawsFresh bound)
    (observes : Observes (IngestWorld.step host ports) (Meets host ports values bound) (.init rest clock) events) :
    RunInv host ports values ((IngestWorld.init rest clock).run host ports events) :=
  observes.invariant runInv_init fun _ _ inv meets => inv.step reopens fresh meets

theorem windows_run (reopens : ports.NeverReopens) (fresh : host.DrawsFresh bound)
    (distinguishes : host.Distinguishes values)
    (observes : Observes (IngestWorld.step host ports) (Meets host ports values bound) (.init rest clock) events)
    (ordered : Observes (IngestWorld.step host ports) (fun w e => e.InOrder host w)
      (.init rest clock) events) :
    WindowsInv host values ((IngestWorld.init rest clock).run host ports events).store := by
  induction events using reverseRecOn with
  | nil => exact nofun
  | append_singleton events e ih =>
    obtain ⟨before, meets⟩ := observes.of_snoc
    obtain ⟨ordered, last⟩ := ordered.of_snoc
    rw [run_snoc]
    exact (ih before ordered).step reopens fresh distinguishes (runInv reopens fresh before).calls meets last

theorem stored_step (reopens : ports.NeverReopens) (fresh : host.DrawsFresh bound)
    (inv : CallsInv host values w) (meets : Meets host ports values bound w e) {d : Delivery} :
    (w.store.events.get d = some row → (w.step host ports e).store.events.get d = some row) ∧
      ((w.step host ports e).store.events.get d = some row → w.store.events.get d = some row ∨
        ∃ i commit call now aggregate, e = .perform i commit ∧ w.store.events.get d = none ∧
          Stores host ports w (w.step host ports e).store i call now row aggregate) := by
  rcases step_cases reopens fresh inv meets with
    quiet | ⟨i, commit, call, now, new, aggregate, rfl, stores⟩
  · rw [quiet.events]
    exact ⟨id, .inl⟩
  · rw [stores.ingested.events]
    constructor
    · intro found
      rw [if_neg, found]
      rintro rfl
      cases found.symm.trans stores.ingested.absent
    · intro found
      split at found
      next same =>
        cases found
        exact .inr ⟨i, commit, call, now, aggregate, rfl, same ▸ stores.ingested.absent, stores⟩
      next => exact .inl found

theorem stays_step (reopens : ports.NeverReopens) (fresh : host.DrawsFresh bound)
    (observes : Observes (IngestWorld.step host ports) (Meets host ports values bound) (.init rest clock) events)
    {earlier : List (IngestEvent σ)} (before : earlier <+: events) {d : Delivery}
    (found : ((IngestWorld.init rest clock).run host ports earlier).store.events.get d = some row) :
    ((IngestWorld.init rest clock).run host ports events).store.events.get d = some row := by
  obtain ⟨more, rfl⟩ := before
  induction more using reverseRecOn with
  | nil => rwa [append_nil]
  | append_singleton more e ih =>
    rw [← append_assoc] at observes ⊢
    obtain ⟨before, meets⟩ := observes.of_snoc
    rw [run_snoc]
    exact (stored_step reopens fresh (runInv reopens fresh before).calls meets).1 (ih before)

theorem storedBy_run (reopens : ports.NeverReopens) (fresh : host.DrawsFresh bound)
    (distinguishes : host.Distinguishes values)
    (observes : Observes (IngestWorld.step host ports) (Meets host ports values bound) (.init rest clock) events)
    {d : Delivery}
    (found : ((IngestWorld.init rest clock).run host ports events).store.events.get d = some row) :
    ∃ earlier i commit call now, earlier ++ [.perform i commit] <+: events ∧
      StoredBy host ports (.init rest clock) earlier i commit call now d row := by
  induction events using reverseRecOn with
  | nil => cases found
  | append_singleton events e ih =>
    obtain ⟨before, meets⟩ := observes.of_snoc
    have inv := runInv reopens fresh before
    rw [run_snoc] at found
    rcases (stored_step reopens fresh inv.calls meets).2 found with
      old | ⟨i, commit, call, now, aggregate, rfl, absent, stores⟩
    · obtain ⟨earlier, i, commit, call, now, inside, stored⟩ := ih before old
      exact ⟨earlier, i, commit, call, now, inside.trans (prefix_append _ _), stored⟩
    · refine ⟨events, i, commit, call, now, prefix_rfl, stores.here, stores.begun, absent, ?_, ?_, ?_, ?_,
        fun accepted => ?_⟩
      · rw [run_snoc]
        exact found
      · rw [congrArg StoredEvent.event stores.ingested.built, congrArg StoredEvent.id stores.ingested.built]
        rfl
      · exact congrArg StoredEvent.commandHash stores.ingested.built
      · rw [congrArg StoredEvent.event stores.ingested.built]
        exact stores.fingerprint
      · rw [run_snoc]
        refine stores.admittedAt distinguishes inv.calls inv.tables accepted (fun ordered => ?_)
          fun ordered => ?_
        · exact windows_run reopens fresh distinguishes before ordered.of_snoc.1
        · exact stores.fingerprint ▸ ordered.of_snoc.2 call now stores.here stores.begun

theorem answered {original : IngestCall} {commit : Commit} (fresh : host.DrawsFresh bound)
    (distinguishes : host.Distinguishes values) (more : w.drawn < bound)
    (inv : RunInv host ports values w) (here : w.calls[i]? = some call) (begun : call.phase = .begun now)
    (content : commandContent original.context original.input ∈ values)
    (hash : row.commandHash = host.stableHash (commandContent original.context original.input))
    (there : w.store.events.get (call.binding.binding.source, call.input.sourceEventId) = some row) :
    Answered host ports w (w.step host ports (.perform i commit)) original call now row := by
  have mem := mem_of_getElem? here
  have acceptable := inv.calls.acceptable call mem fun result absurd => by
    rw [begun] at absurd
    cases absurd
  have ran : w.body host ports call now w.store =
      if row.commandHash = host.stableHash (commandContent call.context call.input) then
        redeliver ports call.binding.binding.policy.actor row w.store
      else .error (.event .deliveryConflict) :=
    ingestBody_of_stored acceptable (fresh.identifier _ more) (inv.calls.unused fresh more) there
  have again := @redeliver_cases _ ports call.binding.binding.policy.actor row w.store
  refine ⟨fun equal => ?_, fun differ => ?_, ?_⟩
  · have same : row.commandHash = host.stableHash (commandContent call.context call.input) := by
      rw [hash, IngestHost.stableHash, IngestHost.stableHash]
      exact congrArg host.hash (Eq.symm equal)
    rw [ran, if_pos same]
    exact again
  · rw [ran, if_neg]
    intro same
    exact differ (distinguishes _ (inv.calls.content call mem) _ content (same.symm.trans hash))
  · have result : w.body host ports call now w.store = .ok (receipt row true, w.store) ∨
        ∃ failure, w.body host ports call now w.store = .error failure := by
      rw [ran]
      split
      · exact again.imp_right fun ⟨failure, refused⟩ => ⟨failure, refused.2⟩
      · exact .inr ⟨_, rfl⟩
    simp only [IngestWorld.step, here, begun]
    unfold perform
    rcases result with result | ⟨failure, result⟩
    · rw [result]
      cases commit <;> rfl
    · rw [result]

/-- Ingestion admits exactly what its policy allows. -/
theorem admits_by_policy (rest : σ) (clock : Int) (events : List (IngestEvent σ))
    (reopens : ports.NeverReopens)
    (fresh : host.DrawsFresh ((IngestWorld.init rest clock).run host ports events).drawn)
    (distinguishes : host.Distinguishes (events.flatMap IngestEvent.hashed))
    (closes : Observes (IngestWorld.step host ports) (fun w e => e.Closes ports w) (.init rest clock)
      events) :
    AdmitsByPolicy host ports (.init rest clock) events := by
  have observes := observes_meets closes
  have inv := runInv reopens fresh observes
  refine ⟨inv.tables.single, fun earlier before d row => stays_step reopens fresh observes before,
    fun d row => storedBy_run reopens fresh distinguishes observes, ?_, inv.tables.counted⟩
  intro first i commit original now d row stored earlier j commit' call now' before inside here begun own
  have whole := (prefix_append earlier _).trans inside
  have later := runInv reopens fresh (observes.of_prefix whole)
  have start := runInv reopens fresh (observes.of_prefix
    ((prefix_append first _).trans (before.trans whole)))
  have more : ((IngestWorld.init rest clock).run host ports _).drawn ≤ _ := drawn_run_le inside
  rw [run_snoc, drawn_perform here begun] at more
  rw [run_snoc]
  refine answered fresh distinguishes more later here begun
    (start.calls.content original (mem_of_getElem? stored.here)) stored.commandHash ?_
  exact own ▸ stays_step reopens fresh (observes.of_prefix whole) before stored.stored

end Run

/-! ## Two runs -/

/-- Investigations with their lifecycles, and whether the actor has lost its rights. -/
structure Desk where
  investigations : List (String × Investigations.InvestigationLifecycle)
  revoked : Bool := false

def Desk.load (id : String) (desk : Desk) : Except IngestFailure AdmissionInvestigation :=
  match desk.investigations.find? fun entry => decide (entry.1 = id) with
  | some entry => .ok ⟨id, id, .ops, 1, "", entry.2, 1, ⟨.service, 7⟩, []⟩
  | none => .error (.investigation .notFound)

/-- An authorization that looks at nothing else, and a budget that always suffices. -/
def deskPorts : IngestPorts Desk where
  load := Desk.load
  authorize _ _ _ desk := if desk.revoked then .error (.investigation .operationForbidden) else .ok ()
  session id desk := (desk.load id).toOption.map AdmissionInvestigation.sessionId
  createOnConnection _ command desk :=
    if (desk.load command.idempotencyKey).toOption.isSome then .error .database
    else .ok (⟨command.idempotencyKey, some ("request of " ++ command.idempotencyKey)⟩,
      { desk with investigations := desk.investigations ++ [(command.idempotencyKey, .isOpen)] })
  prepareDomain _ desk := .ok ((), desk)
  reserveExecution command desk := .ok (.accepted false ⟨"reservation", command.requestId, "operation",
    command.domain, .reserved, command.reserveTokens, command.reserveCostMicros, 0, 0, .reserved, none⟩,
    desk)

def deskHost : IngestHost where
  sha256 text := text
  numberText q := toString q.num
  column := id
  randomUUID n := "event-" ++ toString n

def latencyPolicy : TriggerPolicy where
  id := "latency"
  version := 1
  domain := "operations"
  actor :=
    { userId := 7
      permissions := ["instance:view"]
      instanceScopes := [(101, "read-only")]
      resourceBoundary := some ⟨[101], [], []⟩
      principalKind := some .service
      sessionVersion := 1 }
  profileId := .ops
  profileVersion := 1
  kinds := ["failure"]
  resources := [⟨⟨.databaseInstance, 101⟩, .primary⟩]
  threshold := 3
  windowMs := 1000
  cooldownMs := 60000
  criticalSingle := true
  reserveTokens := 100
  reserveCostMicros := 100

def latencyBinding : FrozenBinding where
  binding := ⟨"collector", true, [.collector], latencyPolicy⟩
  frozen := ⟨⟨"collector", true, [.collector], latencyPolicy⟩, by rfl⟩

def latencyEvent (delivery : String) (severity : Severity) : EventInput where
  sourceEventId := delivery
  kind := "failure"
  subject := .resource ⟨.databaseInstance, 101⟩
  occurredAt := ⟨"2026-10-12T12:00:00Z", some 1791806400000⟩
  severity := severity
  summary := "latency"
  origin := .collector
  stableErrorCode := "TIMEOUT"
  callsite := "collector.ts:read"

/-- An accepted delivery comes again after the actor has lost its rights. -/
def revokedRun : List (IngestEvent Desk) :=
  [.ingest latencyBinding none (latencyEvent "a" .critical) true, .start 0, .perform 0 .done,
    .elsewhere ⟨[("event:event-1", .isOpen)], true⟩,
    .ingest latencyBinding none (latencyEvent "a" .critical) true, .start 1, .perform 1 .done]

/-- The transaction of the first delivery gets its locks after the second one has started the window. -/
def lateRun : List (IngestEvent Desk) :=
  [.ingest latencyBinding none (latencyEvent "a" .error) true,
    .ingest latencyBinding none (latencyEvent "b" .error) true,
    .ingest latencyBinding none (latencyEvent "c" .error) true,
    .start 0, .tick 900, .start 1, .perform 1 .done, .perform 0 .done,
    .tick 900, .start 2, .perform 2 .done]

def deskRun (events : List (IngestEvent Desk)) : IngestWorld Desk :=
  (IngestWorld.init ⟨[], false⟩ 0).run deskHost deskPorts events

theorem late_rows :
    (deskRun lateRun).store.events.toList.map (fun row => row.event.receivedAt) = [1800, 0, 900] ∧
      ((deskRun lateRun).store.events.get ("collector", "c")).map (fun row =>
        (row.disposition, row.event.severity)) = some (.accepted, .error) := by decide +kernel

theorem not_reached_late {row : StoredEvent} :
    ¬ Reached (deskRun lateRun).store latencyPolicy row := by
  rintro ⟨counted, nodup, -, enough, stored, within⟩
  have three : (deskRun lateRun).store.events.toList.length ≤ counted.length := by
    have length := congrArg length late_rows.1
    rw [length_map] at length
    rw [length]
    exact enough
  have all := (nodup.subperm fun one mem => (stored one mem).1).perm_of_length_le three
  have found (t : Int) (mem : t ∈ [(1800 : Int), 0, 900]) :
      ∃ one ∈ counted, one.event.receivedAt = t := by
    rw [← late_rows.1] at mem
    obtain ⟨one, mem, same⟩ := mem_map.mp mem
    exact ⟨one, all.mem_iff.mpr mem, same⟩
  obtain ⟨last, mem, at_last⟩ := found 1800 (by decide)
  obtain ⟨first, mem', at_first⟩ := found 0 (by decide)
  have near := within last mem first mem'
  rw [at_last, at_first] at near
  exact absurd near (by decide)

/-- A delivery that comes again with equal content may be refused, and three events within nearly two
windows may be enough. -/
theorem refuses_and_admits_late :
    ((deskRun revokedRun).calls.map fun call => (call.input, call.phase)) =
        [(latencyEvent "a" .critical, .finished (.ok ⟨"event-1", false, .accepted, none,
            some "event:event-1", some "request of event:event-1", none⟩)),
          (latencyEvent "a" .critical, .finished (.error (.investigation .operationForbidden)))] ∧
      ∃ row, (deskRun lateRun).store.events.get ("collector", "c") = some row ∧
        row.disposition = .accepted ∧ row.event.severity = .error ∧
        ¬ Reached (deskRun lateRun).store latencyPolicy row := by
  refine ⟨by decide +kernel, ?_⟩
  obtain ⟨row, found, same⟩ := Option.map_eq_some_iff.mp late_rows.2
  exact ⟨row, found, congrArg Prod.fst same, congrArg Prod.snd same, not_reached_late⟩

theorem desk_load_append {id id' : String} {lifecycle : Investigations.InvestigationLifecycle}
    {desk : Desk} : Desk.load id { desk with investigations := desk.investigations ++ [(id', lifecycle)] } =
      if (desk.load id).toOption.isSome ∨ id' ≠ id then desk.load id
      else .ok ⟨id, id, .ops, 1, "", lifecycle, 1, ⟨.service, 7⟩, []⟩ := by
  unfold Desk.load
  rw [find?_append]
  cases desk.investigations.find? fun entry => decide (entry.1 = id) with
  | some entry => rfl
  | none =>
    by_cases same : id' = id
    · simp [same, Except.toOption]
    · simp [same, Except.toOption]

theorem desk_neverReopens : deskPorts.NeverReopens := by
  have absent {id : String} {desk : Desk} (unknown : ¬ (desk.load id).toOption.isSome) :
      ¬ deskPorts.Known desk id := by
    rintro ⟨investigation, loaded⟩
    exact unknown (by rw [show desk.load id = _ from loaded]; rfl)
  refine ⟨fun actor command desk created desk' made => ?_, fun domain desk desk' same => ?_,
    fun command desk admission desk' same => ?_⟩
  · have made : (if (desk.load command.idempotencyKey).toOption.isSome then _ else _) = _ := made
    split at made
    · cases made
    next unknown =>
      cases made
      refine ⟨absent unknown, ?_, fun id known => ?_, fun id other goes => ?_⟩
      · refine ⟨_, desk_load_append.trans (if_neg ?_)⟩
        exact fun either => either.elim unknown fun differ => differ rfl
      · obtain ⟨investigation, loaded⟩ := known
        refine ⟨investigation, desk_load_append.trans ((if_pos (.inl ?_)).trans loaded)⟩
        rw [show desk.load id = _ from loaded]
        rfl
      · obtain ⟨investigation, loaded, going⟩ := goes
        exact ⟨investigation, (desk_load_append.trans (if_pos (.inr (Ne.symm other)))).symm.trans loaded,
          going⟩
  · cases same
    exact .refl _
  · cases same
    exact .refl _

theorem admits_by_policy_late :
    AdmitsByPolicy deskHost deskPorts (.init ⟨[], false⟩ 0) lateRun := by
  refine admits_by_policy ⟨[], false⟩ 0 lateRun desk_neverReopens ⟨?_, ?_⟩ ?_ ?_
  · have drawn : (deskRun lateRun).drawn = 6 := by rfl
    change ∀ m < (deskRun lateRun).drawn, _
    rw [drawn]
    decide +kernel
  · have drawn : (deskRun lateRun).drawn = 6 := by rfl
    change ∀ l < (deskRun lateRun).drawn, ∀ m < (deskRun lateRun).drawn, _
    rw [drawn]
    decide
  · unfold IngestHost.Distinguishes
    decide +kernel
  · have anywhere : ∀ e ∈ lateRun, ∀ w, IngestEvent.Closes deskPorts w e := by
      intro e mem w
      simp only [lateRun, mem_cons, not_mem_nil, or_false] at mem
      rcases mem with rfl | rfl | rfl | rfl | rfl | rfl | rfl | rfl | rfl | rfl | rfl <;> exact trivial
    exact observes_nil.append anywhere

end Slide.Events
