import Slide.Agents.AgentRuns
import Slide.Library.Guarded

/-!
# A run ends once, with its answer or without

Every statement leaves a run as it is, stages its first completion, closes it without an answer or
completes it together with its message.  What has ended stays, a staged completion is cancelled or
becomes the answer, and the message of a run is there exactly when the run has completed with a text.
-/

namespace Slide.Agents

open Display Transaction Guarded List

/-- The answer that an event has become: only what was stored of it has been filled in. -/
def Acknowledges (staged event : CompleteEvent) : Prop :=
  ∃ messageParts messageSequence projection,
    event = { staged with messageParts, messageSequence, projection }

def stagedResult (event : CompleteEvent) : RunResult := ⟨true, some event, some "completed", none⟩

def committedResult (event : CompleteEvent) : RunResult := ⟨false, some event, some "completed", none⟩

/-- The message of an event is stored; one without a text has none. -/
def Published (sessionId : String) (event : CompleteEvent) (before after : Option MessageRow) : Prop :=
  (event.hasContent → ∃ message, after = some message ∧ message.sessionId = sessionId ∧
    message.content = event.content) ∧ (¬ event.hasContent → after = before)

/-- What a statement makes of a run and its message. -/
inductive RunStep : AgentRunRow → Option MessageRow → AgentRunRow → Option MessageRow → Prop
  | stay (row message) : RunStep row message row message
  | stage {row message event error} (running : row.state = .running) (first : row.result = none) :
      RunStep row message { row with result := some (stagedResult event), error } message
  | close {row message state result error} (running : row.state = .running)
      (ended : state ≠ .running) (unanswered : state ≠ .completed)
      (decided : row.result.any RunResult.completionPending = false ∨
        (state = .cancelled ∧ result = none)) :
      RunStep row message { row with state, result, error } message
  | complete {row message message' staged event} (running : row.state = .running)
      (pending : row.result.bind RunResult.event = some staged)
      (acknowledged : Acknowledges staged event)
      (published : Published row.sessionId event message message') :
      RunStep row message { row with
        state := .completed, result := some (committedResult event), error := none } message'

/-- A run and its message. -/
structure RunOk (row : AgentRunRow) (message : Option MessageRow) : Prop where
  running : row.state = .running → ∀ result ∈ row.result, ∃ event, result = stagedResult event
  completed : row.state = .completed → ∃ event, row.result = some (committedResult event) ∧
    Published row.sessionId event none message
  unanswered : row.state ≠ .completed → message = none

/-- A run later on. -/
structure AgentRunRow.Later (row row' : AgentRunRow) : Prop where
  actor : row'.actorId = row.actorId
  session : row'.sessionId = row.sessionId
  key : row'.idempotencyKey = row.idempotencyKey
  ended : row.state ≠ .running → row' = row
  staged : ∀ event, row.state = .running → row.result = some (stagedResult event) →
    row' = row ∨ (row'.state = .cancelled ∧ row'.result = none) ∨
      (row'.state = .completed ∧ ∃ done, Acknowledges event done ∧
        row'.result = some (committedResult done))

variable {row row' row'' : AgentRunRow} {message message' : Option MessageRow} {s s' : RunStore}
  {id : Nat} {host : MessageHost} {event staged : CompleteEvent}

theorem AgentRunRow.later_refl (row : AgentRunRow) : row.Later row :=
  ⟨rfl, rfl, rfl, fun _ => rfl, fun _ _ _ => .inl rfl⟩

theorem AgentRunRow.Later.trans (first : row.Later row') (second : row'.Later row'') :
    row.Later row'' := by
  refine ⟨second.actor.trans first.actor, second.session.trans first.session,
    second.key.trans first.key, fun ended => ?_, fun event running pending => ?_⟩
  · have same := first.ended ended
    exact (second.ended (same ▸ ended)).trans same
  · rcases first.staged event running pending with same | ⟨cancelled, none⟩ | ⟨completed, done⟩
    · rw [same] at second
      exact second.staged event running pending
    · have ended : row'.state ≠ .running := by
        rw [cancelled]
        nofun
      rw [second.ended ended]
      exact .inr (.inl ⟨cancelled, none⟩)
    · have ended : row'.state ≠ .running := by
        rw [completed]
        nofun
      rw [second.ended ended]
      exact .inr (.inr ⟨completed, done⟩)

/-! ## One statement -/

theorem RunStep.ok (step : RunStep row message row' message') (ok : RunOk row message) :
    RunOk row' message' := by
  cases step with
  | stay => exact ok
  | stage running first =>
    refine ⟨fun _ result mem => ⟨_, (some.inj mem).symm⟩, fun completed => ?_, ok.unanswered⟩
    cases running.symm.trans completed
  | close running ended unanswered =>
    refine ⟨fun running => absurd running ended, fun completed => absurd completed unanswered,
      fun _ => ok.unanswered ?_⟩
    rw [running]
    nofun
  | complete running pending acknowledged published =>
    have absent : message = none := by
      apply ok.unanswered
      rw [running]
      nofun
    subst absent
    exact ⟨nofun, fun _ => ⟨_, rfl, published⟩, fun unanswered => absurd rfl unanswered⟩

theorem RunStep.later (step : RunStep row message row' message') :
    row.Later row' := by
  cases step with
  | stay => exact row.later_refl
  | stage running first =>
    refine ⟨rfl, rfl, rfl, fun ended => absurd running ended, fun event _ pending => ?_⟩
    cases first.symm.trans pending
  | close running ended unanswered decided =>
    refine ⟨rfl, rfl, rfl, fun ended => absurd running ended, fun event _ pending => ?_⟩
    rcases decided with unstaged | cancelled
    · rw [pending] at unstaged
      cases unstaged
    · exact .inr (.inl cancelled)
  | complete running of_event acknowledged published =>
    refine ⟨rfl, rfl, rfl, fun ended => absurd running ended, fun event _ pending => ?_⟩
    rw [pending] at of_event
    cases of_event
    exact .inr (.inr ⟨rfl, _, acknowledged, rfl⟩)

theorem RunStep.staged_before (step : RunStep row message row' message') (ok : RunOk row message)
    (completed : row'.state = .completed) :
    row' = row ∨ ∃ staged done, row.state = .running ∧ row.result = some (stagedResult staged) ∧
      Acknowledges staged done ∧ row'.result = some (committedResult done) := by
  cases step with
  | stay => exact .inl rfl
  | stage running first => cases running.symm.trans completed
  | close running ended unanswered decided => exact absurd completed unanswered
  | complete running of_event acknowledged published =>
    cases result : row.result with
    | none =>
      rw [result] at of_event
      cases of_event
    | some pending =>
      obtain ⟨event, rfl⟩ := ok.running running pending result
      rw [result] at of_event
      cases of_event
      exact .inr ⟨_, _, running, rfl, acknowledged, rfl⟩

/-- What a statement makes of the tables. -/
structure StoreStep (s s' : RunStore) : Prop where
  runs : ∀ id row, s.runs.get id = some row → ∃ row', s'.runs.get id = some row' ∧
    RunStep row (s.messages.get id) row' (s'.messages.get id)
  absent : ∀ id, s.runs.get id = none →
    s'.runs.get id = none ∧ s'.messages.get id = s.messages.get id

theorem StoreStep.before (step : StoreStep s s') (id : Nat) (row' : AgentRunRow)
    (found' : s'.runs.get id = some row') : ∃ row, s.runs.get id = some row ∧
      RunStep row (s.messages.get id) row' (s'.messages.get id) := by
  cases found : s.runs.get id with
  | none =>
    rw [(step.absent id found).1] at found'
    cases found'
  | some row =>
    obtain ⟨row'', found'', step⟩ := step.runs id row found
    cases found''.symm.trans found'
    exact ⟨row, rfl, step⟩

theorem storeStep_of_same (runs : s'.runs = s.runs) (messages : s'.messages = s.messages) :
    StoreStep s s' := by
  refine ⟨fun id row found => ⟨row, runs ▸ found, ?_⟩, fun id absent => ⟨runs ▸ absent, ?_⟩⟩
  · rw [messages]
    exact .stay row _
  · rw [messages]

theorem storeStep_refl : StoreStep s s := storeStep_of_same rfl rfl

theorem storeStep_update {guard : AgentRunRow → Bool} {set : AgentRunRow → AgentRunRow}
    (each : ∀ row message, guard row = true → RunStep row message (set row) message) :
    StoreStep s (s.updateRun id guard set) := by
  unfold RunStore.updateRun
  refine ⟨fun j row found => ?_, fun j absent => ⟨?_, rfl⟩⟩
  · dsimp only
    rw [Table.get_updateWhere]
    split
    next same =>
      rw [← same, found]
      refine ⟨if guard row = true then set row else row, rfl, ?_⟩
      split
      next passes => exact each row _ passes
      next => exact .stay row _
    next => exact ⟨row, found, .stay row _⟩
  · dsimp only
    rw [Table.get_updateWhere]
    split
    next same =>
      rw [← same, absent]
      rfl
    next => exact absent

variable {run : AgentRun}

theorem storeStep_stage : StoreStep s (stageCompletion s run event) := by
  apply storeStep_update
  intro row message passes
  obtain ⟨-, -, running, first, -⟩ := of_decide_eq_true passes
  exact .stage running (Option.isNone_iff_eq_none.mp first)

theorem storeStep_failUnstaged : StoreStep s (failUnstagedCompletion s id) := by
  apply storeStep_update
  intro row message passes
  obtain ⟨running, first, -⟩ := of_decide_eq_true passes
  refine .close running nofun nofun (.inl ?_)
  rw [Option.isNone_iff_eq_none.mp first]
  rfl

theorem storeStep_finish {state : { s : AgentRunState // s ≠ .running }} {result : Option RunResult}
    {error : Option Json} : StoreStep s (finish s id state result error) := by
  unfold finish
  split
  · exact storeStep_refl
  next unanswered =>
    apply storeStep_update
    intro row message passes
    obtain ⟨running, -, unstaged⟩ := of_decide_eq_true passes
    exact .close running state.2 unanswered (.inl (Bool.eq_false_iff.mpr unstaged))

variable {actorId : Int} {sessionId : String}

theorem storeStep_cancel : StoreStep s (cancelForActor s id actorId sessionId) := by
  apply storeStep_update
  intro row message passes
  obtain ⟨-, -, running, -⟩ := of_decide_eq_true passes
  exact .close running nofun nofun (.inr ⟨rfl, rfl⟩)

/-! ## The transaction -/

theorem Acknowledges.refl (event : CompleteEvent) : Acknowledges event event := ⟨_, _, _, rfl⟩

theorem withTerminal_acknowledges (some_event : staged.withTerminal host id = some event) :
    Acknowledges staged event := by
  unfold CompleteEvent.withTerminal at some_event
  split at some_event
  · obtain ⟨persisted, -, rfl⟩ := Option.map_eq_some_iff.mp some_event
    exact ⟨_, _, _, rfl⟩
  · cases some_event
    exact .refl _

theorem storeAnswer_ok (ran : storeAnswer host s run staged = .ok (event, s')) :
    Acknowledges staged event ∧ s'.runs = s.runs ∧
      (∀ j, j ≠ run.id → s'.messages.get j = s.messages.get j) ∧
      Published run.sessionId staged (s.messages.get run.id) (s'.messages.get run.id) := by
  unfold storeAnswer at ran
  split at ran
  next texts =>
    dsimp only [storeMessage] at ran
    split at ran
    · cases ran
    next acknowledged parts =>
      split at ran
      next message store read =>
        split at ran
        · cases ran
        next agrees =>
          cases ran
          obtain ⟨found, rfl⟩ := Prod.mk.inj read
          obtain ⟨found, of_session⟩ := Option.filter_eq_some_iff.mp found
          refine ⟨⟨_, _, _, rfl⟩, rfl, fun j differ => ?_, fun _ => ?_, fun without => absurd texts without⟩
          · dsimp only
            rw [Table.get_insertNew, if_neg fun both => differ both.1]
          · exact ⟨message, found, of_decide_eq_true of_session, not_not.mp agrees⟩
      · cases ran
  next without =>
    cases ran
    exact ⟨.refl _, rfl, fun _ _ => rfl, fun texts => absurd texts without, fun _ => rfl⟩

theorem acknowledge_ok (ran : acknowledge host s run staged = .ok (event, s')) :
    Acknowledges staged event ∧ s'.runs = s.runs ∧
      (∀ j, j ≠ run.id → s'.messages.get j = s.messages.get j) ∧
      Published run.sessionId event (s.messages.get run.id) (s'.messages.get run.id) := by
  unfold acknowledge at ran
  split at ran
  · cases ran
  next answered store stored =>
    obtain ⟨⟨parts, sequence, projection, rfl⟩, runs, others, published⟩ := storeAnswer_ok stored
    split at ran
    next final terminal =>
      cases ran
      have same := withTerminal_acknowledges terminal
      obtain ⟨parts', sequence', projection', rfl⟩ := same
      exact ⟨⟨_, _, _, rfl⟩, runs, others, published⟩
    · cases ran

theorem getForActor_eq_some (found : s.getForActor id actorId sessionId = some run) :
    s.runs.get id = some run.toAgentRunRow ∧ run.id = id ∧ run.sessionId = sessionId := by
  unfold RunStore.getForActor at found
  split at found
  next row stored =>
    split at found
    next owned =>
      cases found
      exact ⟨stored, rfl, owned.2⟩
    · cases found
  · cases found

theorem storeStep_commit {answer : AgentRun} (ran : commitCompletion host run s = .ok (answer, s')) :
    StoreStep s s' := by
  unfold commitCompletion at ran
  split at ran
  · cases ran
  next current found =>
    obtain ⟨stored, of_id, of_session⟩ := getForActor_eq_some found
    split at ran
    · cases ran
    split at ran
    · cases ran
      exact storeStep_refl
    next ready =>
      rw [not_or, not_not] at ready
      split at ran
      · cases ran
      split at ran
      · cases ran
      next staged pending =>
        split at ran
        · cases ran
        split at ran
        · cases ran
        next event store acknowledged =>
          obtain ⟨same, runs, others, published⟩ := acknowledge_ok acknowledged
          rw [← of_id] at stored
          have kept : store.runs.get current.id = some current.toAgentRunRow := runs ▸ stored
          unfold setCompleted at ran
          dsimp only at ran
          rw [Table.updateWhere_of_pass kept (decide_eq_true ready.1)] at ran
          cases ran
          refine ⟨fun j row here => ?_, fun j absent => ?_⟩
          · dsimp only
            rw [Table.get_put, runs]
            split
            next at_j =>
              subst at_j
              cases stored.symm.trans here
              refine ⟨_, rfl, ?_⟩
              rw [← of_session, ← of_id] at published
              exact .complete ready.1 pending same published
            next differ =>
              refine ⟨row, here, ?_⟩
              rw [others j (of_id ▸ differ)]
              exact .stay row _
          · have differ : j ≠ current.id := by
              rintro rfl
              cases stored.symm.trans absent
            dsimp only
            rw [Table.get_put_ne differ, runs, others j (of_id ▸ differ)]
            exact ⟨absent, rfl⟩

/-! ## Claims -/

theorem byKey_eq_some {key : String} (found : s.byKey actorId key = some (id, row)) :
    s.runs.get id = some row ∧ row.actorId = actorId ∧ row.idempotencyKey = key := by
  unfold RunStore.byKey at found
  have same := List.find?_some found
  obtain ⟨actor, of_key⟩ := of_decide_eq_true same
  exact ⟨Table.mem_entries.mp (mem_of_find?_eq_some found), actor, of_key⟩

theorem byKey_eq_none {key : String} (missing : s.byKey actorId key = none)
    (found : s.runs.get id = some row) : ¬ (row.actorId = actorId ∧ row.idempotencyKey = key) := by
  unfold RunStore.byKey at missing
  intro same
  exact List.find?_eq_none.mp missing (id, row) (Table.mem_entries.mpr found) (decide_eq_true same)

theorem insertRun_cases {messageId key : String} :
    s.insertRun id actorId sessionId messageId key = s ∨
      (s.runs.get id = none ∧ s.byKey actorId key = none ∧
        s.insertRun id actorId sessionId messageId key = { s with
          runs := s.runs.put id ⟨actorId, sessionId, messageId, key, .running, none, none⟩ }) := by
  unfold RunStore.insertRun
  cases missing : s.byKey actorId key with
  | some found => exact .inl rfl
  | none =>
    unfold Table.insertNew
    cases absent : s.runs.get id with
    | some row => exact .inl rfl
    | none => exact .inr ⟨rfl, rfl, rfl⟩

/-! ## The processes -/

variable {w w' : RunWorld}

/-- A claim has been answered with the run of its key, and with whether it is its own. -/
def Answered (w : RunWorld) (i : Nat) (call : ClaimCall) (run : AgentRun) (created : Bool) : Prop :=
  (created = true ↔ run.id = i) ∧ ∃ row, w.store.runs.get run.id = some row ∧
    row.actorId = call.actorId ∧ row.idempotencyKey = call.idempotencyKey

structure RunInv (w : RunWorld) : Prop where
  ok : ∀ id row, w.store.runs.get id = some row → RunOk row (w.store.messages.get id)
  absent : ∀ id, w.store.runs.get id = none → w.store.messages.get id = none
  unique : ∀ i j row row', w.store.runs.get i = some row → w.store.runs.get j = some row' →
    row.actorId = row'.actorId → row.idempotencyKey = row'.idempotencyKey → i = j
  owner : ∀ id row, w.store.runs.get id = some row → ∃ call, w.claims[id]? = some call ∧
    call.actorId = row.actorId ∧ call.idempotencyKey = row.idempotencyKey
  answered : ∀ (i : Nat) call run created, w.claims[i]? = some call →
    call.phase = .answered run created → Answered w i call run created

/-- What later events keep: the runs, and the calls of `claim` but for how far they are. -/
structure WorldLater (w w' : RunWorld) : Prop where
  runs : ∀ id row, w.store.runs.get id = some row →
    ∃ row', w'.store.runs.get id = some row' ∧ row.Later row'
  claims : ∀ (i : Nat) call, w.claims[i]? = some call → ∃ phase, w'.claims[i]? = some { call with phase }

def RunSound (w w' : RunWorld) : Prop := RunInv w → RunInv w' ∧ WorldLater w w'

theorem WorldLater.refl (w : RunWorld) : WorldLater w w :=
  ⟨fun _ row found => ⟨row, found, row.later_refl⟩, fun _ call found => ⟨call.phase, found⟩⟩

theorem WorldLater.trans {w'' : RunWorld} (first : WorldLater w w') (second : WorldLater w' w'') :
    WorldLater w w'' := by
  refine ⟨fun id row found => ?_, fun i call found => ?_⟩
  · obtain ⟨row', found', later⟩ := first.runs id row found
    obtain ⟨row'', found'', later'⟩ := second.runs id row' found'
    exact ⟨row'', found'', later.trans later'⟩
  · obtain ⟨phase, found'⟩ := first.claims i call found
    obtain ⟨phase', found''⟩ := second.claims i _ found'
    exact ⟨phase', found''⟩

instance : Std.Refl RunSound := ⟨fun w inv => ⟨inv, .refl w⟩⟩

instance : IsTrans RunWorld RunSound := ⟨fun _ _ _ first second inv =>
  have ⟨inv', later⟩ := first inv
  have ⟨inv'', later'⟩ := second inv'
  ⟨inv'', later.trans later'⟩⟩

variable {i : Nat} {call : ClaimCall}

theorem Answered.later {created : Bool}
    (answered : Answered w i call run created) (later : WorldLater w w') :
    Answered w' i call run created := by
  obtain ⟨own, row, found, actor, key⟩ := answered
  obtain ⟨row', found', after⟩ := later.runs _ row found
  exact ⟨own, row', found', after.actor.trans actor, after.key.trans key⟩

theorem sound_of_store (step : StoreStep w.store w'.store) (claims : w'.claims = w.claims) :
    RunSound w w' := by
  intro inv
  have later : WorldLater w w' := by
    refine ⟨fun id row found => ?_, fun i call found => ⟨call.phase, claims ▸ found⟩⟩
    obtain ⟨row', found', step⟩ := step.runs id row found
    exact ⟨row', found', step.later⟩
  refine ⟨⟨fun id row' found' => ?_, fun id absent' => ?_, fun i j row row' at_i at_j actor key => ?_,
    fun id row' found' => ?_, fun i call run created here phase => ?_⟩, later⟩
  · obtain ⟨row, found, step⟩ := step.before id row' found'
    exact step.ok (inv.ok id row found)
  · have absent : w.store.runs.get id = none := by
      cases found : w.store.runs.get id with
      | none => rfl
      | some row =>
        obtain ⟨row', found', -⟩ := step.runs id row found
        cases absent'.symm.trans found'
    exact (step.absent id absent).2.trans (inv.absent id absent)
  · obtain ⟨old, found, after⟩ := step.before i row at_i
    obtain ⟨old', found', after'⟩ := step.before j row' at_j
    apply inv.unique i j old old' found found'
    · exact after.later.actor.symm.trans (actor.trans after'.later.actor)
    · exact after.later.key.symm.trans (key.trans after'.later.key)
  · obtain ⟨row, found, after⟩ := step.before id row' found'
    obtain ⟨call, here, actor, key⟩ := inv.owner id row found
    exact ⟨call, claims ▸ here, actor.trans after.later.actor.symm, key.trans after.later.key.symm⟩
  · exact (inv.answered i call run created (claims ▸ here) phase).later later

theorem sound_of_claim {phase : ClaimPhase} (here : w.claims[i]? = some call)
    (answer : RunInv w → ∀ run created, phase = .answered run created →
      Answered w i call run created) : RunSound w (w.claiming i call phase) := by
  intro inv
  obtain ⟨inside, -⟩ := List.getElem?_eq_some_iff.mp here
  have moved (j : Nat) : (w.claims.set i { call with phase })[j]? =
      if j = i then some { call with phase } else w.claims[j]? := by
    split
    next same => rw [same, List.getElem?_set_self inside]
    next differ => exact List.getElem?_set_ne (Ne.symm differ)
  have later : WorldLater w (w.claiming i call phase) := by
    refine ⟨fun _ row found => ⟨row, found, row.later_refl⟩, fun j other found => ?_⟩
    unfold RunWorld.claiming
    dsimp only
    rw [moved]
    split
    next same =>
      subst same
      cases here.symm.trans found
      exact ⟨phase, rfl⟩
    next => exact ⟨other.phase, found⟩
  refine ⟨⟨inv.ok, inv.absent, inv.unique, fun id row found => ?_,
    fun j other run created found of_phase => ?_⟩, later⟩
  · obtain ⟨other, found', actor, key⟩ := inv.owner id row found
    obtain ⟨phase', found''⟩ := later.claims id other found'
    exact ⟨_, found'', actor, key⟩
  · unfold RunWorld.claiming at found
    dsimp only at found
    rw [moved] at found
    split at found
    next same =>
      subst same
      cases found
      exact (answer inv run created of_phase).later later
    next => exact (inv.answered j other run created found of_phase).later later

theorem sound_append (called : call.phase = .called) :
    RunSound w { w with claims := w.claims ++ [call] } := by
  intro inv
  have kept (i : Nat) (other : ClaimCall) (here : w.claims[i]? = some other) :
      (w.claims ++ [call])[i]? = some other := by
    rw [List.getElem?_append_left (List.getElem?_eq_some_iff.mp here).1]
    exact here
  have later : WorldLater w { w with claims := w.claims ++ [call] } :=
    ⟨fun _ row found => ⟨row, found, row.later_refl⟩, fun i other here =>
      ⟨other.phase, kept i other here⟩⟩
  refine ⟨⟨inv.ok, inv.absent, inv.unique, fun id row found => ?_,
    fun i other run created here phase => ?_⟩, later⟩
  · obtain ⟨other, here, same⟩ := inv.owner id row found
    exact ⟨other, kept id other here, same⟩
  · dsimp only at here
    rcases Nat.lt_or_ge i w.claims.length with old | new
    · rw [List.getElem?_append_left old] at here
      exact (inv.answered i other run created here phase).later later
    · rw [List.getElem?_append_right new] at here
      obtain rfl := mem_singleton.mp (mem_of_getElem? here)
      cases called.symm.trans phase

theorem sound_put {new : AgentRunRow} (here : w.claims[i]? = some call)
    (absent : w.store.runs.get i = none)
    (missing : w.store.byKey call.actorId call.idempotencyKey = none)
    (actor_new : new.actorId = call.actorId) (key_new : new.idempotencyKey = call.idempotencyKey)
    (running : new.state = .running) (unstaged : new.result = none) :
    RunSound w { w with store := { w.store with runs := w.store.runs.put i new } } := by
  intro inv
  have get (j : Nat) := @Table.get_put _ _ _ w.store.runs i j new
  have later : WorldLater w { w with store := { w.store with runs := w.store.runs.put i new } } := by
    refine ⟨fun id row found => ⟨row, ?_, row.later_refl⟩, fun i call here => ⟨call.phase, here⟩⟩
    dsimp only
    rw [get, if_neg, found]
    rintro rfl
    cases absent.symm.trans found
  refine ⟨⟨fun id row found => ?_, fun id missing' => ?_, fun j k row row' at_j at_k actor key => ?_,
    fun id row found => ?_, fun j other run created found phase => ?_⟩, later⟩
  · dsimp only at found ⊢
    rw [get] at found
    split at found
    next same =>
      cases found
      refine ⟨fun _ result mem => ?_, fun completed => ?_, fun _ => same ▸ inv.absent i absent⟩
      · cases unstaged.symm.trans mem
      · cases running.symm.trans completed
    next => exact inv.ok id row found
  · dsimp only at missing' ⊢
    rw [get] at missing'
    split at missing'
    · cases missing'
    next => exact inv.absent id missing'
  · dsimp only at at_j at_k
    rw [get] at at_j at_k
    split at at_j
    next of_j =>
      cases at_j
      split at at_k
      next of_k => exact of_j.trans of_k.symm
      next =>
        have same := byKey_eq_none missing at_k
        exact absurd ⟨actor.symm.trans actor_new, key.symm.trans key_new⟩ same
    next =>
      split at at_k
      next =>
        cases at_k
        exact absurd ⟨actor.trans actor_new, key.trans key_new⟩ (byKey_eq_none missing at_j)
      next => exact inv.unique j k row row' at_j at_k actor key
  · dsimp only at found
    rw [get] at found
    split at found
    next same =>
      cases found
      exact ⟨call, same ▸ here, actor_new.symm, key_new.symm⟩
    next => exact inv.owner id row found
  · exact (inv.answered j other run created found phase).later later

theorem sound_insert (here : w.claims[i]? = some call) : RunSound w { w with
      store := w.store.insertRun i call.actorId call.sessionId call.messageId call.idempotencyKey } := by
  rcases @insertRun_cases w.store i call.actorId call.sessionId call.messageId call.idempotencyKey with
    same | ⟨absent, missing, inserted⟩
  · rw [same]
    exact refl_of RunSound w
  · rw [inserted]
    exact sound_put here absent missing rfl rfl rfl rfl

theorem claimStep_store (w : RunWorld) (i : Nat) (call : ClaimCall) (commit : Commit) :
    (w.claimStep i call commit).store = w.store ∨ (w.claimStep i call commit).store =
      w.store.insertRun i call.actorId call.sessionId call.messageId call.idempotencyKey := by
  unfold RunWorld.claimStep
  cases call.phase with
  | called =>
    dsimp only
    split
    · exact .inl rfl
    · exact .inr rfl
  | inserted =>
    dsimp only
    split
    · exact .inl rfl
    · exact .inl rfl
  | answered | thrown => exact .inl rfl

variable {commit : Commit}

theorem sound_claimStep
    (here : w.claims[i]? = some call) : RunSound w (w.claimStep i call commit) := by
  unfold RunWorld.claimStep
  cases call.phase with
  | called =>
    dsimp only
    split
    · exact sound_of_claim here fun _ _ _ absurd => by cases absurd
    · have inserted := sound_insert here
      apply trans_of RunSound inserted
      apply @sound_of_claim { w with
        store := w.store.insertRun i call.actorId call.sessionId call.messageId call.idempotencyKey }
      · exact here
      · intro _ run created phase
        split at phase <;> cases phase
  | inserted =>
    dsimp only
    split
    next id row found =>
      apply sound_of_claim here
      intro inv run created phase
      cases phase
      obtain ⟨stored, actor, key⟩ := byKey_eq_some found
      exact ⟨decide_eq_true_iff, row, stored, actor, key⟩
    next => exact sound_of_claim here fun _ _ _ absurd => by cases absurd
  | answered | thrown => exact refl_of RunSound w

theorem storeStep_completionStep {call : CompletionCall} :
    StoreStep w.store (w.completionStep host i call commit).store := by
  unfold RunWorld.completionStep
  cases call.phase with
  | called event =>
    dsimp only
    split
    · exact storeStep_refl
    · exact storeStep_refl
  | checked event =>
    dsimp only
    split
    · exact storeStep_refl
    · exact storeStep_stage
  | staged =>
    dsimp only
    split
    · exact storeStep_refl
    · exact storeStep_refl
  | recovering current =>
    dsimp only
    split
    · exact storeStep_refl
    · split
      · exact storeStep_refl
      · exact storeStep_refl
  | committing current =>
    have stored : StoreStep w.store (perform (commitCompletion host current) commit w.store).2 :=
      perform_keeps storeStep_refl fun _ _ => storeStep_commit
    dsimp only
    split
    · exact stored
    · exact stored
  | answered | thrown => exact storeStep_refl

theorem claims_completionStep {call : CompletionCall} :
    (w.completionStep host i call commit).claims = w.claims := by
  unfold RunWorld.completionStep RunWorld.completing
  cases call.phase with
  | called | checked | staged | committing =>
    dsimp only
    split <;> rfl
  | recovering current =>
    dsimp only
    split
    · rfl
    · split <;> rfl
  | answered | thrown => rfl

theorem step_cases (w : RunWorld) (e : RunEvent) :
    (StoreStep w.store (w.step host e).store ∧ (w.step host e).claims = w.claims) ∨
      (∃ call : ClaimCall, call.phase = .called ∧
        w.step host e = { w with claims := w.claims ++ [call] }) ∨
      ∃ i call commit, w.claims[i]? = some call ∧ w.step host e = w.claimStep i call commit := by
  cases e with
  | claim => exact .inr (.inl ⟨_, rfl, rfl⟩)
  | claimStep i commit =>
    dsimp only [RunWorld.step]
    split
    next call here => exact .inr (.inr ⟨i, call, commit, here, rfl⟩)
    next => exact .inl ⟨storeStep_refl, rfl⟩
  | complete | recover => exact .inl ⟨storeStep_refl, rfl⟩
  | completionStep i commit =>
    dsimp only [RunWorld.step]
    split
    · exact .inl ⟨storeStep_completionStep, claims_completionStep⟩
    · exact .inl ⟨storeStep_refl, rfl⟩
  | failUnstaged id => exact .inl ⟨storeStep_failUnstaged, rfl⟩
  | finish id state result error => exact .inl ⟨storeStep_finish, rfl⟩
  | cancel id actorId sessionId => exact .inl ⟨storeStep_cancel, rfl⟩
  | session | request => exact .inl ⟨storeStep_of_same rfl rfl, rfl⟩

theorem sound_step (w : RunWorld) (e : RunEvent) : RunSound w (w.step host e) := by
  rcases @step_cases host w e with ⟨stored, claims⟩ | ⟨call, called, same⟩ | ⟨i, call, commit, here, same⟩
  · exact sound_of_store stored claims
  · rw [same]
    exact sound_append called
  · rw [same]
    exact sound_claimStep here

theorem completed_before (inv : RunInv w) {e : RunEvent} {row' : AgentRunRow}
    (found : (w.step host e).store.runs.get id = some row') (completed : row'.state = .completed) :
    w.store.runs.get id = some row' ∨ ∃ row staged done, w.store.runs.get id = some row ∧
      row.state = .running ∧ row.result = some (stagedResult staged) ∧ Acknowledges staged done ∧
      row'.result = some (committedResult done) := by
  rcases @step_cases host w e with ⟨stored, -⟩ | ⟨call, -, same⟩ | ⟨i, call, commit, here, same⟩
  · obtain ⟨row, before, step⟩ := stored.before id row' found
    rcases step.staged_before (inv.ok id row before) completed with rfl | ⟨staged, done, rest⟩
    · exact .inl before
    · exact .inr ⟨row, staged, done, before, rest⟩
  · rw [same] at found
    exact .inl found
  · rw [same] at found
    rcases claimStep_store w i call commit with kept | inserted
    · exact .inl (kept ▸ found)
    · rw [inserted] at found
      rcases @insertRun_cases w.store i call.actorId call.sessionId call.messageId
        call.idempotencyKey with kept | ⟨-, -, put⟩
      · exact .inl (kept ▸ found)
      · rw [put] at found
        dsimp only at found
        rw [Table.get_put] at found
        split at found
        · cases found
          cases completed
        · exact .inl found

/-! ## Runs -/

theorem runInv_start (sessions : Table String Int) (requests : List InvestigationRequest) :
    RunInv (.start sessions requests) := by
  have none (id : Nat) (row : AgentRunRow) (found : Table.empty.get id = some row) : False := by
    cases (Table.get_empty id).symm.trans found
  refine ⟨fun id row found => (none id row found).elim, fun id _ => Table.get_empty id,
    fun i _ row _ found => (none i row found).elim, fun id row found => (none id row found).elim,
    fun i call _ _ found => ?_⟩
  cases found

/-- A completion of the run had been staged. -/
def WasStaged (host : MessageHost) (start : RunWorld) (events : List RunEvent) (id : Nat)
    (staged : CompleteEvent) : Prop :=
  ∃ earlier, earlier <+: events ∧ ∃ row, (runAgents host start earlier).store.runs.get id = some row ∧
    row.state = .running ∧ row.result = some (stagedResult staged)

/-- A run in which every run of the agent ends once, and has its answer exactly when it completed. -/
structure EndsOnce (host : MessageHost) (start : RunWorld) (events : List RunEvent) : Prop where
  one_run : ∀ i j row row', (runAgents host start events).store.runs.get i = some row →
    (runAgents host start events).store.runs.get j = some row' → row.actorId = row'.actorId →
    row.idempotencyKey = row'.idempotencyKey → i = j
  claimed : ∀ id row, (runAgents host start events).store.runs.get id = some row →
    ∃ call, (runAgents host start events).claims[id]? = some call ∧ call.actorId = row.actorId ∧
      call.idempotencyKey = row.idempotencyKey
  answered : ∀ (i : Nat) call run created, (runAgents host start events).claims[i]? = some call →
    call.phase = .answered run created → Answered (runAgents host start events) i call run created
  one_created : ∀ (i j : Nat) call call' run run',
    (runAgents host start events).claims[i]? = some call →
    (runAgents host start events).claims[j]? = some call' → call.phase = .answered run true →
    call'.phase = .answered run' true → call.actorId = call'.actorId →
    call.idempotencyKey = call'.idempotencyKey → i = j
  ended : ∀ earlier, earlier <+: events → ∀ id row,
    (runAgents host start earlier).store.runs.get id = some row → row.state ≠ .running →
    (runAgents host start events).store.runs.get id = some row
  staged : ∀ earlier, earlier <+: events → ∀ id row event,
    (runAgents host start earlier).store.runs.get id = some row → row.state = .running →
    row.result = some (stagedResult event) →
    ∃ row', (runAgents host start events).store.runs.get id = some row' ∧
      (row' = row ∨ (row'.state = .cancelled ∧ row'.result = none) ∨
        (row'.state = .completed ∧ ∃ done, Acknowledges event done ∧
          row'.result = some (committedResult done)))
  published : ∀ id row, (runAgents host start events).store.runs.get id = some row →
    row.state = .completed → ∃ event done, WasStaged host start events id event ∧
      Acknowledges event done ∧ row.result = some (committedResult done) ∧
      Published row.sessionId event none ((runAgents host start events).store.messages.get id)
  unpublished : ∀ id row, (runAgents host start events).store.runs.get id = some row →
    row.state ≠ .completed → (runAgents host start events).store.messages.get id = none

variable {start : RunWorld} {events earlier : List RunEvent}

theorem sound_of_initial (before : earlier <+: events) :
    RunSound (runAgents host start earlier) (runAgents host start events) :=
  related_of_initial sound_step before

theorem wasStaged_of_completed (init : RunInv start)
    (nothing : ∀ id row, start.store.runs.get id = some row → row.state ≠ .completed)
    (found : (runAgents host start events).store.runs.get id = some row)
    (completed : row.state = .completed) : ∃ event done, WasStaged host start events id event ∧
      Acknowledges event done ∧ row.result = some (committedResult done) := by
  induction events using List.reverseRecOn with
  | nil => exact absurd completed (nothing id row found)
  | append_singleton events e ih =>
    have inv : RunInv (runAgents host start events) := (sound_of_initial nil_prefix init).1
    have step : runAgents host start (events ++ [e]) = (runAgents host start events).step host e := by
      unfold runAgents
      rw [foldl_append]
      rfl
    rw [step] at found
    rcases completed_before inv found completed with same | ⟨old, staged, done, at_old, running, rest⟩
    · obtain ⟨event, done, ⟨earlier, before, staging⟩, rest⟩ := ih same
      exact ⟨event, done, ⟨earlier, before.trans (prefix_append ..), staging⟩, rest⟩
    · obtain ⟨pending, acknowledged, result⟩ := rest
      exact ⟨staged, done, ⟨events, prefix_append .., old, at_old, running, pending⟩,
        acknowledged, result⟩

theorem Acknowledges.published (same : Acknowledges staged event)
    (published : Published sessionId event message message') :
    Published sessionId staged message message' := by
  obtain ⟨_, _, _, rfl⟩ := same
  exact published

section Unreported

def ClaimPhase.reportsCreated : ClaimPhase → Bool
  | .answered _ created => created
  | _ => false

/-- Exactly one claim of a run's actor and key has reported it as created. -/
def ReportedOnce (w : RunWorld) : Prop :=
  ∀ id row, w.store.runs.get id = some row → ∃! i : Nat, ∃ call : ClaimCall,
    w.claims[i]? = some call ∧ call.actorId = row.actorId ∧
    call.idempotencyKey = row.idempotencyKey ∧ call.phase.reportsCreated = true

/-- The acknowledgement of the statement that inserts is lost, and the request comes again. -/
def unreported : List RunEvent :=
  [.claim 1 "s" "m" "k", .claimStep 0 .lost, .claim 1 "s" "m" "k", .claimStep 1 .done,
    .claimStep 1 .done]

end Unreported

end Slide.Agents
