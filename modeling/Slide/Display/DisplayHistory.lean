import Slide.Display.DisplayStream
import Slide.Library.Run

/-!
# The display stream is gap-free

The history of a reader is the list of values it was given, each with its result.  The stored
projection is read off the events that were applied: the last snapshot, then the deltas since.
-/

namespace Slide.Display

open Transition List

/-- A value a reader was given and what became of it. -/
structure DisplayStep where
  value : Option DisplayStreamEvent
  result : DisplayResult

/-- One value of the stream. -/
def DisplayStreamState.Step (host : Host) (s : DisplayStreamState) (e : DisplayStep)
    (t : DisplayStreamState) : Prop :=
  reduceDisplayStream host s e.value = (t, e.result)

/-- A reader of a subscription that has seen nothing yet. -/
def DisplayStreamState.initial (subscriptionId : String) (recovering : Bool) : DisplayStreamState :=
  { subscriptionId, recovering }

/-- The event of a step that was applied. -/
def DisplayStep.appliedEvent (e : DisplayStep) : Option DisplayStreamEvent :=
  if e.result = .applied then readDisplayStreamEvent e.value else none

/-- The events applied so far, in order. -/
def appliedEvents (es : List DisplayStep) : List DisplayStreamEvent :=
  es.filterMap DisplayStep.appliedEvent

/-- A step that applied an event of this type. -/
def DisplayStep.Applies (e : DisplayStep) (type : DisplayEventType) : Prop :=
  ∃ event ∈ e.appliedEvent, event.type = type

/-- The intervals of the deltas follow one another without gap or overlap. -/
def Consecutive (position : Int) : List DisplayStreamEvent → Prop
  | [] => True
  | d :: rest => d.stream.fromSeq = position + 1 ∧ d.stream.fromSeq ≤ d.stream.toSeq ∧
      Consecutive d.stream.toSeq rest

/-- The end of the last interval. -/
def endOf (position : Int) : List DisplayStreamEvent → Int
  | [] => position
  | d :: rest => endOf d.stream.toSeq rest

/-- The event is one of the epoch, run and turn of the cursor. -/
def InStream (c : DisplayCursor) (e : DisplayStreamEvent) : Prop :=
  e.stream.streamEpoch = c.streamEpoch ∧ e.stream.runId = c.runId ∧ e.stream.turnId = c.turnId

section History

variable {host : Host} {s t : DisplayStreamState} {e : DisplayStep} {es fs : List DisplayStep}
  {deltas : List DisplayStreamEvent} {event d : DisplayStreamEvent} {position : Int}

theorem readDisplayStreamEvent_eq_some {value : Option DisplayStreamEvent} :
    readDisplayStreamEvent value = some event ↔ value = some event ∧ event.valid := by
  simp [readDisplayStreamEvent, Option.filter_eq_some_iff]

theorem appliedEvents_snoc :
    appliedEvents (es ++ [e]) = appliedEvents es ++ e.appliedEvent.toList := by
  cases applied : e.appliedEvent <;> simp [appliedEvents, applied]

theorem Consecutive.snoc (consecutive : Consecutive position deltas)
    (next : d.stream.fromSeq = endOf position deltas + 1)
    (interval : d.stream.fromSeq ≤ d.stream.toSeq) : Consecutive position (deltas ++ [d]) := by
  induction deltas generalizing position with
  | nil => exact ⟨next, interval, trivial⟩
  | cons first rest ih =>
    obtain ⟨starts, within, rest'⟩ := consecutive
    exact ⟨starts, within, ih rest' next⟩

theorem endOf_snoc : endOf position (deltas ++ [d]) = d.stream.toSeq := by
  induction deltas generalizing position with
  | nil => rfl
  | cons first rest ih => exact ih

/-- What a step can do. -/
inductive DisplayChange (host : Host) (s : DisplayStreamState) :
    DisplayStep → DisplayStreamState → Prop
  | ignored (value : Option DisplayStreamEvent) : DisplayChange host s ⟨value, .ignored⟩ s
  | recover (value : Option DisplayStreamEvent) :
    DisplayChange host s ⟨value, .recover⟩ { s with recovering := true }
  | snapshot (e : DisplayStreamEvent) (state : MessageProjection) : e.valid → e.type = .snapshot →
    e.stream.subscriptionId = s.subscriptionId → e.snapshot = some state →
    (∀ c ∈ s.cursor, InStream c e → c.toSeq ≤ e.stream.toSeq) →
    DisplayChange host s ⟨some e, .applied⟩
      { subscriptionId := s.subscriptionId, cursor := some e.stream.toDisplayCursor
        projection := some state, recovering := false, recovery := e.recovery }
  | delta (e : DisplayStreamEvent) (c : DisplayCursor) (projection next : MessageProjection) :
    e.valid → e.type = .delta → e.stream.subscriptionId = s.subscriptionId →
    s.cursor = some c → InStream c e → s.recovering = false →
    e.stream.fromSeq = c.toSeq + 1 → s.projection = some projection →
    acceptFrame host projection e.projection = some next →
    DisplayChange host s ⟨some e, .applied⟩
      { s with cursor := some e.stream.toDisplayCursor, projection := some next, recovering := false }

theorem sameStream_iff {prior : Option DisplayCursor} {w : DisplayWatermark} :
    sameStream prior w ↔ ∃ c, prior = some c ∧ w.streamEpoch = c.streamEpoch ∧
      w.runId = c.runId ∧ w.turnId = c.turnId := by
  simp only [sameStream, Option.mem_def]
  exact exists_congr fun c => and_congr_right fun _ =>
    and_congr eq_comm (and_congr eq_comm eq_comm)

theorem Step.change (step : s.Step host e t) : DisplayChange host s e t := by
  obtain ⟨value, result⟩ := e
  change reduceDisplayStream host s value = (t, result) at step
  unfold reduceDisplayStream at step
  cases read : readDisplayStreamEvent value with
  | none =>
    rw [read] at step
    obtain ⟨rfl, rfl⟩ := Prod.mk.inj step
    exact .ignored _
  | some event =>
    obtain ⟨rfl, valid⟩ := readDisplayStreamEvent_eq_some.mp read
    rw [read] at step
    simp only [reduceEvent] at step
    split at step
    next => obtain ⟨rfl, rfl⟩ := Prod.mk.inj step; exact .ignored _
    next subscribed =>
      have subscribed := not_not.mp subscribed
      split at step
      next isSnapshot =>
        split at step
        next => obtain ⟨rfl, rfl⟩ := Prod.mk.inj step; exact .recover _
        next =>
          split at step
          next => obtain ⟨rfl, rfl⟩ := Prod.mk.inj step; exact .ignored _
          next current =>
            obtain ⟨rfl, rfl⟩ := Prod.mk.inj step
            have carried := valid.2.2
            rw [isSnapshot] at carried
            obtain ⟨⟨state, given, -⟩, -⟩ := carried
            rw [Option.mem_def.mp given]
            refine .snapshot event state valid isSnapshot subscribed given fun c here within => ?_
            rw [Option.mem_def.mp here] at current
            by_contra behind
            exact current ⟨sameStream_iff.mpr ⟨c, rfl, within⟩, not_le.mp behind⟩
      next notSnapshot =>
        have isDelta : event.type = .delta := by
          cases kind : event.type with
          | snapshot => exact absurd kind notSnapshot
          | delta => rfl
        split at step
        next => obtain ⟨rfl, rfl⟩ := Prod.mk.inj step; exact .ignored _
        next =>
          split at step
          next => obtain ⟨rfl, rfl⟩ := Prod.mk.inj step; exact .recover _
          next projection held =>
            split at step
            next => obtain ⟨rfl, rfl⟩ := Prod.mk.inj step; exact .recover _
            next inLine =>
              simp only [not_or, not_not, Bool.not_eq_true] at inLine
              obtain ⟨same, fixed, next⟩ := inLine
              obtain ⟨c, cursor, within⟩ := sameStream_iff.mp same
              unfold reduceDelta at step
              cases accepted : acceptFrame host projection event.projection with
              | none =>
                rw [accepted] at step
                dsimp only at step
                split at step
                next => obtain ⟨rfl, rfl⟩ := Prod.mk.inj step; exact .ignored _
                next => obtain ⟨rfl, rfl⟩ := Prod.mk.inj step; exact .recover _
              | some result =>
                rw [accepted] at step
                obtain ⟨rfl, rfl⟩ := Prod.mk.inj step
                rw [cursor] at next
                exact .delta event c projection result valid isDelta subscribed cursor within fixed
                  next held accepted

theorem appliedEvent_of_valid (valid : event.valid) :
    DisplayStep.appliedEvent ⟨some event, .applied⟩ = some event := by
  rw [DisplayStep.appliedEvent, if_pos rfl]
  exact readDisplayStreamEvent_eq_some.mpr ⟨rfl, valid⟩

theorem appliedEvent_of_ne (idle : e.result ≠ .applied) : e.appliedEvent = none := if_neg idle

/-- The state is the snapshot with the deltas folded over it, and the cursor stands at their end. -/
structure Replays (host : Host) (snap : DisplayStreamEvent) (deltas : List DisplayStreamEvent)
    (s : DisplayStreamState) : Prop where
  snapshot : snap.type = .snapshot
  members : ∀ d ∈ deltas, d.type = .delta ∧ InStream snap.stream.toDisplayCursor d
  consecutive : Consecutive snap.stream.toSeq deltas
  projection : ∃ state, snap.snapshot = some state ∧ s.projection =
    some (deltas.foldl (fun p d => reduceMessageProjection host p d.projection) state)
  cursor : s.cursor =
    some { snap.stream.toDisplayCursor with toSeq := endOf snap.stream.toSeq deltas }

/-- What a reachable state says about the applied events. -/
def Told (host : Host) (subscriptionId : String) (es : List DisplayStep) (s : DisplayStreamState) :
    Prop :=
  s.subscriptionId = subscriptionId ∧
    (appliedEvents es = [] ∧ s.cursor = none ∧ s.projection = none ∨
      ∃ before snap deltas, appliedEvents es = before ++ snap :: deltas ∧ Replays host snap deltas s)

theorem Replays.delta {snap : DisplayStreamEvent} {c : DisplayCursor}
    {projection next : MessageProjection} (replays : Replays host snap deltas s)
    (valid : event.valid) (isDelta : event.type = .delta) (cursor : s.cursor = some c)
    (within : InStream c event) (inLine : event.stream.fromSeq = c.toSeq + 1)
    (held : s.projection = some projection)
    (accepted : acceptFrame host projection event.projection = some next) :
    Replays host snap (deltas ++ [event])
      { s with cursor := some event.stream.toDisplayCursor, projection := some next
               recovering := false } := by
  obtain ⟨epoch, run, turn⟩ := within
  have place := some.inj (cursor.symm.trans replays.cursor)
  have interval : event.stream.fromSeq ≤ event.stream.toSeq := valid.2.1.2.2.2.2.2.2.2
  refine ⟨replays.snapshot, ?_, ?_, ?_, ?_⟩
  · refine forall_mem_append.mpr ⟨replays.members, fun d last => ?_⟩
    rw [mem_singleton.mp last]
    rw [place] at epoch run turn
    exact ⟨isDelta, epoch, run, turn⟩
  · refine replays.consecutive.snoc ?_ interval
    rw [inLine, place]
  · obtain ⟨state, given, folded⟩ := replays.projection
    refine ⟨state, given, ?_⟩
    rw [foldl_append, foldl_cons, foldl_nil]
    rw [← some.inj (held.symm.trans folded), reduceMessageProjection, accepted]
    rfl
  · rw [endOf_snoc]
    rw [place] at epoch run turn
    exact congrArg some (DisplayCursor.ext epoch run turn rfl)

theorem Told.step {subscriptionId : String} (told : Told host subscriptionId es s)
    (step : s.Step host e t) : Told host subscriptionId (es ++ [e]) t := by
  obtain ⟨subscription, told⟩ := told
  have idle : e.result ≠ .applied → appliedEvents (es ++ [e]) = appliedEvents es := fun other => by
    rw [appliedEvents_snoc, appliedEvent_of_ne other, Option.toList_none, append_nil]
  cases Step.change step with
  | ignored =>
    refine ⟨subscription, ?_⟩
    rwa [idle nofun]
  | recover =>
    refine ⟨subscription, ?_⟩
    rw [idle nofun]
    refine told.imp_right fun ⟨before, snap, deltas, same, replays⟩ => ?_
    exact ⟨before, snap, deltas, same, replays.snapshot, replays.members, replays.consecutive,
      replays.projection, replays.cursor⟩
  | snapshot event state valid isSnapshot subscribed given forward =>
    refine ⟨subscription, .inr ⟨appliedEvents es, event, [], ?_, isSnapshot, forall_mem_nil _,
      trivial, ⟨state, given, rfl⟩, rfl⟩⟩
    rw [appliedEvents_snoc, appliedEvent_of_valid valid, Option.toList_some]
  | delta event c projection next valid isDelta subscribed cursor within fixed inLine held accepted =>
    refine ⟨subscription, .inr ?_⟩
    rcases told with ⟨-, nowhere, -⟩ | ⟨before, snap, deltas, same, replays⟩
    · rw [nowhere] at cursor
      cases cursor
    · refine ⟨before, snap, deltas ++ [event], ?_,
        replays.delta valid isDelta cursor within inLine held accepted⟩
      rw [appliedEvents_snoc, appliedEvent_of_valid valid, Option.toList_some, same]
      simp

theorem told_of_run {subscriptionId : String} {recovering : Bool}
    (run : Run (DisplayStreamState.Step host) (.initial subscriptionId recovering) es s) :
    Told host subscriptionId es s :=
  run.history (P := Told host subscriptionId) ⟨rfl, .inl ⟨rfl, rfl, rfl⟩⟩
    fun _ _ _ _ => Told.step

theorem Step.recovers (step : s.Step host e t) (recover : e.result = .recover) :
    t.recovering = true := by
  cases Step.change step with
  | recover => rfl
  | ignored | snapshot | delta => cases recover

theorem Step.not_recovering (step : s.Step host e t) (applies : e.Applies .delta) :
    s.recovering = false := by
  obtain ⟨event, applied, isDelta⟩ := applies
  cases Step.change step with
  | ignored | recover => cases applied
  | snapshot event' state valid isSnapshot =>
    obtain rfl := some.inj ((appliedEvent_of_valid valid).symm.trans applied)
    rw [isSnapshot] at isDelta
    cases isDelta
  | delta event' c projection next valid isDelta subscribed cursor within fixed => exact fixed

theorem recovering_until_snapshot (run : Run (DisplayStreamState.Step host) s fs t)
    (recovering : s.recovering = true) (none : ∀ f ∈ fs, ¬ f.Applies .snapshot) :
    t.recovering = true := by
  revert none
  refine run.history (P := fun fs t => (∀ f ∈ fs, ¬ f.Applies .snapshot) → t.recovering = true)
    (fun _ => recovering) fun fs t e u ih step none => ?_
  obtain ⟨before, last⟩ := forall_mem_append.mp none
  have still := ih before
  cases Step.change step with
  | ignored => exact still
  | recover => rfl
  | snapshot event state valid isSnapshot =>
    exact absurd ⟨event, appliedEvent_of_valid valid, isSnapshot⟩ (last _ (mem_singleton_self _))
  | delta event c projection next valid isDelta subscribed cursor within fixed =>
    rw [fixed] at still
    cases still

theorem cursor_forward {c : DisplayCursor} (cursor : s.cursor = some c)
    (run : Run (DisplayStreamState.Step host) s fs t) (within : ∀ e ∈ appliedEvents fs, InStream c e) :
    ∃ c', t.cursor = some c' ∧ c'.streamEpoch = c.streamEpoch ∧ c'.runId = c.runId ∧
      c'.turnId = c.turnId ∧ c.toSeq ≤ c'.toSeq := by
  revert within
  refine run.history (P := fun fs t => (∀ e ∈ appliedEvents fs, InStream c e) →
    ∃ c', t.cursor = some c' ∧ c'.streamEpoch = c.streamEpoch ∧ c'.runId = c.runId ∧
      c'.turnId = c.turnId ∧ c.toSeq ≤ c'.toSeq)
    (fun _ => ⟨c, cursor, rfl, rfl, rfl, le_rfl⟩) fun fs t e u ih step within => ?_
  rw [appliedEvents_snoc] at within
  obtain ⟨before, last⟩ := forall_mem_append.mp within
  obtain ⟨c', here, epoch, turnRun, turn, ahead⟩ := ih before
  cases Step.change step with
  | ignored | recover => exact ⟨c', here, epoch, turnRun, turn, ahead⟩
  | snapshot event state valid isSnapshot subscribed given forward =>
    rw [appliedEvent_of_valid valid, Option.toList_some] at last
    obtain ⟨epoch', run', turn'⟩ := last event (mem_singleton_self _)
    refine ⟨_, rfl, epoch', run', turn', ahead.trans (forward c' here ?_)⟩
    exact ⟨epoch'.trans epoch.symm, run'.trans turnRun.symm, turn'.trans turn.symm⟩
  | delta event c'' projection next valid isDelta subscribed cursor within fixed inLine =>
    rw [appliedEvent_of_valid valid, Option.toList_some] at last
    obtain ⟨epoch', run', turn'⟩ := last event (mem_singleton_self _)
    obtain rfl := some.inj (here.symm.trans cursor)
    have interval : event.stream.fromSeq ≤ event.stream.toSeq := valid.2.1.2.2.2.2.2.2.2
    refine ⟨_, rfl, epoch', run', turn', ?_⟩
    show c.toSeq ≤ event.stream.toSeq
    omega

/-- **The display stream**, over every sequence of values. -/
theorem display_exactly_once {subscriptionId : String} {recovering : Bool}
    (run : Run (DisplayStreamState.Step host) (.initial subscriptionId recovering) es s) :
    -- the last applied snapshot with exactly the deltas since, which follow it without gap
    (appliedEvents es = [] ∧ s.cursor = none ∧ s.projection = none ∨
      ∃ before snap deltas, appliedEvents es = before ++ snap :: deltas ∧
        Replays host snap deltas s) ∧
    -- after `recover` no delta is applied before a snapshot is
    (∀ before r mid d after, es = before ++ r :: (mid ++ d :: after) → r.result = .recover →
      d.Applies .delta → ∃ m ∈ mid, m.Applies .snapshot) ∧
    -- while the applied events stay in the stream of the cursor, it only moves forward
    (∀ c fs t, s.cursor = some c → Run (DisplayStreamState.Step host) s fs t →
      (∀ e ∈ appliedEvents fs, InStream c e) →
      ∃ c', t.cursor = some c' ∧ c'.streamEpoch = c.streamEpoch ∧ c'.runId = c.runId ∧
        c'.turnId = c.turnId ∧ c.toSeq ≤ c'.toSeq) ∧
    -- events of other subscriptions, and values that are no events, change nothing
    (∀ value, (∀ event, readDisplayStreamEvent value = some event →
        event.stream.subscriptionId ≠ subscriptionId) →
      reduceDisplayStream host s value = (s, .ignored)) := by
  obtain ⟨subscription, told⟩ := told_of_run run
  refine ⟨told, ?_, fun c fs t cursor later within => cursor_forward cursor later within, ?_⟩
  · rintro before r mid d after rfl recovers applies
    by_contra none
    obtain ⟨s₁, -, rest⟩ := run.of_append
    obtain ⟨s₂, first, rest⟩ := Run.of_append (show Run _ _ ([r] ++ (mid ++ d :: after)) _ from rest)
    obtain ⟨s₃, between, rest⟩ := rest.of_append
    obtain ⟨s₄, second, -⟩ := Run.of_append (show Run _ _ ([d] ++ after) _ from rest)
    have still : s₃.recovering = true :=
      recovering_until_snapshot between (Step.recovers first.of_single recovers)
        fun m here snaps => none ⟨m, here, snaps⟩
    rw [Step.not_recovering second.of_single applies] at still
    cases still
  · intro value other
    unfold reduceDisplayStream
    cases read : readDisplayStreamEvent value with
    | none => rfl
    | some event =>
      have other := other event read
      rw [← subscription] at other
      exact if_pos other

/-! ### A snapshot and a delta -/

private def plainHost : Host := ⟨fun _ => "null", fun _ _ => "", fun text => text⟩

private def watermark (fromSeq toSeq : Int) : DisplayWatermark :=
  ⟨⟨"epoch", "run", "turn", toSeq⟩, 1, "reader", fromSeq⟩

private def opening : DisplayStreamEvent where
  type := .snapshot
  sessionKey := "session"
  stream := watermark 3 3
  snapshot := some
    { version := 1, runId := "run", attempt := 0, sequence := 0, phase := .preparing, parts := [] }

private def following : DisplayStreamEvent where
  type := .delta
  sessionKey := "session"
  stream := watermark 4 5
  projection := some ⟨1, "run", 1, 1, [.runStatus .generating]⟩

private def seen : List DisplayStep := [⟨some opening, .applied⟩, ⟨some following, .applied⟩]

private def opened : DisplayStreamState :=
  (reduceDisplayStream plainHost (.initial "reader" true) (some opening)).1

private def followed : DisplayStreamState :=
  (reduceDisplayStream plainHost opened (some following)).1

private theorem seenRun :
    Run (DisplayStreamState.Step plainHost) (.initial "reader" true) seen followed := by
  have first : (DisplayStreamState.initial "reader" true).Step plainHost
      ⟨some opening, .applied⟩ opened := Prod.ext rfl (by rfl)
  have second : opened.Step plainHost ⟨some following, .applied⟩ followed :=
    Prod.ext rfl (by rfl)
  exact (Run.single first).trans (Run.single second)

theorem display_exactly_once_delta : followed.cursor ≠ none ∧
    ∃ before snap deltas, appliedEvents seen = before ++ snap :: deltas ∧
      Replays plainHost snap deltas followed := by
  have applied : followed.cursor ≠ none := by decide
  obtain ⟨⟨-, nowhere, -⟩ | told, -⟩ := display_exactly_once seenRun
  · exact absurd nowhere applied
  · exact ⟨applied, told⟩

end History

end Slide.Display
