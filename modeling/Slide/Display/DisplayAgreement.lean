import Slide.Display.DisplayHistory
import Slide.Display.ProjectionFacts

/-!
# The gateway and the reader

The gateway decides about an event by the watermark alone, the reader by the projection as well.  On
the same events both stay on one watermark until one of three kinds arrives: a delta of the past
whose frame is malformed, which only the gateway looks at; a delta that is next in line once the run
has ended; or one whose frame is no newer than the projection.
-/

namespace Slide.Display

open Transition List

/-- The record of the gateway after the events. -/
def gatewayAfter (state : DisplayStreamState) (events : List DisplayStreamEvent) :
    DisplayStreamState :=
  events.foldl (fun s e => watermarkAfter s e (inspectDisplayWatermark s e)) state

/-- The state of the reader after the events. -/
def readerAfter (host : Host) (state : DisplayStreamState) (events : List DisplayStreamEvent) :
    DisplayStreamState :=
  events.foldl (fun s e => (reduceDisplayStream host s (some e)).1) state

/-- Both sides are on one watermark. -/
def OneWatermark (gateway reader : DisplayStreamState) : Prop :=
  gateway.cursor = reader.cursor ∧ gateway.recovering = reader.recovering

/-- Both sides decide alike about an event and are on one watermark after it. -/
def AgreeOn (host : Host) (gateway reader : DisplayStreamState) (e : DisplayStreamEvent) : Prop :=
  inspectDisplayWatermark gateway e = (reduceDisplayStream host reader (some e)).2 ∧
    OneWatermark (gatewayAfter gateway [e]) (readerAfter host reader [e])

/-- A delta the cursor is past. -/
def Stale (reader : DisplayStreamState) (e : DisplayStreamEvent) : Prop :=
  ∃ c ∈ reader.cursor, InStream c e ∧ e.stream.toSeq ≤ c.toSeq

instance (reader : DisplayStreamState) (e : DisplayStreamEvent) : Decidable (Stale reader e) :=
  inferInstanceAs (Decidable (∃ c ∈ reader.cursor, (_ ∧ _ ∧ _) ∧ _))

/-- A delta that is next in line. -/
def NextInLine (reader : DisplayStreamState) (e : DisplayStreamEvent) : Prop :=
  ∃ c ∈ reader.cursor, InStream c e ∧ reader.recovering = false ∧ e.stream.fromSeq = c.toSeq + 1

instance (reader : DisplayStreamState) (e : DisplayStreamEvent) : Decidable (NextInLine reader e) :=
  inferInstanceAs (Decidable (∃ c ∈ reader.cursor, (_ ∧ _ ∧ _) ∧ _ ∧ _))

def WellFormed (e : DisplayStreamEvent) : Prop :=
  ∃ frame ∈ e.projection, validProjectionFrame frame e.stream.runId

instance : DecidablePred WellFormed := fun e =>
  inferInstanceAs (Decidable (∃ frame ∈ e.projection, _))

/-- The run has ended, or the frame of the delta is no newer than the projection. -/
def Refuses (reader : DisplayStreamState) (e : DisplayStreamEvent) : Prop :=
  ∃ p ∈ reader.projection, p.terminal ≠ none ∨
    WellFormed e ∧ ∃ frame ∈ e.projection,
      frame.attempt < p.attempt ∨ frame.sequence ≤ p.sequence

instance (reader : DisplayStreamState) (e : DisplayStreamEvent) : Decidable (Refuses reader e) :=
  inferInstanceAs (Decidable (∃ p ∈ reader.projection, _ ∨ _ ∧ ∃ frame ∈ e.projection, _ ∨ _))

/-- The event is one the two sides decide differently. -/
def Diverges (reader : DisplayStreamState) (e : DisplayStreamEvent) : Prop :=
  e.stream.subscriptionId = reader.subscriptionId ∧ e.type = .delta ∧
    (Stale reader e ∧ ¬ WellFormed e ∨ NextInLine reader e ∧ Refuses reader e)

instance (reader : DisplayStreamState) (e : DisplayStreamEvent) : Decidable (Diverges reader e) :=
  inferInstanceAs (Decidable (_ ∧ _ ∧ (_ ∧ ¬ _ ∨ _ ∧ _)))

/-- A reader with a cursor has the projection of the run. -/
def Holds (reader : DisplayStreamState) : Prop :=
  ∀ c ∈ reader.cursor, ∃ p ∈ reader.projection, p.runId = c.runId

section Agreement

variable {host : Host} {s t gateway reader : DisplayStreamState} {e : DisplayStreamEvent}
  {events : List DisplayStreamEvent} {given : DisplayStep}

/-! ### The reader keeps the projection of the run -/

variable {frame : ProjectionFrame}

theorem applyOperation_runId {state next : MessageProjection}
    {op : ProjectionOperation} (valid : op.valid next.runId) :
    (applyOperation host state frame next op).runId = next.runId := by
  unfold applyOperation
  split
  next => rfl
  next =>
    cases op with
    | partStart entry => dsimp only; split <;> rfl
    | streamSnapshot snapshot =>
      dsimp only
      split
      · rfl
      · exact valid.2
    | _ => rfl

variable {p : MessageProjection}

theorem acceptFrame_runId {q : MessageProjection} {value : Option ProjectionFrame}
    (accepted : acceptFrame host p value = some q) : q.runId = p.runId := by
  obtain ⟨frame, -, -, -, -, valid, rfl⟩ := acceptFrame_eq_some accepted
  generalize frame.operations = ops at valid
  have fold : ∀ next : MessageProjection, next.runId = p.runId →
      (ops.foldl (applyOperation host p frame) next).runId = p.runId := by
    induction ops with
    | nil => exact fun _ same => same
    | cons op rest ih =>
      obtain ⟨first, rest⟩ := forall_mem_cons.mp valid
      intro next same
      refine ih rest _ ?_
      rw [applyOperation_runId (same ▸ first), same]
  exact fold _ rfl

theorem Holds.step (holds : Holds s) (step : s.Step host given t) : Holds t := by
  cases Step.change step with
  | ignored | recover => exact holds
  | snapshot e state valid isSnapshot subscribed shown =>
    rintro c here
    obtain rfl := some.inj here
    obtain ⟨⟨read, carried, -, run⟩, -⟩ := (isSnapshot ▸ valid.2.2 :
      (∃ state ∈ e.snapshot, state.valid ∧ state.runId = e.stream.runId) ∧ _)
    obtain rfl := some.inj (shown.symm.trans carried)
    exact ⟨state, rfl, run⟩
  | delta e c p next valid isDelta subscribed cursor within fixed inLine held accepted =>
    rintro c' here
    obtain rfl := some.inj here
    obtain ⟨p', held', run⟩ := holds c cursor
    obtain rfl := some.inj (held.symm.trans held')
    refine ⟨next, rfl, ?_⟩
    rw [acceptFrame_runId accepted, run]
    exact within.2.1.symm

/-! ### One event -/

theorem reduceDisplayStream_valid (valid : e.valid) :
    reduceDisplayStream host s (some e) = reduceEvent host s e := by
  unfold reduceDisplayStream
  rw [readDisplayStreamEvent_eq_some.mpr ⟨rfl, valid⟩]

variable (host s e) in
theorem watermarkAfter_result :
    OneWatermark (watermarkAfter s e (reduceDisplayStream host s (some e)).2)
      (reduceDisplayStream host s (some e)).1 := by
  have step : s.Step host ⟨some e, (reduceDisplayStream host s (some e)).2⟩
      (reduceDisplayStream host s (some e)).1 := rfl
  generalize reduceDisplayStream host s (some e) = after at step ⊢
  obtain ⟨t, result⟩ := after
  cases Step.change step with
  | ignored | recover | snapshot | delta => exact ⟨rfl, rfl⟩

theorem inspect_congr (same : OneWatermark s t) (subscription : s.subscriptionId = t.subscriptionId) :
    inspectDisplayWatermark s e = inspectDisplayWatermark t e := by
  unfold inspectDisplayWatermark
  rw [same.1, same.2, subscription]

theorem stale_iff : Stale s e ↔
    sameStream s.cursor e.stream ∧ e.stream.toSeq ≤ (s.cursor.map (·.toSeq)).getD 0 := by
  rw [sameStream_iff]
  constructor
  · rintro ⟨c, cursor, within, past⟩
    rw [Option.mem_def.mp cursor]
    exact ⟨⟨c, rfl, within⟩, past⟩
  · rintro ⟨⟨c, cursor, within⟩, past⟩
    rw [cursor] at past
    exact ⟨c, cursor, within, past⟩

theorem nextInLine_iff : NextInLine s e ↔ ¬ (¬ sameStream s.cursor e.stream ∨ s.recovering = true ∨
    e.stream.fromSeq ≠ (s.cursor.map (·.toSeq)).getD 0 + 1) := by
  rw [not_or, not_or, not_not, not_not, Bool.not_eq_true, sameStream_iff]
  constructor
  · rintro ⟨c, cursor, within, fixed, next⟩
    rw [Option.mem_def.mp cursor]
    exact ⟨⟨c, rfl, within⟩, fixed, next⟩
  · rintro ⟨⟨c, cursor, within⟩, fixed, next⟩
    rw [cursor] at next
    exact ⟨c, cursor, within, fixed, next⟩

theorem NextInLine.not_stale (next : NextInLine s e) (valid : e.valid) : ¬ Stale s e := by
  rintro ⟨c, cursor, -, past⟩
  obtain ⟨c', cursor', -, -, start⟩ := next
  obtain rfl := some.inj ((Option.mem_def.mp cursor).symm.trans cursor')
  have interval : e.stream.fromSeq ≤ e.stream.toSeq := valid.2.1.2.2.2.2.2.2.2
  omega

theorem inspect_delta (subscribed : e.stream.subscriptionId = s.subscriptionId)
    (isDelta : e.type = .delta) :
    (¬ WellFormed e → inspectDisplayWatermark s e = .recover) ∧
    (WellFormed e → Stale s e → inspectDisplayWatermark s e = .ignored) ∧
    (WellFormed e → ¬ Stale s e → NextInLine s e → inspectDisplayWatermark s e = .applied) ∧
    (¬ Stale s e → ¬ NextInLine s e → inspectDisplayWatermark s e = .recover) := by
  have notSnapshot : e.type ≠ .snapshot := fun isSnapshot => nomatch isSnapshot.symm.trans isDelta
  have ladder : WellFormed e → inspectDisplayWatermark s e =
      if sameStream s.cursor e.stream ∧ e.stream.toSeq ≤ (s.cursor.map (·.toSeq)).getD 0 then .ignored
      else if ¬ sameStream s.cursor e.stream ∨ s.recovering = true ∨
        e.stream.fromSeq ≠ (s.cursor.map (·.toSeq)).getD 0 + 1 then .recover
      else .applied := fun formed => by
    unfold inspectDisplayWatermark
    rw [if_neg (not_not.mpr subscribed), if_neg fun shape => shape.2 formed, if_neg notSnapshot]
  have malformed : ¬ WellFormed e → inspectDisplayWatermark s e = .recover := fun malformed => by
    unfold inspectDisplayWatermark
    rw [if_neg (not_not.mpr subscribed), if_pos ⟨isDelta, malformed⟩]
  refine ⟨malformed, fun formed stale => ?_, fun formed fresh next => ?_, fun fresh gap => ?_⟩
  · rw [ladder formed, if_pos (stale_iff.mp stale)]
  · rw [ladder formed, if_neg (mt stale_iff.mpr fresh), if_neg (nextInLine_iff.mp next)]
  · by_cases formed : WellFormed e
    · rw [ladder formed, if_neg (mt stale_iff.mpr fresh), if_pos (not_not.mp (mt nextInLine_iff.mpr gap))]
    · exact malformed formed

variable (host) in
theorem reduceEvent_delta (subscribed : e.stream.subscriptionId = s.subscriptionId)
    (isDelta : e.type = .delta) :
    (Stale s e → (reduceEvent host s e).2 = .ignored) ∧
    (∀ p, s.projection = some p → ¬ Stale s e → NextInLine s e →
      reduceEvent host s e = reduceDelta host s p e) ∧
    (¬ Stale s e → ¬ NextInLine s e → (reduceEvent host s e).2 = .recover) := by
  have notSnapshot : e.type ≠ .snapshot := fun isSnapshot => nomatch isSnapshot.symm.trans isDelta
  refine ⟨fun stale => ?_, fun p held fresh next => ?_, fun fresh gap => ?_⟩ <;>
    unfold reduceEvent <;> rw [if_neg (not_not.mpr subscribed), if_neg notSnapshot]
  · rw [if_pos (stale_iff.mp stale)]
  · rw [if_neg (mt stale_iff.mpr fresh), held]
    exact if_neg (nextInLine_iff.mp next)
  · rw [if_neg (mt stale_iff.mpr fresh)]
    cases s.projection with
    | none => rfl
    | some p =>
      dsimp only
      rw [if_pos (not_not.mp (mt nextInLine_iff.mpr gap))]

variable (host) in
theorem acceptFrame_eq_none (run : frame.runId = p.runId) : acceptFrame host p (some frame) = none ↔
      p.terminal ≠ none ∨ ¬ validProjectionFrame frame p.runId ∨
        frame.attempt < p.attempt ∨ frame.sequence ≤ p.sequence := by
  unfold acceptFrame validProjectionFrame
  dsimp only
  split_ifs with refused malformed
  · exact iff_of_true rfl (by tauto)
  · exact iff_of_false nofun (by tauto)
  · exact iff_of_true rfl (by tauto)

theorem wellFormed_iff (carried : e.projection = some frame) :
    WellFormed e ↔ validProjectionFrame frame e.stream.runId := by
  rw [WellFormed, carried]
  exact ⟨fun ⟨_, same, formed⟩ => some.inj same ▸ formed, fun formed => ⟨frame, rfl, formed⟩⟩

theorem refuses_iff (held : s.projection = some p)
    (carried : e.projection = some frame) : Refuses s e ↔ p.terminal ≠ none ∨
      validProjectionFrame frame e.stream.runId ∧
        (frame.attempt < p.attempt ∨ frame.sequence ≤ p.sequence) := by
  rw [Refuses, held, wellFormed_iff carried, carried]
  simp

theorem inspect_eq_reduceDelta
    (subscribed : e.stream.subscriptionId = s.subscriptionId) (isDelta : e.type = .delta)
    (fresh : ¬ Stale s e) (next : NextInLine s e) (held : s.projection = some p)
    (carried : e.projection = some frame) (run : frame.runId = p.runId)
    (place : p.runId = e.stream.runId) :
    inspectDisplayWatermark s e = (reduceDelta host s p e).2 ↔ ¬ Refuses s e := by
  obtain ⟨malformed, -, applies, -⟩ := inspect_delta subscribed isDelta
  have refused := acceptFrame_eq_none host run
  rw [refuses_iff held carried]
  rw [place, ← wellFormed_iff carried] at refused
  rw [← wellFormed_iff carried]
  unfold reduceDelta
  rw [carried]
  cases accepted : acceptFrame host p (some frame) with
  | none =>
    have causes := refused.mp accepted
    dsimp only
    split
    next ended =>
      refine iff_of_false ?_ (not_not.mpr (.inl ended))
      by_cases formed : WellFormed e
      · rw [applies formed fresh next]
        nofun
      · rw [malformed formed]
        nofun
    next running =>
      by_cases formed : WellFormed e
      · rw [applies formed fresh next]
        exact iff_of_false nofun (by tauto)
      · rw [malformed formed]
        exact iff_of_true rfl (by tauto)
  | some q =>
    have causes := mt refused.mpr (by rw [accepted]; nofun)
    have formed : WellFormed e := by tauto
    rw [applies formed fresh next]
    exact iff_of_true rfl (by tauto)

theorem inspect_snapshot (subscribed : e.stream.subscriptionId = s.subscriptionId)
    (isSnapshot : e.type = .snapshot) :
    inspectDisplayWatermark s e = (reduceEvent host s e).2 := by
  unfold inspectDisplayWatermark reduceEvent
  have notDelta : ¬ (e.type = .delta ∧
      ¬ ∃ frame ∈ e.projection, validProjectionFrame frame e.stream.runId) :=
    fun ⟨isDelta, _⟩ => nomatch isSnapshot.symm.trans isDelta
  rw [if_neg (not_not.mpr subscribed), if_neg (not_not.mpr subscribed), if_neg notDelta,
    if_pos isSnapshot, if_pos isSnapshot]
  split_ifs <;> rfl

theorem inspect_eq_result (valid : e.valid) (holds : Holds s) :
    inspectDisplayWatermark s e = (reduceEvent host s e).2 ↔ ¬ Diverges s e := by
  by_cases subscribed : e.stream.subscriptionId = s.subscriptionId
  case neg =>
    refine iff_of_true ?_ fun diverges => subscribed diverges.1
    unfold inspectDisplayWatermark reduceEvent
    rw [if_pos subscribed, if_pos subscribed]
  cases kind : e.type with
  | snapshot =>
    refine iff_of_true (inspect_snapshot subscribed kind) fun ⟨_, isDelta, _⟩ => ?_
    cases kind.symm.trans isDelta
  | delta =>
    obtain ⟨malformed, ignores, applies, recovers⟩ := inspect_delta subscribed kind
    obtain ⟨ignores', decides, recovers'⟩ := reduceEvent_delta host subscribed kind
    obtain ⟨⟨frame, carried, run⟩, -⟩ := (kind ▸ valid.2.2 :
      (∃ frame ∈ e.projection, frame.runId = e.stream.runId) ∧ _)
    by_cases stale : Stale s e
    · rw [ignores' stale]
      by_cases formed : WellFormed e
      · refine iff_of_true (ignores formed stale) ?_
        rintro ⟨-, -, ⟨-, malformed⟩ | ⟨next, -⟩⟩
        · exact malformed formed
        · exact next.not_stale valid stale
      · rw [malformed formed]
        exact iff_of_false nofun (not_not.mpr ⟨subscribed, kind, .inl ⟨stale, formed⟩⟩)
    · by_cases next : NextInLine s e
      · have kinds : Diverges s e ↔ Refuses s e := by
          refine ⟨?_, fun refuses => ⟨subscribed, kind, .inr ⟨next, refuses⟩⟩⟩
          rintro ⟨-, -, ⟨past, -⟩ | ⟨-, refuses⟩⟩
          · exact absurd past stale
          · exact refuses
        rw [kinds]
        obtain ⟨c, cursor, within, -⟩ := id next
        obtain ⟨p, held, same⟩ := holds c cursor
        have place : p.runId = e.stream.runId := same.trans within.2.1.symm
        rw [decides p held stale next]
        exact inspect_eq_reduceDelta subscribed kind stale next held carried (run.trans place.symm) place
      · rw [recovers stale next, recovers' stale next]
        refine iff_of_true rfl ?_
        rintro ⟨-, -, ⟨past, -⟩ | ⟨line, -⟩⟩
        · exact stale past
        · exact next line

theorem agreeOn_iff (same : OneWatermark gateway reader)
    (subscription : gateway.subscriptionId = reader.subscriptionId) (valid : e.valid)
    (holds : Holds reader) : AgreeOn host gateway reader e ↔ ¬ Diverges reader e := by
  have decision : inspectDisplayWatermark gateway e = (reduceDisplayStream host reader (some e)).2 ↔
      ¬ Diverges reader e := by
    rw [inspect_congr same subscription, reduceDisplayStream_valid valid]
    exact inspect_eq_result valid holds
  refine ⟨fun agree => decision.mp agree.1, fun spared => ⟨decision.mpr spared, ?_⟩⟩
  have after := watermarkAfter_result host reader e
  change OneWatermark (watermarkAfter gateway e (inspectDisplayWatermark gateway e))
    (reduceDisplayStream host reader (some e)).1
  rw [decision.mpr spared]
  obtain ⟨cursor, recovering⟩ := same
  cases result : (reduceDisplayStream host reader (some e)).2 <;> rw [result] at after
  · exact ⟨after.1, after.2⟩
  · exact ⟨cursor.trans after.1, recovering.trans after.2⟩
  · exact ⟨cursor.trans after.1, after.2⟩

/-! ### All events -/

theorem readerAfter_snoc :
    readerAfter host s (events ++ [e]) = readerAfter host (readerAfter host s events) [e] :=
  foldl_append

variable (host s e events) in
theorem readerAfter_step : (readerAfter host s events).Step host
    ⟨some e, (reduceDisplayStream host (readerAfter host s events) (some e)).2⟩
    (readerAfter host s (events ++ [e])) := by
  rw [readerAfter_snoc]
  rfl

theorem gatewayAfter_snoc :
    gatewayAfter s (events ++ [e]) = gatewayAfter (gatewayAfter s events) [e] :=
  foldl_append

theorem readerAfter_holds (holds : Holds s) : Holds (readerAfter host s events) := by
  induction events using reverseRecOn with
  | nil => exact holds
  | append_singleton events e ih => exact ih.step (readerAfter_step host s e events)

theorem readerAfter_subscriptionId :
    (readerAfter host s events).subscriptionId = s.subscriptionId := by
  induction events using reverseRecOn with
  | nil => rfl
  | append_singleton events e ih =>
    have step := readerAfter_step host s e events
    generalize readerAfter host s (events ++ [e]) = t at step ⊢
    generalize (reduceDisplayStream host (readerAfter host s events) (some e)).2 = result at step
    cases Step.change step with
    | ignored | recover | snapshot | delta => exact ih

theorem gatewayAfter_subscriptionId : (gatewayAfter s events).subscriptionId = s.subscriptionId := by
  induction events using reverseRecOn with
  | nil => rfl
  | append_singleton events e ih =>
    rw [gatewayAfter_snoc, ← ih]
    change (watermarkAfter _ e (inspectDisplayWatermark _ e)).subscriptionId = _
    cases inspectDisplayWatermark (gatewayAfter s events) e <;> rfl

theorem oneWatermark_of_agree (same : OneWatermark gateway reader)
    (agree : ∀ before e, before ++ [e] <+: events →
      AgreeOn host (gatewayAfter gateway before) (readerAfter host reader before) e) :
    OneWatermark (gatewayAfter gateway events) (readerAfter host reader events) := by
  cases events using reverseRecOn with
  | nil => exact same
  | append_singleton events e =>
    rw [gatewayAfter_snoc, readerAfter_snoc]
    exact (agree events e prefix_rfl).2

/-- **The gateway and the reader** agree on every event exactly if none is of the three kinds. -/
theorem gateway_agrees (subscriptionId : String) (recovering : Bool)
    (accepted : ∀ e ∈ events, readDisplayStreamEvent (some e) = some e) :
    (∀ before e, before ++ [e] <+: events →
      AgreeOn host (gatewayAfter (.initial subscriptionId recovering) before)
        (readerAfter host (.initial subscriptionId recovering) before) e) ↔
    ∀ before e, before ++ [e] <+: events →
      ¬ Diverges (readerAfter host (.initial subscriptionId recovering) before) e := by
  have decide : ∀ before e, before ++ [e] <+: events →
      (∀ earlier d, earlier ++ [d] <+: before →
        AgreeOn host (gatewayAfter (.initial subscriptionId recovering) earlier)
          (readerAfter host (.initial subscriptionId recovering) earlier) d) →
      (AgreeOn host (gatewayAfter (.initial subscriptionId recovering) before)
          (readerAfter host (.initial subscriptionId recovering) before) e ↔
        ¬ Diverges (readerAfter host (.initial subscriptionId recovering) before) e) := by
    intro before e here earlier
    have valid : e.valid :=
      (readDisplayStreamEvent_eq_some.mp (accepted e (here.subset (by simp)))).2
    refine agreeOn_iff (oneWatermark_of_agree ⟨rfl, rfl⟩ earlier) ?_ valid
      (readerAfter_holds fun c none => nomatch none)
    rw [gatewayAfter_subscriptionId, readerAfter_subscriptionId]
  constructor
  · intro agree before e here
    exact (decide before e here fun earlier d within =>
      agree earlier d (within.trans ((prefix_append _ _).trans here))).mp (agree before e here)
  · intro spared
    have upTo : ∀ reached, reached <+: events → ∀ before e, before ++ [e] <+: reached →
        AgreeOn host (gatewayAfter (.initial subscriptionId recovering) before)
          (readerAfter host (.initial subscriptionId recovering) before) e := by
      intro reached
      induction reached using reverseRecOn with
      | nil => intro _ before e here; simp at here
      | append_singleton reached last ih =>
        intro within before e here
        have shorter := ih ((prefix_append _ _).trans within)
        rcases prefix_concat_iff.mp here with whole | earlier
        · obtain ⟨rfl, only⟩ := append_inj' whole rfl
          exact (decide before e (here.trans within) shorter).mpr
            (spared before e (here.trans within))
        · exact shorter before e earlier
    exact upTo events prefix_rfl

/-! ### A run that has ended, and a delta of the past -/

private def displayHost : Host := ⟨fun _ => "null", fun _ _ => "", fun text => text⟩

private def shownAt (fromSeq toSeq : Int) : DisplayWatermark :=
  ⟨⟨"epoch", "run", "turn", toSeq⟩, 1, "reader", fromSeq⟩

private def snapshotOf (terminal : Option RunTerminal) : DisplayStreamEvent where
  type := .snapshot
  sessionKey := "session"
  stream := shownAt 3 3
  snapshot := some
    { version := 1, runId := "run", attempt := 0, sequence := 0, phase := .preparing, parts := []
      terminal }

private def deltaOf (fromSeq toSeq : Int) (op : ProjectionOperation) : DisplayStreamEvent where
  type := .delta
  sessionKey := "session"
  stream := shownAt fromSeq toSeq
  projection := some ⟨1, "run", 1, 1, [op]⟩

private def late : DisplayStreamEvent := deltaOf 4 4 (.runStatus .generating)

private def broken : DisplayStreamEvent := deltaOf 2 3 .malformed

private theorem shown_accepted : ∀ e ∈ [snapshotOf none, snapshotOf (some .failed), late, broken],
    readDisplayStreamEvent (some e) = some e := by
  intro e mem
  refine readDisplayStreamEvent_eq_some.mpr ⟨rfl, ?_⟩
  revert e
  decide +kernel

/-- The gateway applies a delta to a run that has ended, and recovers over a delta of the past. -/
theorem gateway_disagrees :
    (∀ e ∈ [snapshotOf none, snapshotOf (some .failed), late, broken],
      readDisplayStreamEvent (some e) = some e) ∧
    ¬ AgreeOn displayHost (gatewayAfter (.initial "reader" true) [snapshotOf (some .failed)])
      (readerAfter displayHost (.initial "reader" true) [snapshotOf (some .failed)]) late ∧
    ¬ AgreeOn displayHost (gatewayAfter (.initial "reader" true) [snapshotOf none])
      (readerAfter displayHost (.initial "reader" true) [snapshotOf none]) broken := by
  refine ⟨shown_accepted, fun agree => absurd agree.1 ?_, fun agree => absurd agree.1 ?_⟩
  · decide +kernel
  · decide +kernel

theorem gateway_agrees_late :
    AgreeOn displayHost (gatewayAfter (.initial "reader" true) [])
      (readerAfter displayHost (.initial "reader" true) []) (snapshotOf none) ∧
    AgreeOn displayHost (gatewayAfter (.initial "reader" true) [snapshotOf none])
      (readerAfter displayHost (.initial "reader" true) [snapshotOf none]) late := by
  have accepted : ∀ e ∈ [snapshotOf none, late], readDisplayStreamEvent (some e) = some e := by
    intro e mem
    apply shown_accepted
    rcases mem_pair.mp mem with rfl | rfl <;> simp
  have agree : ∀ before e, before ++ [e] <+: [snapshotOf none, late] →
      AgreeOn displayHost (gatewayAfter (.initial "reader" true) before)
        (readerAfter displayHost (.initial "reader" true) before) e := by
    refine (gateway_agrees "reader" true accepted).mpr fun before e here => ?_
    have two : [snapshotOf none, late] = [snapshotOf none] ++ [late] := rfl
    rw [two, prefix_concat_iff] at here
    rcases here with whole | first
    · obtain ⟨rfl, only⟩ := append_inj' whole rfl
      rw [singleton_inj.mp only]
      decide +kernel
    · rw [← nil_append [snapshotOf none], prefix_concat_iff] at first
      rcases first with whole | none
      · obtain ⟨rfl, only⟩ := append_inj' whole rfl
        rw [singleton_inj.mp only]
        decide
      · simp at none
  exact ⟨agree [] _ (prefix_append [_] [_]), agree [_] _ prefix_rfl⟩

end Agreement

end Slide.Display
