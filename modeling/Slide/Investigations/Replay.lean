import Slide.Investigations.Stream

/-!
# Replay of an investigation

The reducer as a reader of a numbered log, so that the ways of delivering the log agree, and what an
event does to the projection of a run that has ended.

* `investigation_replay`: any delivery of a log ends in one state, a batch with a gap, a foreign or an
  invalid event is refused, and an ended run stays as it is exactly when later `run.terminal` events
  repeat what its projection says.
* `ended_run_changed`: a second `run.terminal` overwrites the outcome of the first.
-/

namespace Slide.Investigations

open Display List

variable {host : Host} {id runId : String} {s s' : InvestigationProjection}
  {e : InvestigationStreamEvent} {content : StreamContent} {batch log : List InvestigationStreamEvent}
  {p : MessageProjection} {payload : TerminalRun}

/-! ## One event -/

theorem identity_of_isIdentifier (valid : isIdentifier runId) : identity runId := by
  obtain ⟨short, c, mem, -⟩ := valid
  refine ⟨?_, short.trans (by decide)⟩
  rintro rfl
  cases mem

theorem InvestigationProjection.run_ok (valid : isIdentifier runId) :
    ∃ state, s.run runId = .ok state := by
  unfold InvestigationProjection.run
  cases s.runs.get runId with
  | some state => exact ⟨state, rfl⟩
  | none =>
    unfold createMessageProjection
    rw [if_pos (identity_of_isIdentifier valid)]
    exact ⟨_, rfl⟩

theorem InvestigationProjection.run_of_get (found : s.runs.get runId = some p) :
    s.run runId = .ok p := by
  unfold InvestigationProjection.run
  rw [found]

theorem InvestigationProjection.take_ok (host : Host) (valid : content.valid) :
    ∃ s', s.take host content = .ok s' ∧ s'.investigationId = s.investigationId := by
  cases content with
  | partsOperation runId requestId payload =>
    obtain ⟨state, found⟩ := s.run_ok valid.1.1
    rw [InvestigationProjection.take, found]
    exact ⟨_, rfl, rfl⟩
  | runTerminal runId requestId payload =>
    obtain ⟨state, found⟩ := s.run_ok valid.1.1
    rw [InvestigationProjection.take, found]
    exact ⟨_, rfl, rfl⟩
  | requestAccepted | runStarted | evidenceAdded | resultPersisted | investigationChanged =>
    exact ⟨_, rfl, rfl⟩

/-- The reducer of one investigation as a reader of its log. -/
def investigationReader (host : Host) (id : String) :
    Delivery.Reader InvestigationProjection InvestigationStreamEvent String where
  cursor := InvestigationProjection.sequence
  number e := e.sequence
  accepts e := e.investigationId = id ∧ validateInvestigationStreamEvent e
  sound s := s.investigationId = id
  step := reduceEvent host id
  refuses _ refused := ⟨_, if_pos (not_and_or.mp refused)⟩
  skips _ accepted old := by
    unfold reduceEvent
    rw [if_neg (not_or.mpr ⟨not_not.mpr accepted.1, not_not.mpr accepted.2⟩), if_pos old]
  stops _ accepted far := by
    unfold reduceEvent
    rw [if_neg (not_or.mpr ⟨not_not.mpr accepted.1, not_not.mpr accepted.2⟩), if_neg (by omega),
      if_pos (by omega)]
    exact ⟨_, rfl⟩
  takes {s e} own accepted next := by
    obtain ⟨s', taken, same⟩ := s.take_ok host accepted.2.2.2.2.1
    unfold reduceEvent
    rw [if_neg (not_or.mpr ⟨not_not.mpr accepted.1, not_not.mpr accepted.2⟩), if_neg (by omega),
      if_neg (not_not.mpr next), taken]
    exact ⟨_, rfl, rfl, same.trans own⟩

theorem reduce_eq_batch (own : s.investigationId = id) :
    reduceInvestigationEvents host s batch = (investigationReader host id).batch s batch := by
  subst own
  rfl

/-! ## A run that has ended -/

/-- The projection of an ended run after an event. -/
def afterEnd (runId : String) (content : StreamContent) (p : MessageProjection) :
    MessageProjection :=
  match content with
  | .runTerminal ended _ payload => if ended = runId then endRun runId payload p else p
  | _ => p

theorem reduceMessageProjection_ended {frame : Option ProjectionFrame} (ended : p.terminal ≠ none) :
    reduceMessageProjection host p frame = p := by
  unfold reduceMessageProjection acceptFrame
  cases frame with
  | none => rfl
  | some frame =>
    dsimp only
    rw [if_pos (.inr (.inr (.inr (.inr (.inl ended)))))]
    rfl

theorem InvestigationProjection.take_ended (taken : s.take host content = .ok s')
    (found : s.runs.get runId = some p) (ended : p.terminal ≠ none) :
    s'.runs.get runId = some (afterEnd runId content p) := by
  cases content with
  | partsOperation other requestId payload =>
    rw [InvestigationProjection.take] at taken
    obtain ⟨state, read, taken⟩ := bind_eq_ok.mp taken
    cases taken
    rw [Table.get_put]
    split
    next same =>
      subst same
      rw [InvestigationProjection.run_of_get found] at read
      cases read
      rw [reduceMessageProjection_ended ended]
      rfl
    next => exact found
  | runTerminal other requestId payload =>
    rw [InvestigationProjection.take] at taken
    obtain ⟨state, read, taken⟩ := bind_eq_ok.mp taken
    cases taken
    rw [Table.get_put]
    split
    next same =>
      subst same
      rw [InvestigationProjection.run_of_get found] at read
      cases read
      rw [afterEnd, if_pos rfl]
    next differ =>
      rw [afterEnd, if_neg (Ne.symm differ)]
      exact found
  | requestAccepted | runStarted | evidenceAdded | resultPersisted | investigationChanged =>
    cases taken
    exact found

/-- The event, when it ends the run, repeats what the projection of the run says. -/
def Repeats (runId : String) (p : MessageProjection) (e : InvestigationStreamEvent) : Prop :=
  ∀ requestId payload, e.content = .runTerminal runId requestId payload →
    p.runState = some (.ended payload.state) ∧ p.terminal = some payload.state ∧
      p.durable = some ⟨.mysql, runId⟩

theorem endRun_eq_iff : endRun runId payload p = p ↔ p.runState = some (.ended payload.state) ∧
    p.terminal = some payload.state ∧ p.durable = some ⟨.mysql, runId⟩ := by
  constructor
  · intro same
    exact ⟨(congrArg MessageProjection.runState same).symm,
      (congrArg MessageProjection.terminal same).symm, (congrArg MessageProjection.durable same).symm⟩
  · rintro ⟨runState, terminal, durable⟩
    rw [endRun, ← runState, ← terminal, ← durable]

theorem afterEnd_eq_iff : afterEnd runId e.content p = p ↔ Repeats runId p e := by
  unfold afterEnd Repeats
  cases e.content with
  | runTerminal ended requestId payload =>
    dsimp only
    split
    next same =>
      subst same
      rw [endRun_eq_iff]
      constructor
      · rintro facts _ _ ⟨⟩
        exact facts
      · exact fun repeated => repeated _ _ rfl
    next differ =>
      refine ⟨fun _ _ _ same => ?_, fun _ => rfl⟩
      exact absurd (StreamContent.runTerminal.inj same).1 differ
  | _ => exact ⟨fun _ _ _ => nofun, fun _ => rfl⟩

theorem reduceEvent_next (accepted : (investigationReader host id).accepts e)
    (next : e.sequence = s.sequence + 1) (ok : reduceEvent host id s e = .ok s') :
    ∃ taken, s.take host e.content = .ok taken ∧ s' = { taken with sequence := e.sequence } := by
  unfold reduceEvent at ok
  rw [if_neg (not_or.mpr ⟨not_not.mpr accepted.1, not_not.mpr accepted.2⟩), if_neg (by omega),
    if_neg (not_not.mpr next)] at ok
  obtain ⟨taken, read, ok⟩ := bind_eq_ok.mp ok
  exact ⟨taken, read, (Except.ok.inj ok).symm⟩

theorem ended_iff (own : s.investigationId = id)
    (numbered : (investigationReader host id).Consecutive s.sequence log)
    (accepted : ∀ e ∈ log, (investigationReader host id).accepts e)
    (found : s.runs.get runId = some p) (ended : p.terminal ≠ none) :
    (∀ before s', before <+: log → before.foldlM (reduceEvent host id) s = .ok s' →
      s'.runs.get runId = some p) ↔ ∀ e ∈ log, Repeats runId p e := by
  induction log generalizing s with
  | nil =>
    refine ⟨fun _ => forall_mem_nil _, fun _ before s' within ok => ?_⟩
    obtain rfl := prefix_nil.mp within
    cases ok
    exact found
  | cons e log ih =>
    obtain ⟨accepts, accepted⟩ := forall_mem_cons.mp accepted
    obtain ⟨s₁, stepped, cursor, own₁⟩ :=
      (investigationReader host id).takes own accepts numbered.1
    obtain ⟨taken, read, rfl⟩ := reduceEvent_next accepts numbered.1 stepped
    have after : taken.runs.get runId = some (afterEnd runId e.content p) :=
      InvestigationProjection.take_ended read found ended
    have numbered' : (investigationReader host id).Consecutive e.sequence log := by
      have more := numbered.2
      rwa [← numbered.1] at more
    rw [forall_mem_cons, ← afterEnd_eq_iff]
    constructor
    · intro frozen
      have same : afterEnd runId e.content p = p := by
        have first := frozen [e] _ (prefix_append [e] log) (by
          rw [foldlM_cons, show reduceEvent host id s e = _ from stepped]
          rfl)
        exact some.inj (after.symm.trans first)
      refine ⟨same, (ih own₁ numbered' accepted (same ▸ after)).mp fun before s' within ok => ?_⟩
      refine frozen (e :: before) s' ((prefix_cons_inj e).mpr within) ?_
      rw [foldlM_cons, show reduceEvent host id s e = _ from stepped]
      exact ok
    · rintro ⟨same, repeats⟩ before s' within ok
      rcases prefix_cons_iff.mp within with rfl | ⟨rest, rfl, inner⟩
      · cases ok
        exact found
      · rw [foldlM_cons, show reduceEvent host id s e = _ from stepped] at ok
        exact (ih own₁ numbered' accepted (same ▸ after)).mpr repeats rest s' inner ok

/-! ## The claims of a reader -/

theorem reduce_of_numbered (own : s.investigationId = id)
    (numbered : (investigationReader host id).Consecutive s.sequence log) :
    reduceInvestigationEvents host s log = log.foldlM (reduceEvent host id) s := by
  rw [reduce_eq_batch own, Delivery.Reader.batch,
    Delivery.Reader.sorted_of_rising numbered.rising]
  rfl

theorem foldlM_reduce {batches : List (List InvestigationStreamEvent)}
    (own : s.investigationId = id)
    (ok : batches.foldlM (investigationReader host id).batch s = .ok s') :
    batches.foldlM (reduceInvestigationEvents host) s = .ok s' := by
  induction batches generalizing s with
  | nil => exact ok
  | cons b batches ih =>
    rw [foldlM_cons] at ok ⊢
    obtain ⟨mid, first, rest⟩ := bind_eq_ok.mp ok
    rw [reduce_eq_batch own, first]
    exact ih ((investigationReader host id).batch_sound own first) rest

/-- **Investigation replay**: all deliveries of a log end in one state, a batch with a gap, a foreign
or an invalid event is refused, and an ended run stays as it is exactly when the later `run.terminal`
events repeat it. -/
theorem investigation_replay (host : Host) (s : InvestigationProjection) :
    (∀ log batches, (investigationReader host s.investigationId).Consecutive s.sequence log →
      (investigationReader host s.investigationId).Delivers log s.sequence batches →
      ∃ s', batches.foldlM (reduceInvestigationEvents host) s = .ok s' ∧
        reduceInvestigationEvents host s log = .ok s') ∧
    (∀ batch, (∃ s', reduceInvestigationEvents host s batch = .ok s') ↔
      (∀ e ∈ batch, e.investigationId = s.investigationId ∧ validateInvestigationStreamEvent e) ∧
      ∀ e ∈ batch, ∀ q, s.sequence < q → q < e.sequence → ∃ d ∈ batch, d.sequence = q) ∧
    ∀ log runId p, (investigationReader host s.investigationId).Consecutive s.sequence log →
      (∀ e ∈ log, e.investigationId = s.investigationId ∧ validateInvestigationStreamEvent e) →
      s.runs.get runId = some p → p.terminal ≠ none →
      ((∀ before s', before <+: log → reduceInvestigationEvents host s before = .ok s' →
        s'.runs.get runId = some p) ↔ ∀ e ∈ log, Repeats runId p e) := by
  refine ⟨fun log batches numbered delivers => ?_, fun batch => ?_,
    fun log runId p numbered accepted found ended => ?_⟩
  · obtain ⟨s', apart, whole⟩ := (investigationReader host _).deliver rfl numbered delivers
    exact ⟨s', foldlM_reduce rfl apart, (reduce_eq_batch rfl).trans whole⟩
  · rw [reduce_eq_batch rfl]
    exact (investigationReader host s.investigationId).batch_ok_iff rfl
  · rw [← ended_iff rfl numbered accepted found ended]
    refine forall_congr' fun before => forall_congr' fun s' => forall_congr' fun within => ?_
    rw [reduce_of_numbered rfl (numbered.of_prefix within)]

/-! ### Two outcomes of one run -/

private def plainHost : Host := ⟨fun _ => "null", fun _ _ => "", fun text => text⟩

private def ended (sequence : ℤ) (outcome : RunTerminal) : InvestigationStreamEvent where
  occurredAt := ⟨"2026-10-13T00:00:00.000Z", some 1791849600000⟩
  content := .runTerminal "run" none ⟨outcome, none⟩
  schemaVersion := 1
  sequence
  investigationId := "case"

private theorem ended_accepted : ∀ e ∈ [ended 1 .completed, ended 2 .failed],
    e.investigationId = "case" ∧ validateInvestigationStreamEvent e := by decide

theorem investigation_replay_ended : ∃ s',
    [[ended 1 .completed], [ended 2 .failed, ended 1 .completed]].foldlM
      (reduceInvestigationEvents plainHost) (emptyInvestigationProjection "case") = .ok s' ∧
    reduceInvestigationEvents plainHost (emptyInvestigationProjection "case")
      [ended 1 .completed, ended 2 .failed] = .ok s' := by
  have gapless {from_ : ℤ} {e : InvestigationStreamEvent} (next : e.sequence ≤ from_ + 1) (q : ℤ)
      (past : from_ < q) (before : q < e.sequence) : False := by omega
  refine (investigation_replay plainHost (emptyInvestigationProjection "case")).1 _ _
    ⟨rfl, rfl, trivial⟩ ⟨fun e mem => ?_, fun e mem q past before => ?_, fun e mem => ?_,
      fun e mem q past before => ?_, ?_⟩
  · obtain rfl := mem_singleton.mp mem
    exact ⟨ended_accepted _ mem_cons_self, fun _ => mem_cons_self⟩
  · obtain rfl := mem_singleton.mp mem
    exact (gapless le_rfl q past before).elim
  · rcases mem_pair.mp mem with rfl | rfl
    · exact ⟨ended_accepted _ (mem_cons_of_mem _ mem_cons_self),
        fun _ => mem_cons_of_mem _ mem_cons_self⟩
    · exact ⟨ended_accepted _ mem_cons_self, fun _ => mem_cons_self⟩
  · rcases mem_pair.mp mem with rfl | rfl
    · exact (gapless le_rfl q past before).elim
    · exact (gapless (by decide) q past before).elim
  · intro e mem
    rcases mem_pair.mp mem with rfl | rfl <;> decide

/-- The projection of the run after the first event. -/
private def completedRun : MessageProjection :=
  endRun "run" ⟨.completed, none⟩
    { version := 1, runId := "run", attempt := 0, sequence := 0, phase := .preparing
      runState := some .running, parts := [] }

/-- A second `run.terminal` overwrites the outcome of the first. -/
theorem ended_run_changed :
    (∀ e ∈ [ended 1 .completed, ended 2 .failed],
      e.investigationId = "case" ∧ validateInvestigationStreamEvent e) ∧
    ∃ first second, reduceInvestigationEvents plainHost (emptyInvestigationProjection "case")
        [ended 1 .completed] = .ok first ∧
      first.runs.get "run" = some completedRun ∧
      reduceInvestigationEvents plainHost first [ended 2 .failed] = .ok second ∧
      second.runs.get "run" ≠ some completedRun := by
  refine ⟨ended_accepted, _, _, rfl, rfl, rfl, fun same => ?_⟩
  have outcome := congrArg (fun run => run.bind MessageProjection.terminal) same
  cases outcome

end Slide.Investigations
