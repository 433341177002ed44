import Slide.Library.Run
import Slide.Runtime.Budget

/-!
# The accounting of a turn

`TurnLoop.run` of `runtime/turn-loop.ts`, with the summary request of `auto-compact.ts`, as far as
it reads or writes the recovery state.  `Phase` is where the loop stands between two of its awaits;
what a provider, a tool, a clock or the projection of the context answers comes with the event.
Every checkpoint takes `recovery.snapshot()`, and an invalid state throws out of the turn there.

`state.usage` and `recovery.state.usage` are assigned from one another at every point where either
is read again, and are one table here.  A turn may stop in any phase: a signal, a hook, the context
or a provider fails.  A process may die at any point and a new turn resume from a checkpoint.
-/

namespace Slide.Runtime

open Transition

/-- A digest or a UUID of the platform. -/
abbrev Digest := { s : String // isDigest s = true }

abbrev Uuid := { s : String // isUuid s = true }

/-- Where the loop stands. -/
inductive Phase
  /-- Before an iteration. -/
  | top
  /-- Past the checks of the iteration; `compacted` once its summary is done. -/
  | governing (compacted : Bool)
  /-- A summary request is in flight. -/
  | summarizing (reservation : ℤ)
  /-- An ordinary request is in flight. -/
  | requesting (reservation : ℤ) (answerOnly : Bool)
  /-- Its response is accounted for. -/
  | received (answerOnly : Bool)
  /-- A tool batch is running. -/
  | running
  /-- Out of the loop, before the last checkpoint. -/
  | ended
  | closed
  | thrown (error : RuntimeError)
deriving DecidableEq

/-- A checkpoint in the store: the snapshot, and the reservations it leaves unsettled. -/
structure Saved where
  snapshot : RecoverySnapshot
  unsettled : List ℤ

/-- A turn.  `unsettled` lists the reservations of the requests without a complete report; it is
kept for the statements about the code, which has their sum. -/
structure Turn where
  recovery : RecoverySnapshot
  phase : Phase := .top
  cycleStarted : Option ℤ := none
  providerElapsed : ℤ := 0
  /-- The evidence this process can compare with, and whether the next one is a baseline. -/
  evidence : List String := []
  needsProgressBaseline : Bool := false
  candidateEvidence : Option String := none
  needsCandidateBaseline : Bool := false
  unsettled : List ℤ := []
  saved : List Saved := []

/-- What becomes of a summary response: refused as it is, found invalid, accepted, or accepted and
overtaken by a change of the history. -/
inductive SummaryOutcome
  | rejected | failed | accepted | changed

namespace Turn

variable (spec : AgentRunSpec) (t : Turn)

/-- A checkpoint on the way to `next`. -/
def persist (next : Phase) : Turn :=
  match validateRecoverySnapshot t.recovery with
  | .ok snapshot => { t with phase := next, saved := ⟨snapshot, t.unsettled⟩ :: t.saved }
  | .error error => { t with phase := .thrown error }

@[simp] theorem persist_recovery (next : Phase) :
    (t.persist next).recovery = t.recovery := by
  unfold persist
  split <;> rfl

/-- A later statement of the same phase; nothing after a throw. -/
def andThen (rest : Turn → Turn) : Turn :=
  match t.phase with
  | .thrown _ => t
  | _ => rest t

/-- The start of a turn over a state `RecoveryPolicy` holds: the deadline of the checkpoint, a run
id, and the evidence of the same process. -/
def enter (recovery : RecoverySnapshot) (unsettled : List ℤ)
    (saved : List Saved) (deadline : Option JsNumber) (runId keyId : Uuid) : Turn :=
  let recovery := { recovery with
    deadlineAt := deadline.or recovery.deadlineAt
    progressRunId := if spec.budgetLimits.isSome then some (recovery.progressRunId.getD runId.1)
      else recovery.progressRunId }
  let comparable := recovery.progressKeyId == some keyId.1
  { recovery, unsettled, saved
    evidence := if comparable then recovery.progressEvidence.getD [] else []
    needsProgressBaseline := !comparable && !(recovery.progressEvidence.getD []).isEmpty
    candidateEvidence := if comparable then recovery.progressCandidate else none
    needsCandidateBaseline := !comparable && recovery.progressCandidate.isSome }

/-- `new RecoveryPolicy(snapshot)` and the start of a turn; no snapshot is a fresh state. -/
def resume (snapshot : Option RecoverySnapshot) (unsettled : List ℤ)
    (saved : List Saved) (deadline : Option JsNumber) (runId keyId : Uuid) : Turn :=
  match snapshot with
  | none => enter spec {} unsettled saved deadline runId keyId
  | some snapshot =>
    match validateRecoverySnapshot snapshot with
    | .ok recovery => enter spec recovery unsettled saved deadline runId keyId
    | .error error => { recovery := snapshot, phase := .thrown error, unsettled, saved }

/-- The measure of the cycle before, taken at the top of an iteration. -/
def measure (measured : ℤ) : Option Timing :=
  match t.cycleStarted, t.recovery.deadlineAt with
  | some started, some _ =>
    let before := t.recovery.timing.getD ⟨0, 0⟩
    some ⟨max before.cycleMs (max 0 (measured - started)), max before.providerMs t.providerElapsed⟩
  | _, _ => t.recovery.timing

/-- The checks at the top of an iteration. -/
def cycle (measured started : ℤ) : Turn :=
  if (spec.maxIterations : ℤ) ≤ t.recovery.modelSteps then { t with phase := .ended }
  else
    let t := { t with
      recovery := { t.recovery with timing := t.measure measured }
      cycleStarted := some started, providerElapsed := 0 }
    if (spec.maxIterations : ℤ) ≤ t.recovery.modelSteps + t.recovery.used.modelSteps then
      { t with phase := .ended }
    else if spec.budgetLimits.any fun limits =>
        decide ((limits.maxNoProgressSteps : ℤ) ≤ t.recovery.noProgressSteps.getD 0) then
      { t with phase := .ended }
    else { t with phase := .governing false }

/-- Plan a request and check it against the budget. -/
def admission (spec : AgentRunSpec) (t : Turn) (view : RequestView) (reduceOutput : Bool) :
    Except RuntimeError ℤ := do
  let reservation ← planRequestBudget spec view t.recovery reduceOutput
  assertRequestBudget spec t.recovery reservation
  return reservation

/-- The admission of a summary in `autoCompact`; `reactive` after an overflow. -/
def summarize (view : RequestView) (reactive : Bool) : Turn :=
  let limit := spec.recoveryLimits.limit .context
  if (reactive ∨ 0 < limit) ∧ limit ≤ t.recovery.counts.context then { t with phase := .ended }
  else
    match t.admission spec view false with
    | .error _ => { t with phase := .ended }
    | .ok reservation =>
      ({ t with
        recovery := t.recovery.reserve reservation
        unsettled := reservation :: t.unsettled }).persist (.summarizing reservation)

/-- A failed compaction consumes its recovery, if one is left. -/
def failSummary : Turn :=
  { t with
    recovery := (t.recovery.consume spec.recoveryLimits .context).getD t.recovery
    phase := .ended }

/-- After a summary is settled and saved; what is rejected or accepted is saved again. -/
def conclude (outcome : SummaryOutcome) (t : Turn) : Turn :=
  match outcome with
  | .rejected => (t.persist .ended).andThen (failSummary spec)
  | .failed => t.failSummary spec
  | .accepted =>
    if (assertTokenBudget spec t.recovery).isOk then t.persist (.governing true)
    else t.failSummary spec
  | .changed =>
    if (assertTokenBudget spec t.recovery).isOk then
      (t.persist .ended).andThen (failSummary spec)
    else t.failSummary spec

/-- The response to a summary. -/
def summarized (reservation : ℤ) (report : UsageReport)
    (outcome : SummaryOutcome) : Turn :=
  (({ t with
    recovery := t.recovery.settleSummary report reservation
    unsettled := if summaryComplete report then t.unsettled.erase reservation
      else t.unsettled }).persist .ended).andThen (conclude spec outcome)

/-- The admission of the ordinary request. -/
def request (view : RequestView) (answerOnly : Bool) : Turn :=
  match t.admission spec view true with
  | .error _ => { t with phase := .ended }
  | .ok reservation =>
    ({ t with
      recovery := t.recovery.admitRequest spec reservation
      unsettled := reservation :: t.unsettled }).persist (.requesting reservation answerOnly)

/-- Its response, or the error that stands for one; `sent` and `returned` are read around it. -/
def respond (reservation : ℤ) (answerOnly : Bool)
    (report : UsageReport) (sent returned : ℤ) : Turn :=
  let t := { t with
    providerElapsed := max 0 (returned - sent)
    recovery := t.recovery.settle report reservation
    unsettled := if complete (usageDict report) then t.unsettled.erase reservation
      else t.unsettled }
  t.persist (if (assertTokenBudget spec t.recovery).isOk then .received answerOnly else .ended)

/-- The response asks for tools. -/
def admitTools (answerOnly : Bool) (calls : ℕ) : Turn :=
  if (assertToolBudget spec t.recovery calls).isOk ∧ !answerOnly then
    ({ t with recovery := t.recovery.admitTools calls }).persist .running
  else t.persist .ended

/-- A running tool asks for a child: a refusal, also of the signals, changes nothing. -/
def child (request : ChildRequest) (now : ℤ) : Turn :=
  match reserveChildBudget spec t.recovery request now with
  | .ok (some recovery) => ({ t with recovery }).persist .running
  | _ => t

/-- One successful result: new evidence below the bound is progress, a baseline is not. -/
def observe (digest : Digest) : Turn :=
  if digest.1 ∈ t.evidence ∨ 256 ≤ t.evidence.length then t
  else
    { t with
      evidence := t.evidence ++ [digest.1]
      recovery := if t.needsProgressBaseline then t.recovery
        else { t.recovery with noProgressSteps := some 0 }
      needsProgressBaseline := false }

/-- The evidence of a batch, kept only under a budget. -/
def noteEvidence (results : List Digest) (keyId : Uuid) : Turn :=
  if spec.budgetLimits.isSome then
    let t := results.foldl observe t
    { t with recovery := { t.recovery with
      progressEvidence := some t.evidence, progressKeyId := some keyId.1 } }
  else t

/-- The batch is done. -/
def finishTools (results : List Digest) (keyId : Uuid) : Turn :=
  (t.noteEvidence spec results keyId).persist .top

/-- A text cut at its length is new progress when its digest is. -/
def noteCandidate (digest : Digest) (keyId : Uuid) : Turn :=
  if spec.budgetLimits.isSome ∧ some digest.1 ≠ t.candidateEvidence then
    { t with
      candidateEvidence := some digest.1
      recovery := { t.recovery with
        progressCandidate := some digest.1
        progressKeyId := some keyId.1
        noProgressSteps := if t.needsCandidateBaseline then t.recovery.noProgressSteps
          else some 0 }
      needsCandidateBaseline := false }
  else t

/-- The candidate of a text that was cut, if this is one. -/
def noteCut : Option (Digest × Uuid) → Turn
  | some (digest, keyId) => t.noteCandidate spec digest keyId
  | none => t

/-- A recovery of the text path, `candidate` for a cut text; `granted` is false where the supervisor
or the signal refuses after the allowance has been consumed. -/
def recover (kind : RecoveryKind)
    (candidate : Option (Digest × Uuid)) (granted : Bool) : Turn :=
  let t := t.noteCut spec candidate
  match t.recovery.consume spec.recoveryLimits kind with
  | none => { t with phase := .ended }
  | some recovery =>
    let t := { t with recovery }
    if granted then t.persist .top else { t with phase := .ended }

/-- New input has arrived, after a batch, a recovery or a text. -/
def inject : Turn :=
  if spec.budgetLimits.isSome then
    ({ t with recovery := { t.recovery with noProgressSteps := some 0 } }).persist .top
  else { t with phase := .top }

end Turn

/-- What happens next in a turn. -/
inductive TurnEvent
  | cycle (measured started : ℤ)
  | summarize (view : RequestView) (reactive : Bool)
  | summarized (reservation : ℤ) (report : UsageReport) (outcome : SummaryOutcome)
  | failSummary
  | request (view : RequestView) (answerOnly : Bool)
  | respond (reservation : ℤ) (report : UsageReport) (sent returned : ℤ)
  | admitTools (calls : ℕ)
  | child (request : ChildRequest) (now : ℤ)
  | finishTools (results : List Digest) (keyId : Uuid)
  | recover (kind : RecoveryKind) (candidate : Option (Digest × Uuid)) (granted : Bool)
  | inject
  /-- A context overflow reported by the provider. -/
  | overflow
  /-- The final text is saved. -/
  | answer
  | stop
  /-- The last checkpoint. -/
  | close
  /-- The process dies and a turn resumes from a checkpoint it has written. -/
  | restart (saved : Saved) (deadline : Option JsNumber) (runId keyId : Uuid)

/-- The phases in which a turn is still under way. -/
def Phase.live : Phase → Bool
  | .ended | .closed | .thrown _ => false
  | _ => true

/-- One step of a turn. -/
inductive TurnStep (spec : AgentRunSpec) : Turn → TurnEvent → Turn → Prop
  | cycle {t : Turn} {measured started : ℤ} : t.phase = .top →
    TurnStep spec t (.cycle measured started) (t.cycle spec measured started)
  | summarize {t : Turn} {view : RequestView} {reactive : Bool} : t.phase = .governing false →
    TurnStep spec t (.summarize view reactive) (t.summarize spec view reactive)
  | summarized {t : Turn} {reservation : ℤ} {report : UsageReport} {outcome : SummaryOutcome} :
    t.phase = .summarizing reservation →
    TurnStep spec t (.summarized reservation report outcome)
      (t.summarized spec reservation report outcome)
  | failSummary {t : Turn} {reservation : ℤ} : t.phase = .summarizing reservation →
    TurnStep spec t .failSummary (t.failSummary spec)
  | request {t : Turn} {compacted : Bool} {view : RequestView} {answerOnly : Bool} :
    t.phase = .governing compacted →
    TurnStep spec t (.request view answerOnly) (t.request spec view answerOnly)
  | respond {t : Turn} {reservation : ℤ} {answerOnly : Bool} {report : UsageReport}
      {sent returned : ℤ} : t.phase = .requesting reservation answerOnly →
    TurnStep spec t (.respond reservation report sent returned)
      (t.respond spec reservation answerOnly report sent returned)
  | admitTools {t : Turn} {answerOnly : Bool} {calls : ℕ} : t.phase = .received answerOnly →
    TurnStep spec t (.admitTools calls) (t.admitTools spec answerOnly calls)
  | child {t : Turn} {request : ChildRequest} {now : ℤ} : t.phase = .running →
    TurnStep spec t (.child request now) (t.child spec request now)
  | finishTools {t : Turn} {results : List Digest} {keyId : Uuid} : t.phase = .running →
    TurnStep spec t (.finishTools results keyId) (t.finishTools spec results keyId)
  | recover {t : Turn} {answerOnly : Bool} {kind : RecoveryKind}
      {candidate : Option (Digest × Uuid)} {granted : Bool} : t.phase = .received answerOnly →
    TurnStep spec t (.recover kind candidate granted) (t.recover spec kind candidate granted)
  | inject {t : Turn} : t.phase = .top ∨ (∃ answerOnly, t.phase = .received answerOnly) →
    TurnStep spec t .inject (t.inject spec)
  | overflow {t : Turn} {answerOnly : Bool} : t.phase = .received answerOnly →
    TurnStep spec t .overflow { t with phase := .top }
  | answer {t : Turn} {answerOnly : Bool} : t.phase = .received answerOnly →
    TurnStep spec t .answer (t.persist .ended)
  | stop {t : Turn} : t.phase.live = true → TurnStep spec t .stop { t with phase := .ended }
  | close {t : Turn} : t.phase = .ended → TurnStep spec t .close (t.persist .closed)
  | restart {t : Turn} {saved : Saved} {deadline : Option JsNumber} {runId keyId : Uuid} :
    saved ∈ t.saved →
    TurnStep spec t (.restart saved deadline runId keyId)
      (.resume spec (some saved.snapshot) saved.unsettled t.saved deadline runId keyId)

end Slide.Runtime
