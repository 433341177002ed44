import Slide.Display.MessageProjection

/-!
# Events of an investigation

`InvestigationStreamEvent` of `investigations/contracts.ts` and the check every writer and reader of
the stream makes.  The shape of an event is its type; the ranges and the texts are checked by
`validateInvestigationStreamEvent`, which also asks the display projection about its frames.
-/

namespace Slide.Investigations

open Display

/-- `Number.MAX_SAFE_INTEGER`. -/
def maxSafe : Int := 9007199254740991

/-- A text of the pattern `utc()`, with the instant in milliseconds that `validInstant` finds in it. -/
structure UtcText where
  text : String
  instant : Option Int
deriving DecidableEq

inductive InvestigationLifecycle
  | isOpen | waiting | closed | archived
deriving DecidableEq

inductive InvestigationProblemStatus
  | unconfirmed | inProgress | resolved | notApplicable

inductive RunResolution
  | known | outcomeUnknown
deriving DecidableEq

structure TerminalRun where
  state : RunTerminal
  resolution : Option RunResolution := none

/-- The payload of `result.persisted`; its `schemaVersion` is always 2. -/
structure ResultReference where
  resultId : String
  resultVersion : Int

/-- The payload of `investigation.changed`. -/
structure InvestigationMetadata where
  version : Int
  lifecycle : InvestigationLifecycle
  problemStatus : InvestigationProblemStatus

/-- The members of the union, by `type`. -/
inductive StreamContent
  | requestAccepted (requestId : String) (jobId : String) (version : Int)
  | runStarted (runId : String) (requestId : Option String)
  | partsOperation (runId : String) (requestId : Option String) (payload : ProjectionFrame)
  | evidenceAdded (runId : String) (requestId : Option String) (evidenceId : String)
  | resultPersisted (runId : String) (requestId : Option String) (payload : ResultReference)
  | runTerminal (runId : String) (requestId : Option String) (payload : TerminalRun)
  | investigationChanged (requestId runId : Option String) (payload : InvestigationMetadata)

/-- `EventInput`: an event before the store has numbered it. -/
structure EventInput where
  occurredAt : UtcText
  content : StreamContent

structure InvestigationStreamEvent extends EventInput where
  (schemaVersion sequence : Int)
  investigationId : String

/-- `id()`: 1 to 128 code units, not all of them blank. -/
def isIdentifier (s : String) : Prop :=
  JsString.length s ≤ 128 ∧ ∃ c ∈ s.toList, ¬ JsString.isSpace c

instance : DecidablePred isIdentifier := fun _ => inferInstanceAs (Decidable (_ ∧ ∃ c ∈ _, _))

/-- `ordinal()`. -/
def isOrdinal (n : Int) : Prop := 1 ≤ n ∧ n ≤ maxSafe

instance : DecidablePred isOrdinal := fun _ => inferInstanceAs (Decidable (_ ∧ _))

def runFields (runId : String) (requestId : Option String) : Prop :=
  isIdentifier runId ∧ ∀ id ∈ requestId, isIdentifier id

instance (runId : String) (requestId : Option String) : Decidable (runFields runId requestId) :=
  inferInstanceAs (Decidable (_ ∧ ∀ id ∈ _, _))

/-- The member of the union accepts the content. -/
def StreamContent.valid : StreamContent → Prop
  | .requestAccepted requestId jobId version =>
    isIdentifier requestId ∧ isIdentifier jobId ∧ isOrdinal version
  | .runStarted runId requestId => runFields runId requestId
  | .partsOperation runId requestId payload =>
    runFields runId requestId ∧ validProjectionFrame payload runId
  | .evidenceAdded runId requestId evidenceId => runFields runId requestId ∧ isIdentifier evidenceId
  | .resultPersisted runId requestId payload =>
    runFields runId requestId ∧ isIdentifier payload.resultId ∧ isOrdinal payload.resultVersion
  | .runTerminal runId requestId payload =>
    runFields runId requestId ∧ (payload.resolution = some .outcomeUnknown → payload.state = .partly)
  | .investigationChanged requestId runId payload =>
    (∀ id ∈ requestId, isIdentifier id) ∧ (∀ id ∈ runId, isIdentifier id) ∧
      isOrdinal payload.version

instance : DecidablePred StreamContent.valid := fun content => by
  cases content <;> unfold StreamContent.valid <;> infer_instance

/-- `validateInvestigationStreamEvent` answers `ok`. -/
def validateInvestigationStreamEvent (event : InvestigationStreamEvent) : Prop :=
  event.schemaVersion = 1 ∧ isOrdinal event.sequence ∧ isIdentifier event.investigationId ∧
    event.content.valid ∧ event.occurredAt.instant.isSome

instance : DecidablePred validateInvestigationStreamEvent := fun _ =>
  inferInstanceAs (Decidable (_ ∧ _ ∧ _ ∧ _ ∧ _))

end Slide.Investigations
