import Slide.Display.MessageParts

/-!
# The message projection

`message-projection.ts`: the display state of a run and the reducer of its frames.  A frame that is
refused leaves the very same object, which readers of the reducer compare by identity;
`acceptFrame` answers with nothing then.

Three functions of the host stay open: `JSON.stringify` and the two functions of `tool-stream.ts`
that make a tool result and the arguments of a tool call safe to show.
-/

namespace Slide.Display

/-! ## State -/

inductive RunPhase
  | preparing | waitingModel | generating | tools | approval | retrying | saving
deriving DecidableEq

inductive RunState
  | running | saving
  | ended (outcome : RunTerminal)

structure ProjectedPart where
  messageId : String
  part : MessagePart
  factMessageId : Option String := none

def ProjectedPart.id (p : ProjectedPart) : String := p.part.id

structure ProjectionAnchor where
  id : String
  parts : List ProjectedPart

structure MessageProjection where
  version : Nat
  runId : String
  (attempt sequence : Int)
  phase : RunPhase
  runState : Option RunState := none
  parts : List ProjectedPart
  anchorId : Option String := none
  terminal : Option RunTerminal := none
  error : Option String := none
  durable : Option Durable := none

/-- `ProjectionOperation`; a value of no such shape is `malformed`. -/
inductive ProjectionOperation
  | runStatus (phase : RunPhase)
  | partStart (entry : ProjectedPart)
  | partAppend (partId : String) (text : String)
  | partReplace (partId : String) (text : String)
  | partEnd (partId : String)
  /-- `tool.state` and `tool.progress`. -/
  | tool (messageId : String) (partId : String) (event : NormalizedToolEvent)
      (durable : Option Durable)
  | streamReset (anchor : ProjectionAnchor)
  | partsPersisted (documents : List MessageParts)
  | streamSnapshot (snapshot : MessageProjection)
  | runTerminal (outcome : RunTerminal) (durable : Option Durable) (error : Option String)
  | malformed

structure ProjectionFrame where
  version : Nat
  runId : String
  (attempt sequence : Int)
  operations : List ProjectionOperation

def evidence (durable : Option Durable) : Prop := ∃ d ∈ durable, identity d.reference

instance : DecidablePred evidence := fun durable => inferInstanceAs (Decidable (∃ d ∈ durable, _))

variable (p : MessagePart)

/-- The tool of a part has settled. -/
def MessagePart.toolSettled : Prop :=
  ∃ t ∈ p.tool, t.phase = .settled ∨ t.phase = .persisted

instance : DecidablePred MessagePart.toolSettled := fun p =>
  inferInstanceAs (Decidable (∃ t ∈ p.tool, _))

def confirmed : Prop := p.durable ≠ none ∨ p.toolSettled

instance : DecidablePred confirmed := fun _ => inferInstanceAs (Decidable (_ ≠ _ ∨ _))

def createMessageProjection (runId : String) : Except String MessageProjection :=
  if identity runId then
    .ok { version := 1, runId, attempt := 0, sequence := 0, phase := .preparing
          runState := some .running, parts := [] }
  else .error "INVALID_PROJECTION_RUN"

/-! ## Validation -/

/-- A tool event with a phase of the vocabulary, whose `persisted` comes with evidence. -/
def NormalizedToolEvent.valid (e : NormalizedToolEvent) (durable : Option Durable) : Prop :=
  identity e.toolCallId ∧ identity e.name ∧ 0 ≤ e.phase.rank ∧ 0 ≤ e.occurredAt ∧
    (e.phase = .persisted → evidence durable)

instance (e : NormalizedToolEvent) (durable : Option Durable) : Decidable (e.valid durable) :=
  inferInstanceAs (Decidable (_ ∧ _ ∧ _ ∧ _ ∧ (_ → _)))

/-- `validatePart` accepts. -/
def ProjectedPart.valid (p : ProjectedPart) : Prop :=
  identity p.messageId ∧ p.part.valid ∧ ∀ t ∈ p.part.tool, t.valid p.part.durable

instance : DecidablePred ProjectedPart.valid := fun _ =>
  inferInstanceAs (Decidable (_ ∧ _ ∧ ∀ t ∈ _, _))

variable (parts : List ProjectedPart)

/-- `validateParts` accepts. -/
def partsValid : Prop :=
  (∀ p ∈ parts, p.valid) ∧ (parts.map ProjectedPart.id).Nodup

instance : DecidablePred partsValid := fun _ => inferInstanceAs (Decidable (_ ∧ _))

/-- `restoreMessageProjection` returns a copy. -/
def MessageProjection.valid (s : MessageProjection) : Prop :=
  s.version = 1 ∧ identity s.runId ∧ ordinal s.attempt ∧ ordinal s.sequence ∧
    (s.terminal = some .completed → evidence s.durable) ∧ partsValid s.parts

instance : DecidablePred MessageProjection.valid := fun _ =>
  inferInstanceAs (Decidable (_ ∧ _ ∧ _ ∧ _ ∧ (_ → _) ∧ _))

def restoreMessageProjection (value : Option MessageProjection) :
    Except String MessageProjection :=
  match value with
  | some state => if state.valid then .ok state else .error "INVALID_PROJECTION_SNAPSHOT"
  | none => .error "INVALID_PROJECTION_SNAPSHOT"

/-- `validateOperation` accepts. -/
def ProjectionOperation.valid (runId : String) : ProjectionOperation → Prop
  | .runStatus _ => True
  | .partStart entry => entry.valid ∧ entry.part.status = .partly ∧ entry.part.durable = none ∧
      entry.part.generation ≠ some .ended
  | .partAppend partId _ | .partReplace partId _ | .partEnd partId => identity partId
  | .tool messageId partId event durable =>
      identity partId ∧ identity messageId ∧ event.valid durable
  | .streamReset anchor => identity anchor.id ∧ partsValid anchor.parts
  | .partsPersisted documents => ∀ doc ∈ documents,
      doc.valid ∧ doc.runId = some runId ∧ evidence doc.durable
  | .streamSnapshot snapshot => snapshot.valid ∧ snapshot.runId = runId
  | .runTerminal outcome durable _ => outcome = .completed → evidence durable
  | .malformed => False

instance (runId : String) (op : ProjectionOperation) : Decidable (op.valid runId) := by
  cases op <;> unfold ProjectionOperation.valid <;> infer_instance

def validProjectionFrame (frame : ProjectionFrame) (runId : String) : Prop :=
  frame.version = 1 ∧ frame.runId = runId ∧ ordinal frame.attempt ∧ ordinal frame.sequence ∧
    ∀ op ∈ frame.operations, op.valid runId

instance (frame : ProjectionFrame) (runId : String) : Decidable (validProjectionFrame frame runId) :=
  inferInstanceAs (Decidable (_ ∧ _ ∧ _ ∧ _ ∧ _))

/-! ## Parts of a state -/

/-- Rewrite the first part of an id. -/
def updateFirst (id : String) (set : MessagePart → MessagePart) :
    List ProjectedPart → List ProjectedPart
  | [] => []
  | p :: rest =>
    if p.id = id then { p with part := set p.part } :: rest else p :: updateFirst id set rest

/-- Put a part in the place of the first one of its id. -/
def replaceFirst (row : ProjectedPart) : List ProjectedPart → List ProjectedPart
  | [] => []
  | p :: rest => if p.id = row.id then row :: rest else p :: replaceFirst row rest

def findPart (id : String) : Option ProjectedPart :=
  parts.find? fun p => p.id = id

/-- Some part has this id. -/
def hasPart (id : String) : Prop := ∃ p ∈ parts, p.id = id

instance (parts : List ProjectedPart) (id : String) : Decidable (hasPart parts id) :=
  inferInstanceAs (Decidable (∃ p ∈ parts, _))

/-! ## Text -/

/-- The text of a part that streams, and the same part with another text. -/
def PartBody.stream : PartBody → Option (String × (String → PartBody))
  | .text shown => some (shown, fun shown => .text shown)
  | .reasoning (some shown) block format =>
    some (shown, fun shown => .reasoning (some shown) block format)
  | .toolInput call shown name => some (shown, fun shown => .toolInput call shown name)
  | .runtimeNotice shown => some (shown, fun shown => .runtimeNotice shown)
  | _ => none

/-- `part.append` and `part.replace` on a part. -/
def MessagePart.writeText (write : String → String) : MessagePart :=
  if p.generation ≠ some .isOpen ∨ p.durable ≠ none ∨ p.status ≠ .partly then p
  else match p.body.stream with
    | some (text, body) => { p with body := body (write text) }
    | none => p

/-- `part.end` on a part. -/
def MessagePart.endOpen : MessagePart :=
  if p.generation = some .isOpen then { p with generation := some .ended } else p

/-! ## Tools -/

/-- The row is the call an event is about. -/
def ProjectedPart.isCall (row : ProjectedPart) (messageId toolCallId : String) : Prop :=
  row.messageId = messageId ∧ ∃ call, row.part.body = .toolCall call ∧ call.id = toolCallId

instance (row : ProjectedPart) (messageId toolCallId : String) :
    Decidable (row.isCall messageId toolCallId) := by
  unfold ProjectedPart.isCall
  refine @instDecidableAnd _ _ _ ?_
  match row.part.body with
  | .toolCall call =>
    exact decidable_of_iff (call.id = toolCallId)
      ⟨fun same => ⟨call, rfl, same⟩, fun ⟨_, same, named⟩ => PartBody.toolCall.inj same ▸ named⟩
  | .text _ | .reasoning .. | .toolInput .. | .toolResult .. | .attachment ..
  | .runtimeNotice _ => exact isFalse nofun

/-- A fragment of the arguments of a call. -/
def MessagePart.isFragment (toolCallId : String) : Prop :=
  ∃ text name, p.body = .toolInput toolCallId text name

instance (p : MessagePart) (toolCallId : String) : Decidable (p.isFragment toolCallId) := by
  unfold MessagePart.isFragment
  match p.body with
  | .toolInput call text name =>
    exact decidable_of_iff (call = toolCallId)
      ⟨fun same => ⟨text, name, same ▸ rfl⟩, fun ⟨_, _, same⟩ => (PartBody.toolInput.inj same).1⟩
  | .text _ | .reasoning .. | .toolCall _ | .toolResult .. | .attachment ..
  | .runtimeNotice _ => exact isFalse nofun

/-- The event is about another tool or has another outcome than the one recorded. -/
def NormalizedToolEvent.contradicts (e prior : NormalizedToolEvent) : Prop :=
  prior.name ≠ e.name ∨ prior.outcome ≠ none ∧ e.outcome ≠ none ∧ prior.outcome ≠ e.outcome

instance (e prior : NormalizedToolEvent) : Decidable (e.contradicts prior) :=
  inferInstanceAs (Decidable (_ ∨ _ ≠ _ ∧ _ ≠ _ ∧ _ ≠ _))

/-- The event comes after a later one. -/
def NormalizedToolEvent.late (e prior : NormalizedToolEvent) : Prop :=
  e.phase.rank < prior.phase.rank ∨
    (prior.phase = .settled ∨ prior.phase = .persisted) ∧ e.phase ≠ .persisted

instance (e prior : NormalizedToolEvent) : Decidable (e.late prior) :=
  inferInstanceAs (Decidable (_ ∨ (_ ∨ _) ∧ _))

/-- The event on top of the one recorded. -/
def NormalizedToolEvent.after (e : NormalizedToolEvent) (prior : Option NormalizedToolEvent) :
    NormalizedToolEvent :=
  { e with
    outcome := e.outcome.or (prior.bind (·.outcome))
    args := nullish e.args (prior.bind (·.args))
    preview := nullish e.preview (prior.bind (·.preview))
    progress := nullish e.progress (prior.bind (·.progress))
    startedAt := nullish (prior.bind (·.startedAt)) e.startedAt
    settledAt := nullish (prior.bind (·.settledAt))
      (if e.phase = .settled then some (.number e.occurredAt) else none)
    persistedAt := nullish (prior.bind (·.persistedAt))
      (if e.phase = .persisted then some (.number e.occurredAt) else none) }

/-! ## Anchors -/

/-- `slice(0, index)` for an index of -1 or more. -/
def sliceBefore (index : Option Nat) : List ProjectedPart :=
  match index with
  | some index => parts.take index
  | none => parts.dropLast

/-- Put a kept part into the rows of an anchor that lacks it, next to its neighbours in `original`. -/
def mergeKept (original parts : List ProjectedPart) (p : ProjectedPart) : List ProjectedPart :=
  if hasPart parts p.id then parts
  else
    let index := original.findIdx? fun a => a.id = p.id
    let known := fun a : ProjectedPart => decide (hasPart parts a.id)
    let successor := (original.drop (index.elim 0 (· + 1))).find? known
    let predecessor := (sliceBefore original index).reverse.find? known
    let place := match predecessor, successor with
      | some before, _ => parts.findIdx (fun a => a.id = before.id) + 1
      | none, some after => parts.findIdx fun a => a.id = after.id
      | none, none => 0
    parts.insertIdx place p

/-- The rows after a reset: the anchor, with the kept parts in it. -/
def resetParts (original kept anchor : List ProjectedPart) : List ProjectedPart :=
  kept.foldl (mergeKept original) (anchor.map fun p => (findPart kept p.id).getD p)

/-- A kept part over the rows of a snapshot. -/
def overlay (p : ProjectedPart) : List ProjectedPart :=
  if hasPart parts p.id then replaceFirst p parts else parts ++ [p]

/-! ## The reducer -/

/-- What the host supplies. -/
structure Host where
  /-- `JSON.stringify`. -/
  stringify : Json → String
  /-- `buildToolPreview(content, toolCallId).text`, for a content that is parsed first. -/
  preview : Json → String → String
  /-- The arguments of a call after `boundedToolValue`. -/
  safeArguments : String → String

section Reducer

variable (host : Host)

def displayPart (p : MessagePart) : MessagePart :=
  match p.body with
  | .toolResult toolCallId content name =>
    { p with body := .toolResult toolCallId (.string (host.preview content toolCallId)) name }
  | .toolCall call =>
    { p with body := .toolCall { call with arguments := host.safeArguments call.arguments } }
  | _ => p

/-- The call with the arguments of an event, when it has any. -/
def withArguments (body : PartBody) (args : Option Json) : PartBody :=
  match body, args with
  | .toolCall call, some value =>
    if value.truthy then .toolCall { call with arguments := host.stringify value } else body
  | _, _ => body

/-- The part of a call after an event. -/
def recordTool (e : NormalizedToolEvent) (durable : Option Durable) (p : MessagePart) :
    MessagePart :=
  let recorded :=
    { p with tool := some (e.after p.tool), body := withArguments host p.body e.args }
  if e.phase = .persisted then { recorded with durable, status := .completed } else recorded

/-- The time a persisted tool was persisted. -/
def stampPersisted (e : NormalizedToolEvent) (p : MessagePart) : MessagePart :=
  { p with tool := p.tool.map fun t => { t with persistedAt := some (.number e.occurredAt) } }

/-- The row of a call without one. -/
def newCall (messageId partId : String) (e : NormalizedToolEvent) : ProjectedPart where
  messageId
  part :=
    { id := partId, source := some (.string "fact"), status := .partly, generation := some .ended
      body := .toolCall ⟨e.toolCallId, e.name, host.stringify ((nullish e.args none).getD (.object []))⟩ }

/-- `tool.state` and `tool.progress`. -/
def toolParts (messageId partId : String) (e : NormalizedToolEvent) (durable : Option Durable)
    (parts : List ProjectedPart) : List ProjectedPart :=
  let row := findPart parts partId
  let prior := row.bind (·.part.tool)
  let record := fun parts : List ProjectedPart =>
    updateFirst partId (recordTool host e durable) (parts.filter fun p => ¬ p.part.isFragment e.toolCallId)
  if ∃ r ∈ row, ¬ r.isCall messageId e.toolCallId then parts
  else if ∃ before ∈ prior, e.contradicts before then parts
  else if ∃ before ∈ prior, before.phase = .persisted then
    if e.phase = .persisted ∧ (prior.bind (·.persistedAt)).isNone then
      updateFirst partId (stampPersisted e) parts
    else parts
  else if ∃ before ∈ prior, e.late before then parts
  else record (if row.isNone then parts ++ [newCall host messageId partId e] else parts)

/-- The row of a persisted part over the row it meets. -/
def persistedRow (doc : MessageParts) (part : MessagePart) (prior : Option NormalizedToolEvent) :
    ProjectedPart :=
  let shown := displayPart host part
  let tool := match prior, shown.tool with
    | some before, none => some before
    | some before, some own => if own.phase.rank ≤ before.phase.rank then some before else some own
    | none, own => own
  let tool := tool.map fun t =>
    if t.phase = .settled ∧ shown.status = .completed then { t with phase := .persisted } else t
  { messageId := part.sourceMessageId.getD (doc.projectionMessageId.getD doc.id)
    factMessageId := some doc.id
    part := { shown with generation := some .ended, tool } }

/-- One part of a document of `parts.persisted`. -/
def persistPart (doc : MessageParts) (parts : List ProjectedPart) (part : MessagePart) :
    List ProjectedPart :=
  match findPart parts part.id with
  | none => parts ++ [persistedRow host doc part none]
  | some row =>
    if row.part.durable = none ∨ row.part.status ≠ .completed then
      replaceFirst (persistedRow host doc part row.part.tool) parts
    else parts

/-- `parts.persisted`. -/
def persistParts (documents : List MessageParts) (parts : List ProjectedPart) :
    List ProjectedPart :=
  documents.foldl (fun parts doc => doc.parts.foldl (persistPart host doc) parts) parts

/-- One operation of a frame on the state before the frame and the state so far. -/
def applyOperation (state : MessageProjection) (frame : ProjectionFrame)
    (next : MessageProjection) (op : ProjectionOperation) : MessageProjection :=
  if next.terminal ≠ none then next
  else match op with
    | .runStatus phase =>
      { next with phase, runState := some (if phase = .saving then .saving else .running) }
    | .partStart entry =>
      if hasPart next.parts entry.id then next
      else { next with
        parts := next.parts ++
          [⟨entry.messageId, { entry.part with generation := some .isOpen }, none⟩] }
    | .partAppend partId text =>
      { next with parts := updateFirst partId (·.writeText (· ++ text)) next.parts }
    | .partReplace partId text =>
      { next with parts := updateFirst partId (·.writeText fun _ => text) next.parts }
    | .partEnd partId => { next with parts := updateFirst partId MessagePart.endOpen next.parts }
    | .tool messageId partId event durable =>
      { next with parts := toolParts host messageId partId event durable next.parts }
    | .streamReset anchor =>
      { next with
        parts := resetParts state.parts (next.parts.filter fun p => confirmed p.part) anchor.parts
        anchorId := some anchor.id, phase := .retrying, runState := some .running }
    | .partsPersisted documents => { next with parts := persistParts host documents next.parts }
    | .streamSnapshot snapshot =>
      if snapshot.attempt < state.attempt ∨ snapshot.sequence < state.sequence then next
      else
        -- `Object.assign` keeps what the snapshot does not have
        { snapshot with
          sequence := frame.sequence, attempt := frame.attempt
          runState := snapshot.runState.or next.runState
          anchorId := snapshot.anchorId.or next.anchorId
          terminal := snapshot.terminal.or next.terminal
          error := snapshot.error.or next.error
          durable := snapshot.durable.or next.durable
          parts := (next.parts.filter fun p => confirmed p.part).foldl overlay snapshot.parts }
    | .runTerminal outcome durable error =>
      { next with
        terminal := some outcome, runState := some (.ended outcome), error, durable
        parts := next.parts.map fun p =>
          { p with part := { p.part with generation := some .ended } } }
    | .malformed => next

/-- The new state of `reduceMessageProjection`; a refused frame has none. -/
def acceptFrame (state : MessageProjection) (value : Option ProjectionFrame) :
    Option MessageProjection :=
  match value with
  | none => none
  | some frame =>
    if frame.version ≠ 1 ∨ frame.runId ≠ state.runId ∨ ¬ ordinal frame.attempt ∨
        ¬ ordinal frame.sequence ∨ state.terminal ≠ none ∨ frame.attempt < state.attempt ∨
        frame.sequence ≤ state.sequence then none
    else if ¬ ∀ op ∈ frame.operations, op.valid state.runId then none
    else some (frame.operations.foldl (applyOperation host state frame)
      { state with attempt := frame.attempt, sequence := frame.sequence })

def reduceMessageProjection (state : MessageProjection) (value : Option ProjectionFrame) :
    MessageProjection :=
  (acceptFrame host state value).getD state

end Reducer

end Slide.Display
