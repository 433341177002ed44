import Slide.Attention.Correlator
import Slide.Library.Paging

/-!
# Attention snapshots

`compute`, `applyPartitions`, `override` and `page` of `operations/attention/store.ts`, over one chain
of snapshots: one principal, one list of resources and one window, hence one id.  A transaction holds
the policy lock from its start, so the versions of a chain are written one after another.  What a
transaction loads comes with its step; one that is refused, or fails, writes nothing.
-/

namespace Slide.Attention

/-- What the versions of a chain share. -/
structure Chain where
  id : String
  /-- `from`. -/
  start : Int

structure Override where
  ofVersion : Nat
  reason : String
  actorId : Nat
  partitions : List (List String)

/-- `facts` of the transaction. -/
structure Facts where
  edges : List AttentionEdge
  baseline : Baseline
  incomplete : Bool

structure AttentionSnapshot where
  version : Nat
  groups : List AttentionGroup
  events : List AttentionEvent
  facts : Facts
  override : Option Override

/-! ## Partitions -/

variable (hash : HashInput → String) (view : View) (chain : Chain)

/-- One partition of the loop: the events assigned so far and the parts. -/
def assign (events : List AttentionEvent) (previous : List AttentionGroup)
    (state : List String × List Part) (partition : List String) :
    Except OperationsError (List String × List Part) :=
  let members := events.filter (·.id ∈ partition)
  let ids := (members.map (·.id)).insertionSort JsString.le
  if members = [] then .ok state
  else if members.any (·.id ∈ state.1) then .error inputInvalid
  else .ok (state.1 ++ members.map (·.id), state.2 ++ [{
    members
    heir := previous.find? fun g => g.eventIds.length = members.length && g.eventIds.all (· ∈ partition)
    own := .partition chain.id ids
    reasons := [⟨.manual, ids, [], none⟩] }])

/-- The part of an event that no partition names. -/
def latePart (event : AttentionEvent) : Part where
  members := [event]
  heir := none
  own := .event chain.id event.id
  reasons := []

/-- The parts that `applyPartitions` builds groups of. -/
def partitionedParts (events : List AttentionEvent) (partitions : List (List String))
    (previous : List AttentionGroup) (allowNew : Bool) : Except OperationsError (List Part) := do
  let state ← partitions.foldlM (assign chain events previous) ([], [])
  if !allowNew && (state.1.length ≠ events.length ||
      partitions.flatten.any fun id => id ∉ events.map (·.id)) then throw inputInvalid
  pure (state.2 ++ (events.filter (·.id ∉ state.1)).map (latePart chain))

/-! ## Steps -/

structure ComputeInput where
  events : List AttentionEvent
  facts : Facts

structure OverrideInput where
  expectedVersion : Nat
  reason : String
  actorId : Nat
  service : Bool
  partitions : List (List String)
  /-- What `loadEvents` returns now. -/
  currentEvents : List AttentionEvent
  facts : Facts

variable (value : AttentionSnapshot) (previous : Option AttentionSnapshot)

/-- The parts of the groups that `compute` stores. -/
def computeParts (input : ComputeInput) : Except OperationsError (List Part) :=
  let groups := (previous.map (·.groups)).getD []
  match previous.bind (·.override) with
  | none => .ok (correlatedParts hash input.events input.facts.edges chain.start groups)
  | some override => partitionedParts chain input.events override.partitions groups true

/-- `compute`.  With an override the groups of `correlate` are replaced. -/
def compute (input : ComputeInput) : Except OperationsError AttentionSnapshot := do
  let result ← correlate hash input.events input.facts.edges chain.start input.facts.baseline
    ((previous.map (·.groups)).getD [])
  let groups ← match previous.bind (·.override) with
    | none => pure result.groups
    | some override => do
      let parts ← partitionedParts chain input.events override.partitions
        ((previous.map (·.groups)).getD []) true
      buildGroups hash input.facts.baseline parts
  pure
    { version := (previous.map (·.version)).getD 0 + 1
      groups
      events := input.events
      facts := input.facts
      override := previous.bind (·.override) }

/-- `override`; `head` throws without a snapshot. -/
def override (hash : HashInput → String) (chain : Chain) (previous : Option AttentionSnapshot)
    (input : OverrideInput) : Except OperationsError AttentionSnapshot := do
  if input.service || !input.partitions.flatten.Nodup then throw inputInvalid
  match previous with
  | none => throw "OPERATIONS_NOT_FOUND"
  | some previous => do
    if previous.version ≠ input.expectedVersion then throw "OPERATIONS_VERSION_CONFLICT"
    -- the hashes of two events are equal for equal events only
    if previous.events.any (· ∉ input.currentEvents) then throw "OPERATIONS_PRECONDITION_FAILED"
    let parts ← partitionedParts chain previous.events input.partitions previous.groups false
    let groups ← buildGroups hash input.facts.baseline parts
    pure
      { version := previous.version + 1
        groups
        events := previous.events
        facts := input.facts
        override := some ⟨previous.version, input.reason, input.actorId, input.partitions⟩ }

inductive Step
  | compute (input : ComputeInput)
  | override (input : OverrideInput)

/-- The parts of the groups that a step stores. -/
def Step.parts :
    Step → Except OperationsError (List Part)
  | .compute input => computeParts hash chain previous input
  | .override input => match previous with
    | none => .ok []
    | some previous => partitionedParts chain previous.events input.partitions previous.groups false

/-- The snapshot that a step appends. -/
def Step.append :
    Step → Except OperationsError AttentionSnapshot
  | .compute input => Attention.compute hash chain previous input
  | .override input => Attention.override hash chain previous input

/-- The stored snapshots after a step, the newest first. -/
def store (snapshots : List AttentionSnapshot)
    (step : Step) : List AttentionSnapshot :=
  match step.append hash chain snapshots.head? with
  | .error _ => snapshots
  | .ok value => value :: snapshots

def stored (steps : List Step) : List AttentionSnapshot :=
  steps.foldl (store hash chain) []

/-! ## Pages -/

/-- What a read finds besides the snapshot. -/
structure View where
  /-- `readable` lets the group through. -/
  readable : AttentionGroup → Bool
  currentEvents : List AttentionEvent
  facts : Facts
  /-- The edges of the snapshot whose ends are readable. -/
  historicalEdges : List String
  attention : Bool
  now : Int
  /-- The hash of the principal, the snapshot and the items. -/
  fingerprint : String

structure Item extends AttentionGroup where
  recordedScore : AttentionScore
  recordedReasons : List CorrelationReason
  current : Bool
  missing : List String

/-- The group may be shown: it is readable, and its events are as they were but for signatures. -/
def View.permits (group : AttentionGroup) : Bool :=
  view.readable group && group.eventIds.all fun id =>
    match value.events.find? (·.id = id), view.currentEvents.find? (·.id = id) with
    | some stored, some current =>
      decide ({ stored with signature := none } = { current with signature := none })
    | _, _ => false

/-- A reason still holds. -/
def View.holds (reason : CorrelationReason) : Bool :=
  match reason.kind with
  | .knownSignature => reason.eventIds.all fun id =>
    ((view.currentEvents.find? (·.id = id)).bind (·.signature)) = reason.signature
  | .relationPath => reason.relationIds.all fun id =>
    match value.facts.edges.find? (·.id = id), view.facts.edges.find? (·.id = id) with
    | some old, some current =>
      old.version = current.version && old.hash = current.hash && view.now < current.validUntil
    | _, _ => false
  | _ => true

/-- The score of an item; without a reason that held when it was stored its persistence is unknown. -/
def projectedScore (stale : Bool) (projected : AttentionGroup) :
    Except OperationsError AttentionScore :=
  if stale then
    scoreAttention ⟨projected.severity, none, none, projected.score.components.baseline.map (· / 15)⟩
  else .ok projected.score

/-- The item of a permitted group. -/
def View.project (group : AttentionGroup) :
    Except OperationsError Item := do
  let validReasons := group.reasons.filter (view.holds value)
  let stale := validReasons.length ≠ group.reasons.length
  let historical := chain.start + 2 * windowMs ≤ view.now
  let members := value.events.filter (·.id ∈ group.eventIds)
  let projected ← buildGroup group.id members validReasons view.facts.baseline
  let score ← projectedScore stale projected
  pure
    { projected with
      score
      recordedScore := group.score
      recordedReasons := group.reasons.filter fun r => r.relationIds.all (· ∈ view.historicalEdges)
      current := !(stale || !view.attention || historical)
      missing := (if stale then ["relation_no_longer_valid"] else []) ++
        (if view.attention then [] else ["feature_disabled"]) ++
        (if historical then ["historical_observation_window"] else []) ++
        (if score.components.baseline.isNone then ["baseline_unknown"] else []) ++
        ["confirmed_impact_unknown"] }

def View.items (view : View) (chain : Chain) (value : AttentionSnapshot) :
    Except OperationsError (List Item) := do
  let items ← (value.groups.filter (view.permits value)).mapM (view.project chain value)
  pure (items.insertionSort fun a b => a.toAttentionGroup.le b.toAttentionGroup = true)

structure Cursor where
  (fingerprint after : String)

structure AttentionPage where
  items : List Item
  total : Nat
  nextCursor : Option Cursor

/-- `page`; a limit is positive. -/
def page (limit : Nat)
    (cursor : Option Cursor) : Except OperationsError AttentionPage := do
  let items ← view.items chain value
  if cursor.any fun c => c.fingerprint ≠ view.fingerprint then throw "OPERATIONS_VERSION_CONFLICT"
  match Paging.page (·.id) items limit (cursor.map (·.after)) with
  | none => throw inputInvalid
  | some answer => pure ⟨answer.1, items.length, answer.2.map (⟨view.fingerprint, ·⟩)⟩

end Slide.Attention
