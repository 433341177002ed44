import Mathlib.Data.Rat.Floor
import Slide.Library.Fallible
import Slide.Library.GroupBy
import Slide.Library.JsString
import Slide.Resources.Access

/-!
# Attention groups

`correlate` and `buildGroup` of `operations/attention/correlator.ts` with the scores of `scoring.ts`.
Times are milliseconds of the epoch.  The numbers of a score are exact here; they only order the
groups.  A group takes its id from a previous group or from `operationsContentHash` of a `HashInput`.
-/

namespace Slide.Attention

open Slide.Resources

/-- The code of an `OperationsError`. -/
abbrev OperationsError := String

def inputInvalid : OperationsError := "OPERATIONS_INPUT_INVALID"

/-! ## Scores -/

inductive AttentionSeverity
  | critical | error | warning | info
deriving DecidableEq

/-- `severityOrder`. -/
def AttentionSeverity.order : AttentionSeverity → Nat
  | .critical => 3
  | .error => 2
  | .warning => 1
  | .info => 0

structure ScoreInputs where
  severity : AttentionSeverity
  (impact persistence baseline : Option ℚ)

structure Components where
  severity : ℚ
  (impact persistence baseline : Option ℚ)

structure AttentionScore where
  (lower upper coverage : ℚ)
  components : Components

/-- Four digits, halves up. -/
def round (n : ℚ) : ℚ := (n * 10000 + 1 / 2).floor / 10000

/-- One fact of a score: its rounded component. -/
def component (value : Option ℚ) (weight : ℚ) : Except OperationsError (Option ℚ) :=
  match value with
  | none => .ok none
  | some value =>
    if value < 0 ∨ 1 < value then .error inputInvalid else .ok (some (round (value * weight)))

def scoreAttention (input : ScoreInputs) : Except OperationsError AttentionScore := do
  let severity : ℚ := 50 * input.severity.order / 3
  let impact ← component input.impact 20
  let persistence ← component input.persistence 15
  let baseline ← component input.baseline 15
  let lower := severity + impact.getD 0 + persistence.getD 0 + baseline.getD 0
  let missing : ℚ := (if impact.isNone then 20 else 0) + (if persistence.isNone then 15 else 0) +
    if baseline.isNone then 15 else 0
  pure ⟨round lower, round (lower + missing), (100 - missing) / 100,
    ⟨severity, impact, persistence, baseline⟩⟩

/-! ## Events and groups -/

structure AttentionEvent where
  id : String
  resource : ResourceRef
  investigationId : Option String
  occurredAt : Int
  severity : AttentionSeverity
  signature : Option String
deriving DecidableEq

structure AttentionEdge where
  id : String
  version : Nat
  hash : String
  (source target : ResourceRef)
  validUntil : Int

inductive ReasonKind
  | sameResource | relationPath | knownSignature | manual

structure CorrelationReason where
  kind : ReasonKind
  (eventIds relationIds : List String)
  signature : Option String

structure AttentionGroup where
  id : String
  (eventIds investigationIds : List String)
  resources : List ResourceRef
  (firstObservedAt lastObservedAt : Int)
  severity : AttentionSeverity
  score : AttentionScore
  reasons : List CorrelationReason

/-- `baseline[resourceKey(ref)] ?? null`. -/
abbrev Baseline := ResourceRef → Option ℚ

/-- `compareAttention(a, b) <= 0`. -/
def AttentionGroup.le (a b : AttentionGroup) : Bool :=
  if a.severity.order ≠ b.severity.order then b.severity.order < a.severity.order
  else if a.score.lower ≠ b.score.lower then b.score.lower < a.score.lower
  else if a.firstObservedAt ≠ b.firstObservedAt then a.firstObservedAt < b.firstObservedAt
  else decide (JsString.le a.id b.id)

/-- `sort(compareAttention)`. -/
def sortGroups (groups : List AttentionGroup) : List AttentionGroup :=
  groups.insertionSort fun a b => a.le b = true

/-- The order of events: by time and then by id. -/
def AttentionEvent.le (a b : AttentionEvent) : Prop :=
  a.occurredAt < b.occurredAt ∨ a.occurredAt = b.occurredAt ∧ JsString.le a.id b.id

instance : DecidableRel AttentionEvent.le := fun _ _ => inferInstanceAs (Decidable (_ ∨ _))

def sortEvents (events : List AttentionEvent) : List AttentionEvent :=
  events.insertionSort AttentionEvent.le

/-- The last value of each key, in the order of the keys' first ones: `new Map(...).values()`. -/
def lastValues {α κ : Type} [DecidableEq κ] (key : α → κ) (l : List α) : List α :=
  (GroupBy.groupBy key l).filterMap fun group => group.2.getLast?

def windowMs : Int := 15 * 60000

/-- `observationWindow(observedAt).from`. -/
def windowStart (observedAt : Int) : Int := observedAt / windowMs * windowMs

def buildGroup (id : String) (members : List AttentionEvent) (reasons : List CorrelationReason)
    (baseline : Baseline) : Except OperationsError AttentionGroup := do
  match sortEvents members with
  | [] => throw inputInvalid
  | first :: rest =>
    let last := rest.getLast?.getD first
    let resources := (lastValues ResourceRef.key (members.map (·.resource))).insertionSort
      fun a b => JsString.le a.key b.key
    let severity := members.foldl
      (fun s e => if s.order < e.severity.order then e.severity else s) (members.headD first).severity
    let values := resources.map baseline
    let score ← scoreAttention
      { severity
        impact := none
        persistence := if 1 < members.length then
          some ((last.occurredAt - first.occurredAt) / windowMs) else none
        baseline := if values.all Option.isSome then (values.filterMap fun v => v).max? else none }
    pure
      { id
        eventIds := (members.map (·.id)).insertionSort JsString.le
        investigationIds := ((members.filterMap (·.investigationId)).filter (· ≠ "")).eraseDups.insertionSort
          JsString.le
        resources, severity, score, reasons
        firstObservedAt := first.occurredAt
        lastObservedAt := last.occurredAt }

/-! ## Identities -/

/-- What the id of a new group is the hash of. -/
inductive HashInput
  | anchor (start : Int) (event : String)
  | partition (snapshot : String) (eventIds : List String)
  | event (snapshot event : String)

/-- A group to be built: its members, the previous group whose id it takes, and what its own id would
be the hash of. -/
structure Part where
  members : List AttentionEvent
  heir : Option AttentionGroup
  own : HashInput
  reasons : List CorrelationReason

def Part.id (hash : HashInput → String) (part : Part) : String :=
  (part.heir.map (·.id)).getD (hash part.own)

/-- The groups of the parts, as `compareAttention` sorts them. -/
def buildGroups (hash : HashInput → String) (baseline : Baseline) (parts : List Part) :
    Except OperationsError (List AttentionGroup) := do
  let groups ← parts.mapM fun part => buildGroup (part.id hash) part.members part.reasons baseline
  pure (sortGroups groups)

/-! ## Correlation -/

/-- A place the search for a path has come to. -/
structure Stop where
  key : String
  ids : List String

/-- An edge from a stop; the ids of a path that arrives are thrown. -/
def hop (target : String) (current : Stop) (state : List String × List Stop) (edge : AttentionEdge) :
    Except (List String) (List String × List Stop) :=
  let x := edge.source.key
  let y := edge.target.key
  match if x = current.key then some y else if y = current.key then some x else none with
  | none => .ok state
  | some other =>
    if other ∈ state.1 then .ok state
    else
      let ids := current.ids ++ [edge.id]
      if other = target then .error ids else .ok (other :: state.1, state.2 ++ [⟨other, ids⟩])

/-- One turn of `while (queue.length)`, with the keys seen so far and the next queue. -/
def turn (bounded : List AttentionEdge) (target : String) (seen : List String) (queue : List Stop) :
    Except (List String) (List String × List Stop) :=
  queue.foldlM (fun state current =>
    if current.ids.length = 2 then .ok state else bounded.foldlM (hop target current) state) (seen, [])

/-- The loop: every turn lengthens the ids of its stops, and stops with two ids lead nowhere, so that
the third turn leaves no stops. -/
def search (bounded : List AttentionEdge) (target : String) :
    (turns : Nat) → (seen : List String) → (queue : List Stop) → Option (List String)
  | 0, _, _ => none
  | turns + 1, seen, queue =>
    match turn bounded target seen queue with
    | .error ids => some ids
    | .ok (seen, next) => search bounded target turns seen next

def path (bounded : List AttentionEdge) (a b : ResourceRef) : Option (List String) :=
  search bounded b.key 3 [a.key] [⟨a.key, []⟩]

/-- Why two events belong together. -/
def reasonFor (bounded : List AttentionEdge) (a b : AttentionEvent) : Option CorrelationReason :=
  if a.resource.key = b.resource.key then some ⟨.sameResource, [a.id, b.id], [], none⟩
  else match path bounded a.resource b.resource with
    | some ids => some ⟨.relationPath, [a.id, b.id], ids, none⟩
    | none =>
      if a.signature.any (· ≠ "") ∧ a.signature = b.signature then
        some ⟨.knownSignature, [a.id, b.id], [], a.signature⟩
      else none

/-- The pairs of a list, as the two loops go through them. -/
def pairs {α : Type} : List α → List (α × α)
  | [] => []
  | a :: rest => rest.map (a, ·) ++ pairs rest

/-- One round of the loops over the sorted events.  `roots` holds `root(i)` of every event: pointing
the root of `j` to the root of `i` gives all of its events that root. -/
def connect (bounded : List AttentionEdge) (state : List Nat × List CorrelationReason)
    (pair : (AttentionEvent × Nat) × (AttentionEvent × Nat)) : List Nat × List CorrelationReason :=
  let i := state.1.getD pair.1.2 pair.1.2
  let j := state.1.getD pair.2.2 pair.2.2
  if i = j then state
  else match reasonFor bounded pair.1.1 pair.2.1 with
    | none => state
    | some reason => (state.1.map fun r => if r = j then i else r, state.2 ++ [reason])

/-- `bounded`. -/
def boundedEdges (edges : List AttentionEdge) : List AttentionEdge :=
  ((lastValues (·.id) edges).insertionSort fun a b => JsString.le a.id b.id).take 100

/-- The sets of related events in the order of their first ones, and the reasons. -/
def components (edges : List AttentionEdge) (sorted : List AttentionEvent) :
    List (List AttentionEvent) × List CorrelationReason :=
  let indexed := sorted.zipIdx
  let joined := (pairs indexed).foldl (connect (boundedEdges edges)) (List.range sorted.length, [])
  ((GroupBy.groupBy (fun e => joined.1.getD e.2 e.2) indexed).map fun set => set.2.map Prod.fst,
    joined.2)

/-- `[...previous].sort(...)`. -/
def byId (previous : List AttentionGroup) : List AttentionGroup :=
  previous.insertionSort fun a b => JsString.le a.id b.id

/-- The parts of the sets; each takes the id of the first previous group that shares an event with it
and is not used yet, and then its own id is used. -/
def takeOver (hash : HashInput → String) (start : Int) (previous : List AttentionGroup)
    (reasons : List CorrelationReason) : (used : List String) → List (List AttentionEvent) → List Part
  | _, [] => []
  | used, members :: rest =>
    let scope := members.map (·.id)
    let part : Part :=
      { members
        heir := (byId previous).find? fun g => g.id ∉ used && g.eventIds.any (· ∈ scope)
        own := .anchor start ((members.head?.map (·.id)).getD "")
        reasons := reasons.filter fun r => r.eventIds.all (· ∈ scope) }
    part :: takeOver hash start previous reasons (part.id hash :: used) rest

/-- The parts that `correlate` builds groups of. -/
def correlatedParts (hash : HashInput → String) (events : List AttentionEvent)
    (edges : List AttentionEdge) (start : Int) (previous : List AttentionGroup) : List Part :=
  let sets := components edges (sortEvents events)
  takeOver hash start previous sets.2 [] sets.1

structure CorrelationResult where
  (start until_ : Int)
  groups : List AttentionGroup
  incomplete : Bool

/-- `correlate`; `start` is `from`. -/
def correlate (hash : HashInput → String) (events : List AttentionEvent) (edges : List AttentionEdge)
    (start : Int) (baseline : Baseline) (previous : List AttentionGroup) :
    Except OperationsError CorrelationResult := do
  if start % windowMs ≠ 0 ∨ 1000 < events.length then throw inputInvalid
  if ¬ (events.map (·.id)).Nodup ∨
      ∃ e ∈ events, e.occurredAt < start ∨ start + windowMs ≤ e.occurredAt then throw inputInvalid
  let groups ← buildGroups hash baseline (correlatedParts hash events edges start previous)
  pure ⟨start, start + windowMs, groups, 100 < edges.length⟩

end Slide.Attention
