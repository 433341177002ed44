import Slide.Relations.Revisions

/-!
# The graph around a resource

`RelationService.graph` of `operations/relations/service.ts`: a breadth-first walk over the heads with a
budget of edges, a second check of every edge it has taken, and the edges that still hang together with
the root.  The walk itself appends the revisions of heads that it finds expired or withdrawn.
-/

namespace Slide.Relations

open Slide.Resources

def notFound : String := "OPERATIONS_NOT_FOUND"

/-- The rows of `resource_relation_revisions`, with their primary key, and the legacy rows. -/
structure Tables where
  legacy : Legacy
  revisions : List StoredRelation
  keyed : (revisions.map fun r => (r.relationId, r.version)).Nodup

/-- What the traversal asks besides the tables: which resources the caller may read, the answers of
`RelationEvidence.check`, and the clock at the start, at the two readings in the second check of each
edge, and before the response. -/
structure Environment where
  readable : ResourceRef → Bool
  evidence : StoredRelation → Int → EvidenceCheck
  now : Int
  (sendAt legacyAt : Nat → Int)
  responseAt : Int

structure GraphOptions where
  (hops maxEdges : Nat)
  factsOnly : Bool

/-- What the schema of the options accepts. -/
def GraphOptions.valid (options : GraphOptions) : Bool :=
  1 ≤ options.hops && options.hops ≤ 2 && 1 ≤ options.maxEdges && options.maxEdges ≤ 100

def Origin.text : Origin → String
  | .manual => "manual"
  | .collector => "collector"
  | .model => "model"
  | .legacy => "legacy"

structure RelationProjection where
  (relationId version : Nat)
  (source target : ResourceRef)
  relationType : LegacyType
  provenance : String
  validFrom : Int
  validUntil : Option Int
  state : RelationState
  /-- `none` for a legacy row, which is unverified. -/
  verification : Option RelationState

/-- `projection`: `runs_on` seen from its target is `hosts`. -/
def projection (value : StoredRelation) (from_ : ResourceRef) : RelationProjection :=
  let turned := value.relationType = .runs_on ∧ value.target = from_
  { relationId := value.relationId
    version := value.version
    source := if turned then value.target else value.source
    target := if turned then value.source else value.target
    relationType := if turned then .hosts else .of value.relationType
    provenance := value.legacyProvenance.getD value.content.origin.text
    validFrom := value.content.validFrom
    validUntil := value.content.validUntil
    state := value.state
    verification := if value.version = 0 then none else some value.state }

def RelationProjection.touches (edge : RelationProjection) (ref : ResourceRef) : Bool :=
  edge.source = ref || edge.target = ref

def adjacent (legacy : Legacy) (revisions : List StoredRelation) (ref : ResourceRef) (limit : Nat) :
    List StoredRelation :=
  (adjacentIds legacy revisions ref limit).filterMap (head legacy revisions)

def expireHead (legacy : Legacy) (revisions : List StoredRelation) (value : StoredRelation)
    (expired : Bool) : List StoredRelation :=
  match head legacy revisions value.relationId with
  | none => revisions
  | some current =>
    if current.version = value.version ∧ current.state = .confirmed then
      revisions ++ [current.expireTo expired]
    else revisions

/-- What `legacyValidity` returns: the end of the source window, where it is open. -/
def legacyWindow (legacy : Legacy) (value : StoredRelation) (now : Int) : Option (Option Int) :=
  if value.legacyProvenance.isNone then some none
  else match legacy.rows.find? (·.id = value.relationId) with
    | none => none
    | some row =>
      if row.validFrom ≤ now && row.validUntil.all (now < ·) then some row.validUntil else none

/-! ## The walk -/

/-- A resource of the queue. -/
structure Stop where
  ref : ResourceRef
  depth : Nat
  /-- `''` for the root. -/
  parentEdge : Option Nat

structure Walk where
  revisions : List StoredRelation
  incomplete : Bool
  scanned : Nat
  seenNodes : List ResourceRef
  seenEdges : List Nat
  edges : List RelationProjection
  /-- The stops behind the cursor. -/
  queue : List Stop

/-- The other end. -/
def StoredRelation.other (value : StoredRelation) (ref : ResourceRef) : ResourceRef :=
  if value.source = ref then value.target else value.source

section Walking

variable (legacy : Legacy) (env : Environment) (options : GraphOptions)

/-- A candidate that is a fact joins the edges, and its other end the queue. -/
def Walk.follow (w : Walk) (stop : Stop) (value : StoredRelation) : Walk :=
  let other := value.other stop.ref
  let edges := w.edges ++ [projection value stop.ref]
  if other ∈ w.seenNodes then { w with edges, incomplete := true }
  else
    { w with
      edges
      seenNodes := w.seenNodes ++ [other]
      queue := w.queue ++ [⟨other, stop.depth + 1, some value.relationId⟩] }

/-- A candidate that is counted. -/
def examine (stop : Stop) (value : StoredRelation) (w : Walk) : Walk :=
  if ¬ (env.readable value.source ∧ env.readable value.target) then { w with incomplete := true }
  else if value.state = .confirmed ∧ value.lapsed env.now = true then
    { w with revisions := expireHead legacy w.revisions value true, incomplete := true }
  else if inWindow value env.now = false ∨ value.state ≠ .confirmed then
    { w with
      incomplete := true
      edges := if options.factsOnly = false ∧ inWindow value env.now = true ∧ value.state = .suggested then
        w.edges ++ [projection value stop.ref] else w.edges }
  else if legacyValidity legacy value env.now = false then
    { w with revisions := expireHead legacy w.revisions value false, incomplete := true }
  else
    match if value.content.evidence = [] then .unavailable else env.evidence value env.now with
    | .valid => w.follow stop value
    | .withdrawn =>
      { w with revisions := expireHead legacy w.revisions value false, incomplete := true }
    | .unavailable => { w with incomplete := true }

/-- A candidate is counted before it is examined. -/
def Walk.count (w : Walk) (value : StoredRelation) : Walk :=
  { w with seenEdges := w.seenEdges ++ [value.relationId], scanned := w.scanned + 1 }

/-- The loop over the candidates. -/
def scan (stop : Stop) : List StoredRelation → Walk → Walk
  | [], w => w
  | value :: rest, w =>
    if some value.relationId = stop.parentEdge then scan stop rest w
    else if value.relationId ∈ w.seenEdges then scan stop rest { w with incomplete := true }
    else if options.maxEdges ≤ w.scanned ∨ options.hops ≤ stop.depth then { w with incomplete := true }
    else scan stop rest (examine legacy env options stop value (w.count value))

/-- One turn of the loop over the queue. -/
def expand (stop : Stop) (w : Walk) : Walk :=
  scan legacy env options stop
    (adjacent legacy w.revisions stop.ref (options.maxEdges - w.scanned + 1)) w

/-- The loop over the queue. -/
def rounds : Nat → Walk → Walk
  | 0, w => w
  | n + 1, w =>
    match w.queue with
    | [] => w
    | stop :: queue => rounds n (expand legacy env options stop { w with queue })

end Walking

def Walk.start (revisions : List StoredRelation) (root : ResourceRef) : Walk :=
  ⟨revisions, false, 0, [root], [], [], [⟨root, 0, none⟩]⟩

/-! ## The second check -/

/-- An edge that has passed, with `proofExpiry`; `none` is `Infinity`. -/
structure VisibleEdge where
  edge : RelationProjection
  proofExpiry : Option Int

structure Recheck where
  revisions : List StoredRelation
  visible : List VisibleEdge
  incomplete : Bool

/-- The end of the proof of a confirmed head. -/
def proofExpiry (current : StoredRelation) (until_ : Option Int) : Option Int :=
  if current.state = .confirmed then (until_.toList ++ current.content.evidence.map (·.validUntil)).min?
  else none

/-- Whether the head that is read again is still the one of the edge, and holds. -/
def stillHolds (env : Environment) (edge : RelationProjection) (current : StoredRelation) (sendAt : Int) :
    Bool :=
  current.version = edge.version && inWindow current sendAt &&
    (current.state ≠ .confirmed || !current.content.evidence.any (·.validUntil ≤ sendAt) &&
      env.evidence current sendAt = .valid)

/-- The second check of the edge at a place. -/
def recheck (legacy : Legacy) (env : Environment) (c : Recheck) (entry : RelationProjection × Nat) :
    Except String Recheck :=
  let edge := entry.1
  if ¬ (env.readable edge.source ∧ env.readable edge.target) then .error notFound
  else match head legacy c.revisions edge.relationId with
    | none => .ok { c with incomplete := true }
    | some current =>
      if stillHolds env edge current (env.sendAt entry.2) = false then .ok { c with incomplete := true }
      else match legacyWindow legacy current (env.legacyAt entry.2) with
        | none =>
          .ok { c with
            revisions := if current.state = .confirmed then expireHead legacy c.revisions current false
              else c.revisions
            incomplete := true }
        | some until_ => .ok { c with visible := c.visible ++ [⟨edge, proofExpiry current until_⟩] }

/-- Whether the edge may still be sent. -/
def VisibleEdge.current (v : VisibleEdge) (responseAt : Int) : Bool :=
  v.edge.validFrom ≤ responseAt && v.edge.validUntil.all (responseAt < ·) &&
    v.proofExpiry.all (responseAt < ·)

/-! ## What hangs together with the root -/

structure Spread where
  reachable : List ResourceRef
  retained : List Nat
  next : List ResourceRef

/-- An edge tried at a resource of the frontier. -/
def Spread.try_ (ref : ResourceRef) (s : Spread) (edge : RelationProjection) : Spread :=
  if edge.touches ref = false then s
  else
    let other := if edge.source = ref then edge.target else edge.source
    let retained := s.retained.insert edge.relationId
    if other ∈ s.reachable then { s with retained }
    else ⟨s.reachable ++ [other], retained, s.next ++ [other]⟩

/-- One turn of the loop over the depths; an empty frontier changes nothing. -/
def Spread.level (edges : List RelationProjection) (s : Spread) : Spread :=
  s.next.foldl (fun s ref => edges.foldl (Spread.try_ ref) s) { s with next := [] }

def spread (edges : List RelationProjection) : Nat → Spread → Spread
  | 0, s => s
  | hops + 1, s => spread edges hops (s.level edges)

structure GraphResult where
  resource : ResourceRef
  edges : List RelationProjection
  incomplete : Bool

/-- The response. -/
def respond (env : Environment) (options : GraphOptions) (root : ResourceRef) (c : Recheck) :
    GraphResult :=
  let validVisible := (c.visible.filter (·.current env.responseAt)).map (·.edge)
  let retained := (spread validVisible options.hops ⟨[root], [], [root]⟩).retained
  { resource := root
    edges := validVisible.filter (·.relationId ∈ retained)
    incomplete := c.incomplete || retained.length < c.visible.length }

/-- `graph`.  Each turn of the loop over the queue takes a stop off it, and at most `maxEdges` stops join
the root in it, so that the turns given are enough (`rounds_finished`). -/
def graph (tables : Tables) (env : Environment) (root : ResourceRef) (options : GraphOptions) :
    Except String GraphResult := do
  if options.valid = false then throw inputInvalid
  if env.readable root = false then throw notFound
  let walk := rounds tables.legacy env options (options.maxEdges + 1) (.start tables.revisions root)
  let checked ← walk.edges.zipIdx.foldlM (recheck tables.legacy env) ⟨walk.revisions, [], walk.incomplete⟩
  pure (respond env options root checked)

end Slide.Relations
