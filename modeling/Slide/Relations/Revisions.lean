import Mathlib.Algebra.Group.Nat.Defs
import Mathlib.Data.List.Sort
import Slide.Library.Versioned
import Slide.Resources.Access

/-!
# Revisions of relations

`operations/relations/service.ts` and `store.ts`: the revisions of a relation, what a session reads, and
the next revision that each operation makes.  The content hash is left out: it is computed anew at every
append.  Times are in milliseconds.
-/

namespace Slide.Relations

open Slide.Resources

inductive RelationType
  | runs_on | replicates_to | depends_on | connected_to | serves
deriving DecidableEq

inductive RelationState
  | suggested | confirmed | expired | withdrawn | conflicted
deriving DecidableEq

inductive Origin
  | manual | collector | model | legacy
deriving DecidableEq

structure VersionReference where
  id : String
  version : Nat
  hash : String
  validUntil : Int
deriving DecidableEq

/-- The fields that `revise` replaces. -/
structure Content where
  evidence : List VersionReference
  (observedAt validFrom : Int)
  validUntil : Option Int
  origin : Origin
deriving DecidableEq

structure Principal where
  service : Bool
  id : Nat
deriving DecidableEq

structure StoredRelation where
  (relationId version : Nat)
  (source target : ResourceRef)
  relationType : RelationType
  state : RelationState
  content : Content
  author : Option Principal
  legacyProvenance : Option String
  confirmedBy : Option Nat
  confirmedAt : Option Int
  withdrawalReason : Option String
deriving DecidableEq

variable (r : StoredRelation)

/-- What no revision changes. -/
def StoredRelation.ends : ResourceRef × ResourceRef × RelationType :=
  (r.source, r.target, r.relationType)

def inWindow (value : StoredRelation) (now : Int) : Bool :=
  value.content.validFrom ≤ now && value.content.validUntil.all (now < ·)

def overlaps (a b : StoredRelation) : Bool :=
  a.source.key = b.source.key && a.target.key = b.target.key && a.relationType = b.relationType &&
    b.content.validUntil.all (a.content.validFrom < ·) && a.content.validUntil.all (b.content.validFrom < ·)

/-- Whether the window or some evidence has ended. -/
def StoredRelation.lapsed (now : Int) : Bool :=
  r.content.validUntil.any (· ≤ now) || r.content.evidence.any (·.validUntil ≤ now)

/-! ## Legacy rows -/

/-- The type of a row of `resource_relations`, where `hosts` is `runs_on` the other way. -/
inductive LegacyType
  | hosts
  | of (type : RelationType)
deriving DecidableEq

structure LegacyRow where
  id : Nat
  (source target : ResourceRef)
  relationType : LegacyType
  provenance : String
  validFrom : Int
  validUntil : Option Int

/-- `legacy`: a row is a suggestion without evidence. -/
def LegacyRow.relation (row : LegacyRow) : StoredRelation where
  relationId := row.id
  version := 0
  source := if row.relationType = .hosts then row.target else row.source
  target := if row.relationType = .hosts then row.source else row.target
  relationType :=
    match row.relationType with
    | .hosts => .runs_on
    | .of type => type
  state := .suggested
  content := ⟨[], row.validFrom, row.validFrom, row.validUntil, .legacy⟩
  author := none
  legacyProvenance := some row.provenance
  confirmedBy := none
  confirmedAt := none
  withdrawalReason := none

/-- `resource_relations`; its ids count up from one, and new identities start above them. -/
structure Legacy where
  rows : List LegacyRow
  distinct : (rows.map (·.id)).Nodup
  below : ∀ row ∈ rows, row.id < 2 ^ 50

theorem no_rows_below : ∀ row ∈ ([] : List LegacyRow), row.id < 2 ^ 50 := by simp

def newRelationId (random : Nat) : Nat := 2 ^ 50 + random

/-! ## What a session reads -/

variable (legacy : Legacy)

/-- `head`: the latest revision of an id, else its legacy row. -/
def head (revisions : List StoredRelation) (id : Nat) : Option StoredRelation :=
  match Versioned.head (·.relationId) (·.version) revisions id with
  | some value => some value
  | none => (legacy.rows.find? (·.id = id)).map (·.relation)

def legacyValidity (value : StoredRelation) (now : Int) : Bool :=
  value.legacyProvenance.isNone ||
    (legacy.rows.find? (·.id = value.relationId)).any fun row =>
      row.validFrom ≤ now && row.validUntil.all (now < ·)

def StoredRelation.touches (ref : ResourceRef) : Bool :=
  r.source = ref || r.target = ref

/-- The ids that `adjacent` lists, up to a limit. -/
def adjacentIds (revisions : List StoredRelation) (ref : ResourceRef) (limit : Nat) : List Nat :=
  let heads := revisions.filter fun r =>
    r.touches ref && !revisions.any fun n => n.relationId = r.relationId && r.version < n.version
  let old := legacy.rows.filter fun row =>
    row.relation.touches ref && !revisions.any (·.relationId = row.id)
  ((heads.map (·.relationId) ++ old.map (·.id)).insertionSort (· ≤ ·)).take limit

/-! ## Next revisions -/

/-- `revise`: new content is a suggestion again. -/
def StoredRelation.revise (content : Content) (author : Principal) : StoredRelation :=
  { r with
    content
    version := r.version + 1
    state := .suggested
    author := some author
    confirmedBy := none
    confirmedAt := none
    withdrawalReason := none }

def StoredRelation.withdraw (reason : String) : StoredRelation :=
  { r with version := r.version + 1, state := .withdrawn, withdrawalReason := some reason }

/-- The reasons of `invalidate`. -/
inductive Invalidity
  | expired | source_withdrawn | resource_deleted
deriving DecidableEq

def Invalidity.text : Invalidity → String
  | .expired => "expired"
  | .source_withdrawn => "source_withdrawn"
  | .resource_deleted => "resource_deleted"

def StoredRelation.invalidate (reason : Invalidity) : StoredRelation :=
  { r with
    version := r.version + 1
    state := if reason = .expired then .expired else .withdrawn
    withdrawalReason := some reason.text }

/-- The revision of a confirmation, with the heads it conflicts with. -/
def StoredRelation.confirm (conflicts : List StoredRelation) (actorId : Nat)
    (now : Int) : StoredRelation :=
  { r with
    version := r.version + 1
    state := if conflicts = [] then .confirmed else .conflicted
    confirmedBy := some actorId
    confirmedAt := some now }

/-- The revision of a head that a confirmation conflicts with. -/
def StoredRelation.conflict : StoredRelation :=
  { r with
    version := r.version + 1
    state := .conflicted
    withdrawalReason := some "overlapping_confirmation" }

/-- What a traversal does with a confirmed head that is no longer valid: `expireHead`. -/
def StoredRelation.expireTo (expired : Bool) : StoredRelation :=
  { r with
    version := r.version + 1
    state := if expired then .expired else .withdrawn
    withdrawalReason := some (if expired then "validity_expired" else "source_withdrawn") }

/-! ## Requests -/

inductive EvidenceCheck
  | valid | withdrawn | unavailable
deriving DecidableEq

inductive Action
  | revise (content : Content) (author : Principal)
  | withdraw (reason : Option String)
  | confirm (actor : Principal)
  | invalidate (reason : Invalidity)

/-- A call of `revise`, `transition` or `invalidate`; `now` is the clock before its transaction. -/
structure Request where
  (id expectedVersion : Nat)
  now : Int
  action : Action

def inputInvalid : String := "OPERATIONS_INPUT_INVALID"
def preconditionFailed : String := "OPERATIONS_PRECONDITION_FAILED"

/-- `validateContent`. -/
def Content.valid (content : Content) (now : Int) : Bool :=
  !(now < content.observedAt || content.validUntil.any (· ≤ content.validFrom))

/-- What a confirmation checks of the suggestion before it looks for conflicts. -/
def confirmable (current : StoredRelation) (now : Int) (evidence : EvidenceCheck) : Except String Unit :=
  if current.state ≠ .suggested ∨ current.content.evidence = [] ∨ inWindow current now = false ∨
      current.content.evidence.any (·.validUntil ≤ now) = true then .error preconditionFailed
  else
    match evidence with
    | .unavailable => .error "OPERATIONS_DEPENDENCY_UNAVAILABLE"
    | .withdrawn => .error preconditionFailed
    | .valid => if legacyValidity legacy current now then .ok () else .error preconditionFailed

/-- What a request does with the head it has read under its locks: the next revision, or none for a
confirmation, which first reads the heads around it. -/
def Request.decide (request : Request) (current : StoredRelation) (evidence : EvidenceCheck) :
    Except String (Option StoredRelation) :=
  if current.version ≠ request.expectedVersion then .error "OPERATIONS_VERSION_CONFLICT"
  else
    match request.action with
    | .revise content author =>
      if content.valid request.now then .ok (some (current.revise content author))
      else .error inputInvalid
    | .withdraw none => .error inputInvalid
    | .withdraw (some reason) => .ok (some (current.withdraw reason))
    | .confirm actor =>
      if actor.service then .error "OPERATIONS_FORBIDDEN"
      else (confirmable legacy current request.now evidence).map fun _ => none
    | .invalidate reason =>
      if reason = .expired ∧ current.lapsed request.now = false ∨
          reason = .source_withdrawn ∧ evidence ≠ .withdrawn then .error preconditionFailed
      else .ok (some (current.invalidate reason))

/-- The input of `suggest`. -/
structure Suggestion where
  (source target : ResourceRef)
  relationType : RelationType
  content : Content
  author : Principal

def hasValidTopology (s : Suggestion) : Bool :=
  match s.relationType with
  | .runs_on => s.source.type = .databaseInstance && s.target.type = .server
  | .connected_to => (s.source.type = .server && s.target.type = .networkDevice) ||
    (s.source.type = .networkDevice && s.target.type = .server)
  | .serves => s.source.type = .networkDevice && s.target.type = .server
  | .replicates_to => s.source.type = .databaseInstance && s.target.type = .databaseInstance
  | .depends_on => true

/-- The first revision of a suggestion. -/
def Suggestion.relation (s : Suggestion) (id : Nat) : StoredRelation where
  relationId := id
  version := 1
  source := s.source
  target := s.target
  relationType := s.relationType
  state := .suggested
  content := s.content
  author := some s.author
  legacyProvenance := none
  confirmedBy := none
  confirmedAt := none
  withdrawalReason := none

def Suggestion.valid (s : Suggestion) (now : Int) : Bool :=
  s.content.valid now && hasValidTopology s && s.source.key ≠ s.target.key

end Slide.Relations
