import Slide.Library.Run
import Slide.Relations.Revisions

/-!
# Transactions on relations

Any number of transactions of `RelationService`, statement by statement.  A read sees the committed rows
and the transaction's own; an insert of a key that another transaction has inserted waits for its end, and
of one that is committed aborts.  A resource row is held by one transaction at a time, to its end.  The
locks on a head and on a legacy row only delay a transaction, so leaving them out allows more orders.
-/

namespace Slide.Relations

open Slide.Resources

abbrev TxId := Nat

/-- The rows that a transaction inserts under its locks. -/
inductive Plan
  | suggest (value : StoredRelation)
  | append (base next : StoredRelation)
  | confirm (current : StoredRelation) (conflicts : List StoredRelation) (actorId : Nat) (now : Int)

def Plan.rows : Plan → List StoredRelation
  | .suggest value => [value]
  | .append _ next => [next]
  | .confirm current conflicts actorId now =>
    conflicts.map (·.conflict) ++ [current.confirm conflicts actorId now]

/-- Where a transaction is.  A traversal (`graph`) is in `reading` with the heads it has read. -/
inductive Phase
  | idle
  | suggesting (suggestion : Suggestion) (id : Nat)
  | opened (request : Request) (initial : StoredRelation)
  | locked (request : Request)
  | confirming (request : Request) (current : StoredRelation)
  | scanning (request : Request) (current : StoredRelation) (left : List Nat) (found : List StoredRelation)
  | writing (plan : Plan) (rest : List StoredRelation)
  | reading (seen : List StoredRelation)
  | expiring (seen : List StoredRelation) (value : StoredRelation) (expired : Bool)
  | expelling (seen : List StoredRelation) (base next : StoredRelation)

structure State where
  revisions : List StoredRelation
  /-- The inserted rows that are not committed. -/
  pending : List (TxId × StoredRelation)
  /-- The resource rows that are locked. -/
  locks : List (TxId × ResourceRef)
  phase : TxId → Phase
  /-- The suggestions that `RelationEvidence.check` has found valid, with the time it was asked for. -/
  validated : List (StoredRelation × Int)

inductive Event
  | suggest (t : TxId) (suggestion : Suggestion) (random : Nat) (now : Int)
  | open_ (t : TxId) (request : Request)
  | lock (t : TxId)
  | read (t : TxId) (evidence : EvidenceCheck)
  | list (t : TxId)
  | scan (t : TxId)
  | decide (t : TxId)
  | insert (t : TxId)
  | commit (t : TxId)
  /-- Any statement of the transaction fails, or its caller is refused. -/
  | abort (t : TxId)
  | graph (t : TxId)
  | look (t : TxId) (id : Nat)
  | expire (t : TxId) (value : StoredRelation) (expired : Bool)
  | reread (t : TxId)

variable (s : State) (t : TxId)

namespace State

/-- The rows that a transaction has inserted. -/
def own : List StoredRelation := (s.pending.filter (·.1 = t)).map (·.2)

/-- The rows that a transaction sees. -/
def visible : List StoredRelation := s.revisions ++ s.own t

def goto (phase : Phase) : State :=
  { s with phase := Function.update s.phase t phase }

/-- The end of a transaction that frees its locks and takes its rows out of `pending`. -/
def finish (revisions : List StoredRelation) : State :=
  { s.goto t .idle with
    revisions
    pending := s.pending.filter (·.1 ≠ t)
    locks := s.locks.filter (·.1 ≠ t) }

def abort : State := s.finish t s.revisions

def commit : State := s.finish t (s.revisions ++ s.own t)

/-- `lockResources`, when no other transaction holds one of the rows. -/
def lock (refs : List ResourceRef) (phase : Phase) : Option State :=
  if s.locks.any fun held => held.1 ≠ t && held.2 ∈ refs then none
  else some { s.goto t phase with locks := s.locks ++ refs.map (t, ·) }

def sameKey (a b : StoredRelation) : Bool := a.relationId = b.relationId && a.version = b.version

/-- `append`: the insert of one row. -/
def insert (row : StoredRelation) (phase : Phase) : Option State :=
  if s.pending.any fun p => p.1 ≠ t && sameKey p.2 row then none
  else if (s.visible t).any (sameKey · row) then some (s.abort t)
  else some { s.goto t phase with pending := s.pending ++ [(t, row)] }

end State

variable (legacy : Legacy)

/-- One step, when the transaction is where the statement takes place. -/
def after (s : State) : Event → Option State
  | .suggest t suggestion random now =>
    match s.phase t with
    | .idle =>
      if suggestion.valid now then some (s.goto t (.suggesting suggestion (newRelationId random)))
      else none
    | _ => none
  | .open_ t request =>
    match s.phase t with
    | .idle =>
      match head legacy s.revisions request.id with
      | none => none
      | some initial => some (s.goto t (.opened request initial))
    | _ => none
  | .lock t =>
    match s.phase t with
    | .suggesting suggestion id =>
      s.lock t [suggestion.source, suggestion.target]
        (.writing (.suggest (suggestion.relation id)) [suggestion.relation id])
    | .opened request initial => s.lock t [initial.source, initial.target] (.locked request)
    | _ => none
  | .read t evidence =>
    match s.phase t with
    | .locked request =>
      match head legacy s.revisions request.id with
      | none => none
      | some current =>
        match request.decide legacy current evidence with
        | .error _ => some (s.abort t)
        | .ok (some next) => some (s.goto t (.writing (.append current next) [next]))
        | .ok none =>
          some { s.goto t (.confirming request current) with
            validated := (current, request.now) :: s.validated }
    | _ => none
  | .list t =>
    match s.phase t with
    | .confirming request current =>
      some (s.goto t (.scanning request current (adjacentIds legacy s.revisions current.source 101) []))
    | _ => none
  | .scan t =>
    match s.phase t with
    | .scanning request current (id :: left) found =>
      some (s.goto t (.scanning request current left (found ++ (head legacy s.revisions id).toList)))
    | _ => none
  | .decide t =>
    match s.phase t with
    | .scanning request current [] found =>
      match request.action with
      | .confirm actor =>
        if 100 < found.length then some (s.abort t)
        else
          let conflicts := found.filter fun value =>
            value.relationId ≠ request.id && value.state = .confirmed && overlaps current value
          let plan := Plan.confirm current conflicts actor.id request.now
          some (s.goto t (.writing plan plan.rows))
      | _ => none
    | _ => none
  | .insert t =>
    match s.phase t with
    | .writing plan (row :: rest) => s.insert t row (.writing plan rest)
    | .expelling seen _ next => s.insert t next (.reading seen)
    | _ => none
  | .commit t =>
    match s.phase t with
    | .writing _ [] | .reading _ => some (s.commit t)
    | _ => none
  | .abort t => some (s.abort t)
  | .graph t =>
    match s.phase t with
    | .idle => some (s.goto t (.reading []))
    | _ => none
  | .look t id =>
    match s.phase t with
    | .reading seen => some (s.goto t (.reading (seen ++ (head legacy (s.visible t) id).toList)))
    | _ => none
  | .expire t value expired =>
    match s.phase t with
    | .reading seen =>
      if value ∈ seen ∧ value.state = .confirmed then some (s.goto t (.expiring seen value expired))
      else none
    | _ => none
  | .reread t =>
    match s.phase t with
    | .expiring seen value expired =>
      match head legacy (s.visible t) value.relationId with
      | none => some (s.goto t (.reading seen))
      | some current =>
        if current.version ≠ value.version ∨ current.state ≠ .confirmed then
          some (s.goto t (.reading seen))
        else some (s.goto t (.expelling seen current (current.expireTo expired)))
    | _ => none

/-- No revision and no transaction. -/
def State.initial : State := ⟨[], [], [], fun _ => .idle, []⟩

end Slide.Relations
