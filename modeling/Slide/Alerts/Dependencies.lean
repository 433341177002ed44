import Mathlib.Algebra.Group.Nat.Defs
import Slide.Library.Dag
import Slide.Library.JsString
import Slide.Library.Table
import Slide.Resources.Access

/-!
# Alert dependencies

`AlertDependencies.change` and `assertDependencyAcyclic` of `alert-dependencies.ts`.  Every call runs
in a transaction that first takes the one row of `alert_dependency_lock`, so the calls that commit
follow one another.  What a call reads outside its own three tables is its `World`.
-/

namespace Slide.Alerts

open Slide.Resources

structure Endpoint where
  resource : ResourceRef
  ruleId : String
deriving DecidableEq

/-- `DependencyValue`. -/
structure Value where
  name : String
  (upstream downstream : Endpoint)
deriving DecidableEq

structure DependencyChange where
  operationKey : String
  expectedRevision : Nat
  value : Option Value
  disabled : Bool

structure Dependency extends Value where
  id : String
  revision : Nat
  disabled : Bool
  actorId : Nat
  changedAt : String

/-- What a call throws: a `PolicyError`, a `ZodError`, or what the session or the database throws. -/
inductive Failure
  | policy (code : String) (status : Nat)
  | input
  | typeError
  | session (error : String)
  | database (error : String)

def rule (value : Bool) (code : String) (status : Nat) : Except Failure PUnit :=
  if value then .ok () else .error (.policy code status)

@[simp] theorem rule_eq_ok {value : Bool} {code : String} {status : Nat} :
    rule value code status = .ok () ↔ value = true := by
  cases value <;> simp [rule]

/-! ## The graph of resources -/

/-- `graph`: each resource with the ones downstream of it, over the enabled rows. -/
def resourceGraph (rows : List Dependency) : Dag.Graph String String where
  name := id
  deps v := (rows.filter fun r => !r.disabled && r.upstream.resource.key == v).map
    (·.downstream.resource.key)

/-- `graph.keys()`. -/
def graphKeys (rows : List Dependency) : List String :=
  ((rows.filter fun r => !r.disabled).map (·.upstream.resource.key)).eraseDups

/-- `assertDependencyAcyclic`; `path` and `done` are those of the walk, whose depth the number of
resources bounds. -/
def assertDependencyAcyclic (rows : List Dependency) : Except (Halt Failure) PUnit := do
  let _ ← Dag.walk (resourceGraph rows) (Dag.refusing (.policy "DEPENDENCY_CYCLE" 409))
    (2 * rows.length + 1) (graphKeys rows) ()

/-! ## The input -/

def trim (text : String) : String :=
  String.ofList (((text.toList.dropWhile JsString.isSpace).reverse.dropWhile JsString.isSpace).reverse)

/-- `^[A-Za-z0-9][A-Za-z0-9._:-]{0,127}$`. -/
def isOperationKey (text : String) : Bool :=
  match text.toList with
  | [] => false
  | first :: rest =>
    first.isAlphanum && decide (rest.length ≤ 127) &&
      rest.all fun c => c.isAlphanum || ['.', '_', ':', '-'].contains c

def maxSafeInteger : Nat := 2 ^ 53 - 1

def Endpoint.wellFormed (e : Endpoint) : Bool :=
  0 < e.resource.id && e.resource.id ≤ maxSafeInteger && 1 ≤ JsString.length e.ruleId &&
    JsString.length e.ruleId ≤ 128

/-- `DependencyValue.parse`; the name of the result is trimmed. -/
def Value.parse (value : Value) : Except Failure Value :=
  let parsed := { value with name := trim value.name }
  if 1 ≤ JsString.length parsed.name && JsString.length parsed.name ≤ 128 &&
      parsed.upstream.wellFormed && parsed.downstream.wellFormed then .ok parsed
  else .error .input

def DependencyChange.parse (raw : DependencyChange) : Except Failure DependencyChange := do
  if isOperationKey raw.operationKey && raw.expectedRevision ≤ maxSafeInteger then
    let value ← raw.value.mapM Value.parse
    pure { raw with value }
  else .error .input

/-- `id`, taken as a condition. -/
def given (id : Option String) : Bool := id.any (· ≠ "")

/-- What the call uses of its runtime. -/
structure Host where
  /-- `z.string().uuid()` accepts the text. -/
  isUuid : String → Bool
  /-- SHA-256 of `stable` of the id and the fields of the input. -/
  digest : Option String → DependencyChange → String
  /-- The collation of `operation_key`: texts that it takes for equal have one image. -/
  collate : String → String

/-- What a call checks before its transaction. -/
def checkInput (host : Host) (id : Option String) (raw : DependencyChange) :
    Except Failure DependencyChange := do
  if given id && !id.any host.isUuid then throw .input
  let input ← raw.parse
  rule (if input.disabled then input.value.isNone && given id else input.value.isSome)
    "DEPENDENCY_INPUT" 400
  pure input

/-! ## The tables -/

structure Result where
  dependency : Dependency
  noop : Bool

/-- A row of `alert_dependency_operations`. -/
structure Operation where
  fingerprint : String
  result : Result
  required : List Dependency

structure Store where
  dependencies : Table String Dependency
  operations : Table (Nat × String) Operation
  /-- `alert_dependency_audit`; a payload holds the id and the revision of its row. -/
  audit : List Dependency

def Store.empty : Store := ⟨Table.empty, Table.empty, []⟩

/-- The two writes of a change; the audit is unique by dependency and revision. -/
def Store.save (store : Store) (next : Dependency) : Except Failure Store :=
  if store.audit.any fun row => row.id == next.id && row.revision == next.revision then
    .error (.database "ER_DUP_ENTRY")
  else .ok { store with
    dependencies := store.dependencies.put next.id next
    audit := store.audit ++ [next] }

/-! ## A call -/

/-- The rows that a call reads about one endpoint. -/
structure EndpointReads where
  present : ResourceRef → Bool
  /-- `instance_ids` of the enabled rows of `alert_rules` whose id is the number in the text. -/
  legacyRules : String → List (Option (List Nat))
  /-- The rule ids of the newest row of `metric_trigger_snapshots`. -/
  snapshotRules : ResourceRef → Option (List String)

structure World where
  /-- The revalidations of the actor, told apart by where they stand in the call. -/
  live : Nat → Except Failure ActorContext
  (upstream downstream : EndpointReads)
  (randomUUID now : String)

def access (a : ActorContext) (v : Value) (write : Bool) : Except Failure PUnit := do
  rule (!write || a.permissions.contains "*" || a.permissions.contains "alert:manage")
    "DEPENDENCY_FORBIDDEN" 403
  [v.upstream, v.downstream].forM fun e =>
    rule (if write then canManageResource a e.resource else canReadResource a e.resource)
      "DEPENDENCY_FORBIDDEN" 403

/-- The rules `e` names are there. -/
def EndpointReads.hasRule (reads : EndpointReads) (e : Endpoint) : Bool :=
  if e.ruleId = "*" then true
  else if e.ruleId.startsWith "legacy:" then
    e.resource.type = .databaseInstance &&
      match reads.legacyRules (String.ofList (e.ruleId.toList.drop 7)) with
      | [instanceIds] => instanceIds.all (·.contains e.resource.id)
      | _ => false
  else (reads.snapshotRules e.resource).any (·.contains e.ruleId)

/-- The access a stored operation requires, with a revalidation for each dependency. -/
def accessAll (world : World) : (position : Nat) → List Dependency → Except Failure PUnit
  | _, [] => .ok ()
  | position, v :: rest => do
    access (← world.live position) v.toValue true
    accessAll world (position + 1) rest

/-- The answer to a key that has been used. -/
def replay (world : World) (digest : String) (saved : Operation) : Except Failure Result := do
  rule (saved.fingerprint == digest) "DEPENDENCY_KEY_REUSED" 409
  accessAll world 1 saved.required
  pure saved.result

/-- What of a dependency decides whether a change has an effect. -/
def Dependency.content (d : Dependency) : Value × Bool := (d.toValue, d.disabled)

/-- `input.value ?? previous`, whose spread is read at once. -/
def valueOf (input : DependencyChange) (previous : Option Dependency) : Except Failure Value :=
  match input.value.or (previous.map Dependency.toValue) with
  | some value => .ok value
  | none => .error .typeError

/-- The dependency as the call wants it, once the actor, the resources and the rules allow it. -/
def candidate (world : World) (actor : ActorContext) (id : Option String) (input : DependencyChange)
    (previous : Option Dependency) : Except Failure Dependency := do
  rule (!given id || previous.isSome) "DEPENDENCY_NOT_FOUND" 404
  previous.forM fun previous => do access (← world.live 1) previous.toValue true
  rule ((previous.map Dependency.revision).getD 0 == input.expectedRevision)
    "DEPENDENCY_REVISION" 409
  let value ← valueOf input previous
  let next : Dependency := { value with
    id := id.getD world.randomUUID
    revision := (previous.map Dependency.revision).getD 0 + 1
    disabled := input.disabled
    actorId := actor.userId
    changedAt := world.now }
  access (← world.live 2) next.toValue true
  rule (world.upstream.present next.upstream.resource) "DEPENDENCY_RESOURCE_MISSING" 404
  rule (world.downstream.present next.downstream.resource) "DEPENDENCY_RESOURCE_MISSING" 404
  rule (next.disabled || world.upstream.hasRule next.upstream) "DEPENDENCY_RULE_MISSING" 409
  rule (next.disabled || world.downstream.hasRule next.downstream) "DEPENDENCY_RULE_MISSING" 409
  pure next

/-- The writes of `next`, left out when it is a `noop`; `stable` gives equal texts to equal contents
only. -/
def Store.write (store : Store) (previous : Option Dependency) (next : Dependency) :
    Except Failure (Store × Result) :=
  match previous.filter (·.content = next.content) with
  | some previous => .ok (store, ⟨previous, true⟩)
  | none => do
    let store ← store.save next
    pure (store, ⟨next, false⟩)

/-- A call whose key is new. -/
def perform (world : World) (actor : ActorContext) (id : Option String) (input : DependencyChange)
    (operation : Nat × String) (digest : String) (store : Store) :
    Except (Halt Failure) (Store × Result) := do
  let previous := id.bind store.dependencies.get
  let wanted ← candidate world actor id input previous
  assertDependencyAcyclic (store.dependencies.toList.filter (fun r => id ≠ some r.id) ++ [wanted])
  let written ← store.write previous wanted
  let saved := written.1
  let result := written.2
  let required := previous.toList ++ [result.dependency]
  let final ← world.live 3
  liftM (required.forM fun v => access final v.toValue true)
  pure ({ saved with operations := saved.operations.put operation ⟨digest, result, required⟩ }, result)

/-- `AlertDependencies.change`, up to the commit. -/
def change (host : Host) (world : World) (actor : ActorContext) (id : Option String)
    (raw : DependencyChange) (store : Store) : Except (Halt Failure) (Store × Result) := do
  let input ← checkInput host id raw
  let digest := host.digest id input
  let _ ← world.live 0
  let operation := (actor.userId, host.collate input.operationKey)
  match store.operations.get operation with
  | some saved => do
    let result ← replay world digest saved
    pure (store, result)
  | none => perform world actor id input operation digest store

/-! ## Calls and their transactions -/

/-- How the transaction of a call that throws nothing itself comes out. -/
inductive Fate
  /-- The commit is acknowledged. -/
  | commits
  /-- The commit takes effect and its acknowledgement is lost. -/
  | unacknowledged
  /-- A statement or the commit fails. -/
  | fails

structure Call where
  world : World
  actor : ActorContext
  id : Option String
  raw : DependencyChange
  fate : Fate

/-- `change` of the call on a store. -/
def Call.change (call : Call) (host : Host) (store : Store) :
    Except (Halt Failure) (Store × Result) :=
  Alerts.change host call.world call.actor call.id call.raw store

/-- `tx`: what a call leaves behind, and what its caller sees. -/
def attempt (host : Host) (store : Store) (call : Call) :
    Store × Except (Halt Failure) Result :=
  match call.change host store with
  | .error e => (store, .error e)
  | .ok (next, result) =>
    match call.fate with
    | .commits => (next, .ok result)
    | .unacknowledged => (next, .error (.thrown (.database "COMMIT")))
    | .fails => (store, .error (.thrown (.database "ROLLED_BACK")))

/-- The store after the calls. -/
def reached (host : Host) (calls : List Call) : Store :=
  calls.foldl (fun store call => (attempt host store call).1) .empty

end Slide.Alerts
