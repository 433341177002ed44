import Slide.Investigations.JsonColumn
import Slide.Library.Table

/-!
# Idempotency keys of the tools

`AgentToolIdempotencyService` keeps one row for each key.  `claim` inserts it and reads it back, in two
statements; what it answers depends on the count of the first and on the row that the second finds.
-/

namespace Slide.Security

open Slide.Display

/-- What the service takes from its surroundings. -/
structure IdempotencyHost where
  sha256 : String → String
  /-- `a.localeCompare(b) <= 0`. -/
  localeLe : String → String → Bool
  numberText : Rat → String
  /-- `JSON.parse`. -/
  parse : String → Option Json
  /-- What the driver returns of a value in a JSON column. -/
  column : Json → Json

/-! ## The hash of the arguments -/

/-- The number that a key stands for in the order of the keys of an object. -/
def arrayIndex (key : String) : Option Nat :=
  if key.toList.all Char.isDigit then
    (some (key.toList.foldl (fun n c => 10 * n + (c.toNat - 48)) 0)).filter fun n =>
      toString n = key ∧ n < 4294967295
  else none

/-- `Object.fromEntries`: array indices come first, by their numbers. -/
def fromEntries (entries : List (String × Json)) : Json :=
  .object ((entries.filter fun entry => (arrayIndex entry.1).isSome).insertionSort
      (fun a b => (arrayIndex a.1).getD 0 ≤ (arrayIndex b.1).getD 0) ++
    entries.filter fun entry => (arrayIndex entry.1).isNone)

mutual

def normalize (localeLe : String → String → Bool) : Json → Json
  | .array items => .array (normalizeItems localeLe items)
  | .object fields =>
    fromEntries ((normalizeFields localeLe fields).insertionSort fun a b => localeLe a.1 b.1)
  | input => input

def normalizeItems (localeLe : String → String → Bool) : List Json → List Json
  | [] => []
  | item :: rest => normalize localeLe item :: normalizeItems localeLe rest

def normalizeFields (localeLe : String → String → Bool) :
    List (String × Json) → List (String × Json)
  | [] => []
  | (key, item) :: rest => (key, normalize localeLe item) :: normalizeFields localeLe rest

end

variable (host : IdempotencyHost)

def stableArgumentsHash (value : Json) : String :=
  host.sha256 ((normalize host.localeLe value).stringify host.numberText)

/-! ## The rows -/

/-- `uq_agent_tool_idempotency`. -/
structure ToolKey where
  actorId : Nat
  (sessionHash toolName idempotencyKey : String)
deriving DecidableEq

inductive ToolState
  | running
  | completed
  | failed
deriving DecidableEq

/-- A row of `agent_tool_idempotency`. -/
structure ToolRow where
  argumentsHash : String
  state : ToolState
  resultJson : Option Json
deriving DecidableEq

inductive ToolIdempotencyClaim
  | claimed (argumentsHash : String)
  | completed (argumentsHash : String) (result : Json)
  | inProgress (argumentsHash : String)
  | conflict (argumentsHash : String)
deriving DecidableEq

def toolKey (actorId : Nat) (sessionId toolName key : String) : ToolKey :=
  ⟨actorId, stableArgumentsHash host (.string sessionId), toolName, key⟩

/-- The first statement of `claim`: `ON DUPLICATE KEY UPDATE idempotency_key = idempotency_key`. -/
def insertClaim (table : Table ToolKey ToolRow) (key : ToolKey) (argumentsHash : String) :
    Table ToolKey ToolRow × Nat :=
  table.insertOrUpdate key ⟨argumentsHash, .running, none⟩ id

/-- `typeof row.result_json === 'string' ? JSON.parse(row.result_json) : row.result_json`. -/
def resultOf (row : ToolRow) : Except String Json :=
  match row.resultJson.map host.column with
  | some (.string text) =>
    match host.parse text with
    | some value => .ok value
    | none => .error "SyntaxError"
  | some value => .ok value
  | none => .ok .null

/-- The answer of `claim` for the row that its second statement finds. -/
def claimAnswer (argumentsHash : String) (affectedRows : Nat) :
    Option ToolRow → Except String ToolIdempotencyClaim
  | none => .error "IDEMPOTENCY_CLAIM_FAILED"
  | some row =>
    if row.argumentsHash ≠ argumentsHash then .ok (.conflict argumentsHash)
    else match row.state with
      | .completed => (resultOf host row).map (.completed argumentsHash)
      | .running =>
        if affectedRows = 1 then .ok (.claimed argumentsHash) else .ok (.inProgress argumentsHash)
      | .failed => .ok (.inProgress argumentsHash)

/-- The statement of `finish`. -/
def finishStatement (table : Table ToolKey ToolRow) (key : ToolKey) (argumentsHash : String)
    (state : ToolState) (result : Json) : Table ToolKey ToolRow × Nat :=
  table.updateWhere key (fun row => row.argumentsHash = argumentsHash ∧ row.state = .running)
    fun row => { row with state := state, resultJson := some result }

/-! ## Calls side by side -/

/-- A call of `claim` after its first statement; `existing` remembers whether there was a row. -/
structure ClaimCall where
  key : ToolKey
  argumentsHash : String
  affectedRows : Nat
  existing : Bool
  answer : Option (Except String ToolIdempotencyClaim)

/-- The row that a call of `finish` has written. -/
structure Applied where
  key : ToolKey
  argumentsHash : String
  state : ToolState
  result : Json

/-- The table, the calls of `claim`, and what calls of `finish` have written. -/
structure ToolWorld where
  table : Table ToolKey ToolRow
  calls : List ClaimCall
  applied : List Applied

def ToolWorld.start : ToolWorld := ⟨.empty, [], []⟩

/-- One statement of one call; `finish` is called with `completed` or with `failed`. -/
inductive ToolEvent
  | insert (actorId : Nat) (sessionId toolName key : String) (args : Json)
  | select (call : Nat)
  | finish (actorId : Nat) (sessionId toolName key argumentsHash : String) (success : Bool)
      (result : Json)

/-- The state that `finish` is called with. -/
def finishState (success : Bool) : ToolState := if success then .completed else .failed

def ToolWorld.step (w : ToolWorld) : ToolEvent → ToolWorld
  | .insert actorId sessionId toolName key args =>
    let key := toolKey host actorId sessionId toolName key
    let argumentsHash := stableArgumentsHash host args
    let (table, affectedRows) := insertClaim w.table key argumentsHash
    { w with
      table
      calls := w.calls ++ [⟨key, argumentsHash, affectedRows, (w.table.get key).isSome, none⟩] }
  | .select i =>
    match w.calls[i]? with
    | some call =>
      let answer := claimAnswer host call.argumentsHash call.affectedRows (w.table.get call.key)
      { w with calls := w.calls.set i { call with answer := some (call.answer.getD answer) } }
    | none => w
  | .finish actorId sessionId toolName key argumentsHash success result =>
    let key := toolKey host actorId sessionId toolName key
    let (table, affectedRows) :=
      finishStatement w.table key argumentsHash (finishState success) result
    { w with
      table
      applied := if affectedRows = 1 then
        w.applied ++ [⟨key, argumentsHash, finishState success, result⟩] else w.applied }

def runTools (w : ToolWorld) (events : List ToolEvent) : ToolWorld :=
  events.foldl (ToolWorld.step host) w

end Slide.Security
