import Slide.Investigations.JsonColumn
import Slide.Library.Paging
import Slide.Library.Record

/-!
# The facts of a session

`session.ts`: a session keeps its messages in a list that `appendFacts` extends and `ensureFactIds`
migrates.  An entry is a JSON object with its keys in the order of `JSON.stringify`; a key whose value
is undefined is one that is not there.  Two texts of `JSON.stringify` are the same for the same value
only, so the payloads of two entries are compared as values.

The derived key `messageParts` is no part of a fact.  What `message-parts.ts` writes there is a
parameter of the host, and nothing below depends on it.
-/

namespace Slide.Sessions

open Slide.Display

/-- A `SessionEntry`. -/
abbrev SessionEntry := Record String Json

/-- What the session calls outside its own file. -/
structure Host where
  /-- `sha256(text)`, in hex. -/
  sha256 : String → String
  /-- The text of a number. -/
  numberText : Rat → String
  /-- `migrateMessageParts(entry).messageParts`, where it does not throw. -/
  migrateMessageParts : SessionEntry → Option (Record String Json)
  /-- The parts that `save` acknowledges for an entry among its messages. -/
  acknowledged : List SessionEntry → SessionEntry → Option (Record String Json)
  /-- The parts that `_load` acknowledges for an entry among its messages. -/
  acknowledgedOnLoad : List SessionEntry → SessionEntry → Option (Record String Json)
  (maxCanonicalMessages maxCanonicalBytes : Nat)

def Host.stringify (host : Host) (value : Json) : String := value.stringify host.numberText

variable (entry : SessionEntry)

namespace SessionEntry

/-- `entry[key]` is neither undefined nor null. -/
def present (key : String) : Prop := (nullish (entry.get key) none).isSome

instance (entry : SessionEntry) (key : String) : Decidable (entry.present key) :=
  inferInstanceAs (Decidable (_ = true))

/-- `entry[key] ??= value`. -/
def fill (key : String) (value : Json) : SessionEntry :=
  if entry.present key then entry else entry.set key value

/-- `entry.role === 'user'`. -/
def isUser : Prop := entry.get "role" = some (.string "user")

instance (entry : SessionEntry) : Decidable entry.isUser := inferInstanceAs (Decidable (_ = _))

/-- `entry.source && entry.source !== 'fact'`. -/
def foreign : Prop :=
  (entry.get "source").any Json.truthy ∧ entry.get "source" ≠ some (.string "fact")

instance (entry : SessionEntry) : Decidable entry.foreign := inferInstanceAs (Decidable (_ ∧ _))

/-- An entry without the derived parts. -/
def fact : SessionEntry := entry.erase "messageParts"

/-- The id of an entry that has one. -/
def id (entry : SessionEntry) : Json := (entry.get "id").getD .null

/-- `JSON.stringify([m.role, m.content, …])`, as the value it prints. -/
def payload : List Json :=
  ["role", "content", "tool_calls", "tool_call_id", "reasoning_content", "thinking_blocks",
    "attachments"].map fun key => (entry.get key).getD .null

end SessionEntry

open SessionEntry

/-- A value in a template literal; the ids of entries are texts. -/
def Host.template (host : Host) : Option Json → String
  | some (.string text) => text
  | some value => host.stringify value
  | none => "undefined"

def compatibleMessageParts (host : Host) (entry : SessionEntry) : SessionEntry :=
  match host.migrateMessageParts entry with
  | some parts => entry.set "messageParts" (.object parts)
  | none => entry

section EnsureFactIds

variable (host : Host) (sessionKey : String)

/-- The id of an entry that has none, at its place in the messages. -/
def legacyId (i : Nat) (entry : SessionEntry) : Json :=
  .string ("legacy_" ++ host.sha256
    (sessionKey ++ ":" ++ toString i ++ ":" ++ host.stringify (.object entry)))

/-- The turn that an entry leaves open. -/
def turnAfter (turnId : Option Json) (entry : SessionEntry) : Option Json :=
  if entry.isUser then nullish (entry.get "turnId") (entry.get "id") else turnId

/-- `entry.turnId ??= …; entry.runId ??= …; entry.source ??= 'fact'`, in an open turn. -/
def withTurn (turnId : Option Json) (entry : SessionEntry) : SessionEntry :=
  let entry := entry.fill "turnId" (turnId.getD (.string ("legacy_turn_" ++ sessionKey)))
  let entry := entry.fill "runId" (.string ("legacy_run_" ++ host.template (entry.get "turnId")))
  entry.fill "source" (.string "fact")

/-- `if (!entry.messageParts) … = compatibleMessageParts(entry)`. -/
def withParts (entry : SessionEntry) : SessionEntry :=
  if (entry.get "messageParts").any Json.truthy then entry else compatibleMessageParts host entry

/-- The loop of `ensureFactIds` from an index on: the messages it leaves, and what it throws. -/
def ensureFrom : Nat → Option Json → List SessionEntry → List SessionEntry × Option String
  | _, _, [] => ([], none)
  | i, turnId, entry :: rest =>
    if entry.foreign then (entry :: rest, some "INVALID_CANONICAL_FACT")
    else
      let identified := entry.fill "id" (legacyId host sessionKey i entry)
      let turnId := turnAfter turnId identified
      let (rest, thrown) := ensureFrom (i + 1) turnId rest
      (withParts host (withTurn host sessionKey turnId identified) :: rest, thrown)

end EnsureFactIds

/-- A `Session`. -/
structure Session where
  sessionKey : String
  messages : List SessionEntry
  metadata : Record String Json
  (createdAt updatedAt last_consolidated : Json)

/-- `new Session(sessionKey)`. -/
def Session.new (sessionKey : String) (now : Rat) : Session :=
  ⟨sessionKey, [], [], .number now, .number now, .number 0⟩

namespace Session

variable (host : Host)

/-- `ensureFactIds()`: the session it leaves, and what it throws. -/
def ensureFactIds (s : Session) : Session × Option String :=
  let (messages, thrown) := ensureFrom host s.sessionKey 0 none s.messages
  ({ s with messages }, thrown)

/-- `entry.id && messages.find(m => m.id === entry.id)`. -/
def existing (messages : List SessionEntry) (entry : SessionEntry) : Option SessionEntry :=
  if (entry.get "id").any Json.truthy
  then messages.find? fun m => decide (m.get "id" = entry.get "id") else none

/-- The loop of `appendFacts`. -/
def appendEach (messages : List SessionEntry) :
    List SessionEntry → List SessionEntry × Option String
  | [] => (messages, none)
  | entry :: rest =>
    if entry.foreign then appendEach messages rest
    else match existing messages entry with
    | some found =>
      if found.payload ≠ entry.payload then (messages, some "CANONICAL_ID_CONFLICT")
      else appendEach messages rest
    | none => appendEach (messages ++ [entry]) rest

def appendFacts (s : Session) (entries : List SessionEntry) : Session × Option String :=
  match ensureFactIds host s with
  | (s, some error) => (s, some error)
  | (s, none) =>
    match appendEach s.messages entries with
    | (messages, some error) => ({ s with messages }, some error)
    | (messages, none) => ensureFactIds host { s with messages }

/-- The entry of `addMessage(role, content, extra)`. -/
def newEntry (s : Session) (role : String) (content : Json) (extra : SessionEntry)
    (timestamp uuid : String) : SessionEntry :=
  let entry : SessionEntry := Record.spread
    [("role", .string role), ("content", content), ("timestamp", .string timestamp)] extra
  let entry : SessionEntry := entry.set "id" ((nullish (extra.get "id") none).getD (.string uuid))
  let entry : SessionEntry :=
    entry.set "source" ((nullish (extra.get "source") none).getD (.string "fact"))
  if entry.isUser then entry.fill "turnId" entry.id
  else match (s.messages.reverse.find? fun m : SessionEntry => decide m.isUser).bind
      (Record.get · "turnId") with
    | some turnId => entry.fill "turnId" turnId
    | none => entry

def addMessage (s : Session) (role : String) (content : Json) (extra : SessionEntry)
    (timestamp uuid : String) (now : Rat) : Session × Option String :=
  match appendFacts host s [newEntry s role content extra timestamp uuid] with
  | (s, none) => ({ s with updatedAt := .number now }, none)
  | failed => failed

def getCanonicalPage (s : Session) (limit : Int) (after : Option Json) :
    Session × Except String (List SessionEntry × Option Json) :=
  if ¬ (1 ≤ limit ∧ limit ≤ 1000) then (s, .error "INVALID_CANONICAL_PAGE")
  else match ensureFactIds host s with
  | (s, some error) => (s, .error error)
  | (s, none) =>
    match Paging.start SessionEntry.id s.messages after with
    | none => (s, .error "CANONICAL_CURSOR_NOT_FOUND")
    | some first =>
      let page := (s.messages.drop first).take limit.toNat
      (s, .ok (page,
        if first + limit.toNat < s.messages.length then page.getLast?.map SessionEntry.id
        else none))

/-- The facts of a session: its messages without their parts, once every one has its ids. -/
def facts (s : Session) : List SessionEntry := ((ensureFactIds host s).1.messages).map fact

def canonicalHash (s : Session) : Session × Except String String :=
  match ensureFactIds host s with
  | (s, some error) => (s, .error error)
  | (s, none) =>
    (s, .ok (host.sha256 (host.stringify (.array (s.messages.map fun m => .object m.fact)))))

end Session

end Slide.Sessions
