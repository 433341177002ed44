import Mathlib.Algebra.GroupWithZero.Nat
import Slide.Sessions.Appending

/-!
# The file of a session

`save` takes its lines in one piece, up to the first file operation behind `ensureFactIds`; `_load` is
one piece altogether.  A file is the list of its lines that are not empty, a line the value that
`JSON.parse` reads from it.
-/

namespace Slide.Sessions

open Slide.Display SessionEntry Session

/-- A line of the file, where it is JSON. -/
abbrev Line := Option Json

variable (host : Host)

/-- The bytes of the lines, each with its line feed. -/
def Host.contentBytes (lines : List Json) : Nat :=
  (lines.map fun line => (host.stringify line).utf8ByteSize + 1).sum

variable (metadata : Record String Json) (l : Loading) (messages : List SessionEntry)

/-- `messages.length <= maxCanonicalMessages && byteLength <= maxCanonicalBytes`. -/
def Host.fits (lines : List Json) : Prop :=
  messages.length ≤ host.maxCanonicalMessages ∧ host.contentBytes lines ≤ host.maxCanonicalBytes

instance (host : Host) (messages : List SessionEntry) (lines : List Json) :
    Decidable (host.fits messages lines) := inferInstanceAs (Decidable (_ ∧ _))

/-! ## Saving -/

/-- An entry with acknowledged parts, or as it is where they are refused. -/
def acknowledgedWith (parts : Option (Record String Json)) (entry : SessionEntry) : SessionEntry :=
  match parts with
  | some parts => entry.set "messageParts" (.object parts)
  | none => entry

def storedMessages : List SessionEntry :=
  messages.map fun m => acknowledgedWith (host.acknowledged messages m) m

/-- The metadata line. -/
def metadataLine (s : Session) (now : Rat) : Json :=
  .object [("_type", .string "session"), ("__meta__", .bool true),
    ("sessionKey", .string s.sessionKey), ("metadata", .object s.metadata),
    ("createdAt", s.createdAt), ("updatedAt", .number now),
    ("last_consolidated", s.last_consolidated), ("canonical_version", .number 1)]

/-- `save` from `ensureFactIds` to the capacity check: the messages and the lines to store. -/
def snapshot (s : Session) (now : Rat) :
    Session × Except String (List SessionEntry × List Json) :=
  match ensureFactIds host s with
  | (s, some error) => (s, .error error)
  | (s, none) =>
    let stored := storedMessages host s.messages
    let lines := stored.map Json.object ++ [metadataLine s now]
    if host.fits s.messages lines then (s, .ok (stored, lines))
    else (s, .error "CANONICAL_CAPACITY_EXCEEDED")

/-! ## Loading -/

/-- `parsed.__meta__ || parsed._type === 'session'`. -/
def isMetadata (parsed : SessionEntry) : Prop :=
  (parsed.get "__meta__").any Json.truthy ∨ parsed.get "_type" = some (.string "session")

instance (parsed : SessionEntry) : Decidable (isMetadata parsed) := inferInstanceAs (Decidable (_ ∨ _))

/-- `['user', 'assistant', 'system', 'tool'].includes(parsed.role)`. -/
def hasRole (parsed : SessionEntry) : Prop :=
  parsed.get "role" ∈ ["user", "assistant", "system", "tool"].map fun role => some (Json.string role)

instance (parsed : SessionEntry) : Decidable (hasRole parsed) := inferInstanceAs (Decidable (_ ∈ _))

def isSystem (entry : SessionEntry) : Prop := entry.get "role" = some (.string "system")

instance (entry : SessionEntry) : Decidable (isSystem entry) := inferInstanceAs (Decidable (_ = _))

/-- The variables of `_load`. -/
structure Loading where
  session : Session
  version : Json
  (corrupt derived : Nat)
  legacyDerived : List SessionEntry

/-- `value || otherwise`. -/
def orElse (value : Option Json) (otherwise : Json) : Json :=
  if value.any Json.truthy then value.getD otherwise else otherwise

/-- The body of the loop over the lines. -/
def readLine (sessionKey : String) (l : Loading) : Line → Except String Loading
  | some (.object parsed) =>
    let parsed : SessionEntry := parsed
    if isMetadata parsed then
      if (parsed.get "sessionKey").any Json.truthy ∧
          parsed.get "sessionKey" ≠ some (.string sessionKey)
      then .error "CANONICAL_SESSION_MISMATCH"
      else .ok { l with
        session := { l.session with
          metadata := match parsed.get "metadata" with
            | some (.object metadata) => metadata
            | _ => []
          createdAt := orElse (parsed.get "createdAt") (.number 0)
          updatedAt := orElse (parsed.get "updatedAt") (.number 0)
          last_consolidated := (nullish (parsed.get "last_consolidated") none).getD (.number 0) }
        version := (nullish (parsed.get "canonical_version") none).getD (.number 0) }
    else if hasRole parsed then
      if parsed.foreign then .ok { l with
        legacyDerived := if isSystem parsed then l.legacyDerived ++ [parsed] else l.legacyDerived
        derived := l.derived + 1 }
      else .ok { l with session := { l.session with messages := l.session.messages ++ [parsed] } }
    else .ok { l with corrupt := l.corrupt + 1 }
  | _ => .ok { l with corrupt := l.corrupt + 1 }

/-- `{ text, generation: 0, provenance: 'legacy/unknown', sourceIds: [], legacyEntries }`. -/
def legacySummary (text : Json) (legacyEntries : List SessionEntry) : Record String Json :=
  [("text", text), ("generation", .number 0), ("provenance", .string "legacy/unknown"),
    ("sourceIds", .array []), ("legacyEntries", .array (legacyEntries.map Json.object))]

/-- `if (legacyText && !session.metadata.context_summary)`: whether the last summary is taken over. -/
def hasLegacyText : Prop :=
  (metadata.get "_last_summary").any Json.truthy ∧
    ¬ (metadata.get "context_summary").any Json.truthy

instance (metadata : Record String Json) : Decidable (hasLegacyText metadata) :=
  inferInstanceAs (Decidable (_ ∧ _))

/-- The last summary of an old session becomes its context summary. -/
def adoptSummary : Loading :=
  if hasLegacyText l.session.metadata then
    { l with
      session := { l.session with
        metadata := (l.session.metadata.set "context_summary"
          (.object (legacySummary ((l.session.metadata.get "_last_summary").getD .null) []))).erase
            "_last_summary" }
      derived := l.derived + 1 }
  else l

/-- The items of an array. -/
def items : Option Json → List Json
  | some (.array items) => items
  | _ => []

/-- `context_summary`, where the session has one. -/
def summaryOf : Option (Record String Json) :=
  match metadata.get "context_summary" with
  | some (.object summary) => some summary
  | _ => none

/-- `legacyDerived.map(m => m.content).join('\n')`. -/
def joinedContents (entries : List SessionEntry) : String :=
  "\n".intercalate (entries.map fun m => match m.get "content" with
    | none | some .null => ""
    | content => host.template content)

/-- The derived entries of the file are kept with the summary. -/
def keepDerived : Loading :=
  if l.legacyDerived.isEmpty then l
  else
    let summary := match summaryOf l.session.metadata with
      | some prior => Record.set prior "legacyEntries"
          (.array (items (prior.get "legacyEntries") ++ l.legacyDerived.map Json.object))
      | none => legacySummary (.string (joinedContents host l.legacyDerived)) l.legacyDerived
    { l with session := { l.session with
        metadata := l.session.metadata.set "context_summary" (.object summary) } }

/-- `/^Previous conversation summary \(last active [0-9T:Z.-]+\):\n/`: what follows the match. -/
def afterActive (content : String) : Option String :=
  let opening := "Previous conversation summary (last active "
  if opening.toList <+: content.toList then
    let active := fun c : Char => c.isDigit || ['T', ':', 'Z', '.', '-'].contains c
    let time := content.toList.drop opening.length
    if (time.takeWhile active).isEmpty then none
    else match time.dropWhile active with
    | ')' :: ':' :: '\n' :: rest => some (String.ofList rest)
    | _ => none
  else none

/-- Whether an entry is a summary that an old version injected. -/
def injectedBy (summary : Record String Json) (m : SessionEntry) : Prop :=
  isSystem m ∧ (m.get "content" =
      some (.string ("Previous conversation summary:\n" ++ host.template (summary.get "text"))) ∨
    (m.get "content").any fun content => match content with
      | .string text => (afterActive text).any fun rest => summary.get "text" = some (.string rest)
      | _ => false)

instance (host : Host) (summary : Record String Json) (m : SessionEntry) :
    Decidable (injectedBy host summary m) := inferInstanceAs (Decidable (_ ∧ _))

/-- The summary whose injected copies are no facts. -/
def legacyRecord : Option (Record String Json) :=
  (summaryOf metadata).filter fun summary =>
    decide (summary.get "provenance" = some (.string "legacy/unknown"))

/-- The injected copies of the summary are taken out of the messages. -/
def dropInjected : Loading :=
  match legacyRecord l.session.metadata with
  | none => l
  | some summary =>
    let injected := l.session.messages.filter fun m => decide (injectedBy host summary m)
    let kept := l.session.messages.filter fun m => decide (¬ injectedBy host summary m)
    let record := if injected.isEmpty then summary
      else Record.set summary "legacyEntries"
        (.array (items (summary.get "legacyEntries") ++ injected.map Json.object))
    { l with
      session := { l.session with
        messages := kept
        metadata := l.session.metadata.set "context_summary" (.object record) }
      derived := l.derived + injected.length }

/-- `!m.id || !m.turnId || !m.runId` of some message. -/
def missingIds : Prop :=
  ∃ m ∈ messages, ∃ key ∈ ["id", "turnId", "runId"], ¬ (m.get key).any Json.truthy

instance (messages : List SessionEntry) : Decidable (missingIds messages) :=
  inferInstanceAs (Decidable (∃ m ∈ messages, _))

/-- `!m.messageParts` of some message. -/
def missingParts : Prop :=
  ∃ m ∈ messages, ¬ (m.get "messageParts").any Json.truthy

instance (messages : List SessionEntry) : Decidable (missingParts messages) :=
  inferInstanceAs (Decidable (∃ m ∈ messages, _))

/-- `history_gaps = [...(history_gaps ?? []), gap]`. -/
def withGap (gap : Record String Json) : Record String Json :=
  metadata.set "history_gaps" (.array (items (metadata.get "history_gaps") ++ [.object gap]))

/-- `!version`. -/
def Loading.unversioned : Prop := ¬ l.version.truthy

instance (l : Loading) : Decidable l.unversioned := inferInstanceAs (Decidable (¬ _))

/-- `corrupt || derived`. -/
def Loading.repaired : Prop := l.corrupt ≠ 0 ∨ l.derived ≠ 0

instance (l : Loading) : Decidable l.repaired := inferInstanceAs (Decidable (_ ∨ _))

/-- `history_gaps` of a load. -/
def Loading.gaps : Record String Json :=
  let metadata := if l.unversioned then withGap l.session.metadata
      [("kind", .string "legacy_retention_unknown"), ("detail", .string
        "Older versions may have trimmed facts; unavailable facts cannot be recovered.")]
    else l.session.metadata
  if l.repaired then withGap metadata [("kind", .string "repair"),
      ("corruptLines", .number l.corrupt), ("excludedDerived", .number l.derived)]
  else metadata

/-- The messages with the parts that a load acknowledges. -/
def repairedMessages : List SessionEntry :=
  messages.map fun m => acknowledgedWith (host.acknowledgedOnLoad messages m) m

/-- The lines of the file that a load writes. -/
def repairedLines (s : Session) : List Json :=
  s.messages.map Json.object ++ [.object [("_type", .string "session"), ("__meta__", .bool true),
    ("sessionKey", .string s.sessionKey), ("canonical_version", .number 1),
    ("metadata", .object s.metadata), ("createdAt", s.createdAt), ("updatedAt", s.updatedAt),
    ("last_consolidated", s.last_consolidated)]]

/-- `_load` behind the loop over the lines: the session, and whether the file is written again. -/
def settle : Except String (Session × Bool) :=
  let l := dropInjected host (keepDerived host (adoptSummary l))
  let rewrites := decide (l.unversioned ∨ missingIds l.session.messages ∨
    missingParts l.session.messages ∨ l.repaired)
  match ensureFactIds host l.session with
  | (_, some error) => .error error
  | (s, none) =>
    let messages := if missingParts l.session.messages then repairedMessages host s.messages
      else s.messages
    .ok ({ s with messages, metadata := l.gaps }, rewrites)

/-- `_load` up to the capacity check: the session, and whether the file is written again. -/
def read (sessionKey : String) (now : Rat) (file : List Line) :
    Except String (Session × Bool) := do
  let l ← file.foldlM (readLine sessionKey) ⟨Session.new sessionKey now, .number 0, 0, 0, []⟩
  settle host l

/-- `_load(sessionKey)` of a file: the session, and the lines it writes. -/
def load (sessionKey : String) (now : Rat) (file : List Line) :
    Except String (Session × Option (List Json)) := do
  let (s, rewrites) ← read host sessionKey now file
  if rewrites then
    if host.fits s.messages (repairedLines s) then .ok (s, some (repairedLines s))
    else .error "CANONICAL_CAPACITY_EXCEEDED"
  else .ok (s, none)

end Slide.Sessions
