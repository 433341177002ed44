import Slide.Sessions.SessionRun

/-!
# The facts of a session survive its saves

As long as no save ends behind a fact that was appended after its snapshot, the facts of a session
stay as they were appended, its file is what some save took, and its readers get every fact once.
-/

namespace Slide.Sessions

open Slide.Display SessionEntry Session List

/-- What a run does to the facts of the session. -/
structure Outcome (host : Host) (start : World) (events : List Event) : Prop where
  /-- The facts at any earlier time are the first of the facts there are. -/
  kept : ∀ earlier, earlier <+: events →
    (run host start earlier).facts host <+: (run host start events).facts host
  /-- Facts come from the calls that append, in the order of these. -/
  grown : ∀ earlier event, earlier ++ [event] <+: events →
    Grown ((run host start earlier).facts host) ((run host start (earlier ++ [event])).facts host)
      (event.entries (run host start earlier)) (appendFacts host (run host start earlier).session
        (event.entries (run host start earlier))).2
  /-- The file is the first one, or holds the facts at the start of some save and loads as them. -/
  file : (run host start events).file = start.file ∨
    ∃ earlier now, ∃ (stored : List SessionEntry) (lines : List Json),
      earlier ++ [.take now] <+: events ∧
      (run host start events).file = some (lines.map some) ∧
      lines = stored.map Json.object ++ [metadataLine (run host start earlier).session now] ∧
      stored.map fact = (run host start earlier).facts host ∧
      ∀ later, ∃ t rewritten,
        load host start.session.sessionKey later (lines.map some) = .ok (t, rewritten) ∧
          facts host t = (run host start earlier).facts host ∧
          (canonicalHash host t).2 = (canonicalHash host (run host start earlier).session).2
  /-- An entry whose id is there is no news, or an error that changes nothing. -/
  existing : ∀ entry found, ¬ entry.foreign →
    (ensureFactIds host (run host start events).session).2 = none →
    existing (ensureFactIds host (run host start events).session).1.messages entry =
      some found →
    appendFacts host (run host start events).session [entry] =
      if found.payload = entry.payload then ensureFactIds host (run host start events).session
      else ((ensureFactIds host (run host start events).session).1, some "CANONICAL_ID_CONFLICT")
  /-- A reader has the first of the facts in their order, and all of that time at its end. -/
  readers : ∀ r ∈ (run host start events).readers,
    r.collected.map fact <+: (run host start events).facts host ∧
      (r.ended = true → ∃ earlier, earlier <+: events ∧
        r.collected.map fact = (run host start earlier).facts host)

variable {host : Host} {start : World} {events earlier : List Event}

theorem Observes.of_prefix (observes : Observes host start events) (before : earlier <+: events) :
    Observes host start earlier := by
  obtain ⟨rest, rfl⟩ := before
  induction rest using List.reverseRecOn with
  | nil => rwa [append_nil] at observes
  | append_singleton rest last ih =>
    rw [← append_assoc] at observes
    exact ih observes.of_snoc.1

section Texts

/-- The parts of a message whose content is a text, under a status and its evidence. -/
def textParts (status : String) (durable : Record String Json) (entry : SessionEntry) :
    Option (Record String Json) :=
  match entry.get "content", entry.get "id", entry.get "role", entry.get "runId",
      entry.get "turnId" with
  | some (.string text), some (.string name), some role, some runId, some turnId =>
    some ([("version", .number 1), ("id", .string name), ("role", role), ("runId", runId),
      ("turnId", turnId), ("source", .string "fact"), ("status", .string status),
      ("parts", .array [.object ([("type", .string "text"), ("text", .string text),
        ("status", .string status), ("source", .string "fact"),
        ("id", .string (name ++ "/part/0"))] ++ durable)]),
      ("legacy", .object entry.fact)] ++ durable)
  | _, _, _, _, _ => none

/-- `{ durable: { kind: 'jsonl', reference: msg.id } }`. -/
def durableJsonl (entry : SessionEntry) : Record String Json :=
  [("durable", .object [("kind", .string "jsonl"), ("reference", entry.id)])]

/-- A host of text messages without a stop reason. -/
def textHost : Host where
  sha256 := fun text => text
  numberText := fun n => toString n.num
  migrateMessageParts := textParts "partial" []
  acknowledged := fun _ entry => textParts "completed" (durableJsonl entry) entry
  acknowledgedOnLoad := fun _ entry => textParts "completed" (durableJsonl entry) entry
  maxCanonicalMessages := 100000
  maxCanonicalBytes := 67108864

def question : SessionEntry :=
  [("id", .string "q"), ("role", .string "user"), ("content", .string "Is the database up?")]

def answer : SessionEntry :=
  [("id", .string "a"), ("role", .string "assistant"), ("content", .string "It is.")]

def newSession : World := World.start (new "chat:1" 0) none

/-- The answer is appended while the save of the question is under way. -/
def appendDuringSave : List Event :=
  [.appendFacts [question], .take 1, .appendFacts [answer]]

/-- The same with the answer before the save, and somebody who reads both. -/
def appendBeforeSave : List Event :=
  [.appendFacts [question, answer], .take 1, .rename 0, .finish 0, .open, .page 0 10]

end Texts

end Slide.Sessions
